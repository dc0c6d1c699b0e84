import Dialogue.Proofs.Agreement
import Dialogue.Proofs.Decoding
import Dialogue.Proofs.Refusal

/-!
# Replies read back

A run replies with a report or with an error. The reply can be read back from the printed text, line
by line: no text of a script is taken for a line, no line is lost in a text, and no two replies are
printed alike.
-/
namespace Dialogue

namespace Json

/-- The text that stands in quotes, if it is written as it would be written here. -/
def unquote? (s : String) : Option String :=
  (decode text s).toOption.filter fun t => textJson t = s

theorem unquote?_eq_some_iff {s t : String} : unquote? s = some t ↔ s = textJson t := by
  unfold unquote?
  rw [Option.filter_eq_some_iff, decide_eq_true_eq]
  constructor
  · rintro ⟨_, hwritten⟩
    exact hwritten.symm
  · rintro rfl
    have hread := toOption_decode_compact follows_text (Value.writable_text 127 t)
    exact ⟨hread, rfl⟩

end Json

namespace CommandLine

/-- The lines of a text, each of which must be ended by a line feed. -/
def lines? (text : String) : Option (List String) :=
  if (text.toList.splitOn '\n').getLast? = some [] then
    some ((text.toList.splitOn '\n').dropLast.map String.ofList)
  else none

theorem eq_unlines_of_lines? {text : String} {ls : List String} (h : lines? text = some ls) :
    text = unlines ls := by
  unfold lines? at h
  split at h
  · next hlast =>
    obtain rfl := Option.some.inj h
    obtain ⟨pieces, hpieces⟩ := List.getLast?_eq_some_iff.mp hlast
    apply String.toList_inj.mp
    rw [toList_unlines, hpieces, List.dropLast_concat, List.map_map]
    have hmap : pieces.map (String.toList ∘ String.ofList) = pieces := by
      simp [Function.comp_def]
    rw [hmap, ← hpieces, List.intercalate_splitOn]
  · cases h

theorem lines?_unlines {ls : List String} (h : ∀ l ∈ ls, Printable l) :
    lines? (unlines ls) = some ls := by
  have hsplit := splitOn_unlines fun l hl => (h l hl).newline_notMem
  simp only [lines?, hsplit, List.getLast?_concat, if_true, List.dropLast_concat, List.map_map]
  simp [Function.comp_def]

/-- What stands on a line behind a word. -/
def behind? (word line : String) : Option String :=
  (word.toList.isPrefixOf? line.toList).map String.ofList

theorem behind?_eq_some_iff {word line rest : String} :
    behind? word line = some rest ↔ line = word ++ rest := by
  simp only [behind?, Option.map_eq_some_iff, List.isPrefixOf?_eq_some_iff_append_eq]
  constructor
  · rintro ⟨cs, hcs, rfl⟩
    apply String.toList_inj.mp
    simp [hcs]
  · rintro rfl
    exact ⟨rest.toList, by simp, String.ofList_toList⟩

theorem behind?_append (word rest : String) : behind? word (word ++ rest) = some rest :=
  behind?_eq_some_iff.mpr rfl

/-- The text that stands in quotes behind a word. -/
def quoted? (word line : String) : Option String := (behind? word line).bind Json.unquote?

theorem quoted?_eq_some_iff {word line text : String} :
    quoted? word line = some text ↔ line = word ++ Json.textJson text := by
  simp [quoted?, Option.bind_eq_some_iff, behind?_eq_some_iff, Json.unquote?_eq_some_iff]

theorem quoted?_append (word text : String) :
    quoted? word (word ++ Json.textJson text) = some text :=
  quoted?_eq_some_iff.mpr rfl

/-- The texts of choices that are numbered from `k` on. -/
def choices? (k : Nat) : List String → Option (List String)
  | [] => some []
  | line :: rest =>
    (quoted? ("OPTION:" ++ toString k ++ "|") line).bind fun text =>
      (choices? (k + 1) rest).map (text :: ·)

theorem choices?_eq_some_iff {k : Nat} {lines texts : List String} :
    choices? k lines = some texts ↔ lines = texts.mapIdx fun i text => choiceLine (k + i) text := by
  induction lines generalizing k texts with
  | nil => cases texts <;> simp [choices?]
  | cons line lines ih =>
    cases texts with
    | nil => simp [choices?, Option.bind_eq_some_iff]
    | cons text texts =>
      have hcount : ∀ i, k + 1 + i = k + (i + 1) := fun i => by omega
      simp [choices?, Option.bind_eq_some_iff, quoted?_eq_some_iff, ih, hcount, choiceLine]

/-- The entry that is printed as a block of lines. -/
def entry? : List String → Option Entry
  | ["EVENT:CLEARED"] => some .cleared
  | ["EVENT:END"] => some .finished
  | ["EVENT:MESSAGE", message] => (quoted? "MESSAGE_JSON:" message).map .message
  | "EVENT:LINE" :: speaker :: text :: choices =>
    (quoted? "SPEAKER_JSON:" speaker).bind fun speaker =>
      (quoted? "TEXT_JSON:" text).bind fun text => (choices? 0 choices).map (.line speaker text)
  | _ => none

theorem entry?_entryLines (e : Entry) : entry? (entryLines e) = some e := by
  cases e with
  | line speaker text choices =>
    have hchoices : choices? 0 (choices.mapIdx choiceLine) = some choices :=
      choices?_eq_some_iff.mpr (by simp)
    simp [entryLines, entry?, quoted?_append, hchoices]
  | cleared => rfl
  | finished => rfl
  | message text => simp [entryLines, entry?, quoted?_append]

theorem entry?_eq_some_iff {block : List String} {e : Entry} :
    entry? block = some e ↔ block = entryLines e := by
  constructor
  · intro h
    unfold entry? at h
    split at h
    · obtain rfl := Option.some.inj h
      rfl
    · obtain rfl := Option.some.inj h
      rfl
    · obtain ⟨text, htext, rfl⟩ := Option.map_eq_some_iff.mp h
      rw [quoted?_eq_some_iff.mp htext]
      rfl
    · obtain ⟨speaker, hspeaker, h⟩ := Option.bind_eq_some_iff.mp h
      obtain ⟨text, htext, h⟩ := Option.bind_eq_some_iff.mp h
      obtain ⟨choices, hchoices, rfl⟩ := Option.map_eq_some_iff.mp h
      rw [quoted?_eq_some_iff.mp hspeaker, quoted?_eq_some_iff.mp htext,
        choices?_eq_some_iff.mp hchoices]
      simp [entryLines]
    · cases h
  · rintro rfl
    exact entry?_entryLines e

/-- The entries printed one after the other. -/
def entries? (lines : List String) : Option (List Entry) :=
  (lines.splitBy fun _ next => !isEventLine next).mapM entry?

theorem entries?_eq_some_iff {lines : List String} {es : List Entry} :
    entries? lines = some es ↔ lines = es.flatMap entryLines := by
  have hblocks : entries? lines = some es ↔
      es.map entryLines = lines.splitBy fun _ next => !isEventLine next := by
    have hmap := @List.forall₂_map_left_iff _ _ _ (· = ·) entryLines es
    rw [List.forall₂_eq_eq_eq] at hmap
    rw [entries?, Json.mapM_eq_some (entry?_eq_some_iff.trans eq_comm), ← hmap]
  rw [hblocks]
  constructor
  · intro h
    rw [List.flatMap_def, h, List.flatten_splitBy]
  · rintro rfl
    exact (splitBy_entryLines es).symm

def ended? (line : String) : Option Bool :=
  if line = stateLine true then some true
  else if line = stateLine false then some false
  else none

theorem ended?_eq_some_iff {line : String} {ended : Bool} :
    ended? line = some ended ↔ line = stateLine ended := by
  unfold ended?
  split
  · next h =>
    subst h
    cases ended <;> decide
  · split
    · next h =>
      subst h
      cases ended <;> decide
    · cases ended <;> simp_all

/-- What a report tells behind its first line. -/
def outcome? (lines : List String) : Option Outcome :=
  (lines.getLast?.bind ended?).bind fun ended => (entries? lines.dropLast).map (⟨·, ended⟩)

theorem outcome?_eq_some_iff {lines : List String} {o : Outcome} :
    outcome? lines = some o ↔ lines = o.entries.flatMap entryLines ++ [stateLine o.ended] := by
  constructor
  · intro h
    obtain ⟨ended, hended, h⟩ := Option.bind_eq_some_iff.mp h
    obtain ⟨es, hes, rfl⟩ := Option.map_eq_some_iff.mp h
    obtain ⟨last, hlast, hstate⟩ := Option.bind_eq_some_iff.mp hended
    rw [← List.dropLast_append_getLast? last hlast, entries?_eq_some_iff.mp hes,
      ended?_eq_some_iff.mp hstate]
  · rintro rfl
    have hes : entries? (o.entries.flatMap entryLines) = some o.entries :=
      entries?_eq_some_iff.mpr rfl
    have hended : ended? (stateLine o.ended) = some o.ended := ended?_eq_some_iff.mpr rfl
    simp [outcome?, hes, hended]

/-- What an error tells behind its first line. -/
def failure? : List String → Option Failure
  | [code, message] =>
    (behind? "ERROR_CODE:" code).bind fun code =>
      (quoted? "ERROR_MSG_JSON:" message).bind fun message =>
        if known : code ∈ errorCodes then some ⟨code, message, known⟩ else none
  | _ => none

theorem failure?_eq_some_iff {lines : List String} {f : Failure} :
    failure? lines = some f ↔
      lines = ["ERROR_CODE:" ++ f.code, "ERROR_MSG_JSON:" ++ Json.textJson f.message] := by
  constructor
  · intro h
    unfold failure? at h
    split at h
    · obtain ⟨code, hcode, h⟩ := Option.bind_eq_some_iff.mp h
      obtain ⟨message, hmessage, h⟩ := Option.bind_eq_some_iff.mp h
      split at h
      · obtain rfl := Option.some.inj h
        rw [behind?_eq_some_iff.mp hcode, quoted?_eq_some_iff.mp hmessage]
      · cases h
    · cases h
  · rintro rfl
    simp [failure?, behind?_append, quoted?_append, f.known]

/-- What comes of a run: a report, or what has gone wrong. -/
inductive Reply where
  | report (o : Outcome)
  | failure (f : Failure)
  deriving DecidableEq

namespace Reply

def lines : Reply → List String
  | .report o => o.lines
  | .failure f => f.lines

def exit : Reply → Nat
  | .report _ => 0
  | .failure _ => 1

def finish (r : Reply) : Finish := ⟨unlines r.lines, r.exit⟩

def ofResult : Except CommandError Outcome → Reply
  | .ok o => .report o
  | .error e => .failure e.failure

theorem finish_ofResult (x : Except CommandError Outcome) : (ofResult x).finish = finishOf x := by
  cases x <;> rfl

theorem printable_lines (r : Reply) : ∀ l ∈ r.lines, Printable l := by
  cases r with
  | report o => exact o.printable_lines
  | failure f => exact f.printable_lines

theorem lines_finish (r : Reply) : r.finish.lines = r.lines :=
  lines_unlines (fun l hl => (r.printable_lines l hl).newline_notMem) r.exit

/-- The reply that is printed as these lines. -/
def ofLines? : List String → Option Reply
  | "RESULT:OK" :: rest => (outcome? rest).map .report
  | "RESULT:ERROR" :: rest => (failure? rest).map .failure
  | _ => none

theorem ofLines?_eq_some_iff {ls : List String} {r : Reply} :
    ofLines? ls = some r ↔ ls = r.lines := by
  constructor
  · intro h
    unfold ofLines? at h
    split at h
    · obtain ⟨o, ho, rfl⟩ := Option.map_eq_some_iff.mp h
      rw [outcome?_eq_some_iff.mp ho]
      rfl
    · obtain ⟨f, hf, rfl⟩ := Option.map_eq_some_iff.mp h
      rw [failure?_eq_some_iff.mp hf]
      rfl
    · cases h
  · rintro rfl
    cases r with
    | report o =>
      have ho : outcome? (o.entries.flatMap entryLines ++ [stateLine o.ended]) = some o :=
        outcome?_eq_some_iff.mpr rfl
      simp [ofLines?, lines, Outcome.lines, ho]
    | failure f =>
      have hf : failure? f.lines.tail = some f := failure?_eq_some_iff.mpr rfl
      simpa [ofLines?, lines, Failure.lines] using hf

/-- The reply that is printed as this text. -/
def read? (text : String) : Option Reply := (lines? text).bind ofLines?

theorem read?_eq_some_iff {text : String} {r : Reply} :
    read? text = some r ↔ text = r.finish.output := by
  constructor
  · intro h
    obtain ⟨ls, hls, h⟩ := Option.bind_eq_some_iff.mp h
    rw [eq_unlines_of_lines? hls, ofLines?_eq_some_iff.mp h]
    rfl
  · rintro rfl
    simp only [read?, finish, lines?_unlines r.printable_lines, Option.bind_some]
    exact ofLines?_eq_some_iff.mpr rfl

theorem output_injective {r s : Reply} (h : r.finish.output = s.finish.output) : r = s :=
  Option.some.inj ((read?_eq_some_iff.mpr rfl).symm.trans (read?_eq_some_iff.mpr h))

end Reply

/-- What a line starts with, up to the first quotation mark. -/
def heading (line : String) : String := String.ofList (line.toList.takeWhile (· ≠ '"'))

theorem heading_quoted {word : String} (h : '"' ∉ word.toList) (text : String) :
    heading (word ++ Json.textJson text) = word := by
  have hall : ∀ c ∈ word.toList, decide (c ≠ '"') = true := by
    intro c hc
    simpa using fun hquote : c = '"' => h (hquote ▸ hc)
  rw [heading, String.toList_append, List.takeWhile_append_of_pos hall]
  simp [Json.textJson, Json.textChars]

theorem heading_choiceLine (k : Nat) (text : String) :
    heading (choiceLine k text) = "OPTION:" ++ toString k ++ "|" := by
  apply heading_quoted
  have hdigits : '"' ∉ Nat.toDigits 10 k := fun hmem =>
    absurd (Text.isDigit_of_mem_toDigits hmem) (by decide)
  simpa using hdigits

end CommandLine

/-- An entry with all its texts empty. -/
def Entry.mute : Entry → Entry
  | .line _ _ choices => .line "" "" (choices.map fun _ => "")
  | .cleared => .cleared
  | .finished => .finished
  | .message _ => .message ""

namespace CommandLine

/-- A reply with all its texts empty. -/
def Reply.mute : Reply → Reply
  | .report o => .report { o with entries := o.entries.map Entry.mute }
  | .failure f => .failure { f with message := "" }

theorem headings_entryLines (e : Entry) :
    (entryLines e).map heading = (entryLines e.mute).map heading := by
  have hquoted : ∀ {word}, '"' ∉ word.toList → ∀ s t,
      heading (word ++ Json.textJson s) = heading (word ++ Json.textJson t) := by
    intro word hword s t
    rw [heading_quoted hword, heading_quoted hword]
  cases e with
  | line speaker text choices =>
    have hchoices : (choices.mapIdx choiceLine).map heading =
        ((choices.map fun _ => "").mapIdx choiceLine).map heading := by
      apply List.ext_getElem
      · simp
      · intro k _ _
        simp [heading_choiceLine]
    simp only [entryLines, Entry.mute, List.cons_append, List.nil_append, List.map_cons, hchoices]
    rw [hquoted (by decide) speaker "", hquoted (by decide) text ""]
  | cleared => rfl
  | finished => rfl
  | message text =>
    simp only [entryLines, Entry.mute, List.map_cons, List.map_nil]
    rw [hquoted (by decide) text ""]

/-- The texts of a reply have no say in which lines there are. -/
theorem Reply.headings_lines (r : Reply) : r.lines.map heading = r.mute.lines.map heading := by
  cases r with
  | report o =>
    have hentries : (o.entries.flatMap entryLines).map heading =
        ((o.entries.map Entry.mute).flatMap entryLines).map heading := by
      rw [List.map_flatMap, List.flatMap_map, List.map_flatMap]
      exact List.flatMap_congr fun e _ => headings_entryLines e
    simp only [Reply.lines, Reply.mute, Outcome.lines, List.cons_append, List.map_cons,
      List.map_append, hentries]
  | failure f =>
    have hmessage : '"' ∉ "ERROR_MSG_JSON:".toList := by decide
    simp only [Reply.lines, Reply.mute, Failure.lines, List.map_cons, List.map_nil,
      heading_quoted hmessage]

end CommandLine

theorem Playthrough.select_of_ended {p : Playthrough} (h : p.ended) (s : Selection) :
    p.select s = .error .notActive := by
  have hindex : p.playback.index? = none := by simpa [ended_eq_isNone] using h
  have hresult : (p.playback.select s).result = .error .notActive := by
    cases s with
    | main => exact Playback.advanceMain_of_not_active hindex
    | choice k => exact Playback.choose_of_not_active hindex k.toNat
  rw [select, extend, hresult]
  rfl

namespace CommandLine

/-- There is a report if and only if every selection goes through. -/
theorem applyAll_eq_ok_iff {number : Nat} {p : Playthrough} {selections : List Selection}
    {o : Outcome} : applyAll number p selections = .ok o ↔
      ∃ q, p.selectAll selections = .ok q ∧ o = ⟨q.transcript, q.ended⟩ := by
  induction selections generalizing number p with
  | nil =>
    simp only [applyAll, Playthrough.selectAll, List.foldlM_nil]
    constructor
    · intro h
      exact ⟨p, rfl, (Except.ok.inj h).symm⟩
    · rintro ⟨q, hq, rfl⟩
      obtain rfl := Except.ok.inj hq
      rfl
  | cons s rest ih =>
    rw [Playthrough.selectAll_cons, applyAll]
    split
    · next hended =>
      rw [Playthrough.select_of_ended hended]
      simp [Except.bind]
    · cases p.select s with
      | error e => simp [Except.bind]
      | ok q => exact ih

theorem runText_eq_ok_iff {source : String} {selections : List Selection} {o : Outcome} :
    runText source selections = .ok o ↔
      ∃ p, TestCase.playedText source selections = .ok p ∧ o = ⟨p.transcript, p.ended⟩ := by
  rw [runText, TestCase.playedText]
  cases Playthrough.startText source with
  | error e => simp [Except.bind]
  | ok p => exact applyAll_eq_ok_iff

/-- What a run of a script replies. -/
def replyTo (d : Files.Disk) (script : String) (selections : List Selection) : Reply :=
  .ofResult ((source d script).bind fun src => runText src.text selections)

theorem execute_run {args : List String} {script : String} {selections : List Selection}
    (h : command? args = some (.run script selections)) (d : Files.Disk) (input : List UInt8) :
    execute d args input = (replyTo d script selections).finish := by
  simp only [execute, h, Command.script, Command.finish, replyTo, Reply.finish_ofResult]
  cases source d script with
  | error e => rfl
  | ok src =>
    simp only [Except.bind]
    cases runText src.text selections <;> rfl

theorem replyTo_eq_report_iff {d : Files.Disk} {script : String} {selections : List Selection}
    {o : Outcome} : replyTo d script selections = .report o ↔
      ∃ src p, source d script = .ok src ∧ TestCase.playedText src.text selections = .ok p ∧
        o = ⟨p.transcript, p.ended⟩ := by
  rw [replyTo]
  cases hsource : source d script with
  | error e => simp [Except.bind, Reply.ofResult]
  | ok src =>
    have hreport : Reply.ofResult (runText src.text selections) = .report o ↔
        runText src.text selections = .ok o := by
      cases runText src.text selections <;> simp [Reply.ofResult]
    simp only [Except.bind, hreport, runText_eq_ok_iff, Except.ok.injEq, exists_and_left,
      exists_eq_left']

/-- One reader gets back every reply from what is printed, whatever texts it holds, and a run prints
a report or the three lines of an error. -/
theorem replies_uniquely_decodable :
    (∀ r : Reply, r.finish.lines = r.lines ∧ ∀ l ∈ r.finish.lines, Printable l) ∧
      (∀ text r, Reply.read? text = some r ↔ text = r.finish.output) ∧
      (∀ r s : Reply, r ≠ s → r.finish.output ≠ s.finish.output) ∧
      (∀ r : Reply, r.finish.lines.map heading = r.mute.finish.lines.map heading) ∧
      ∀ d args input script selections, command? args = some (.run script selections) →
        let printed := execute d args input
        (∃ o : Outcome, printed = (Reply.report o).finish ∧ printed.exit = 0 ∧
          printed.lines = o.lines ∧ ∃ src p, source d script = .ok src ∧
            TestCase.playedText src.text selections = .ok p ∧ o = ⟨p.transcript, p.ended⟩) ∨
        ∃ f : Failure, printed = (Reply.failure f).finish ∧ printed.exit = 1 ∧
          printed.lines = ["RESULT:ERROR", "ERROR_CODE:" ++ f.code,
            "ERROR_MSG_JSON:" ++ Json.textJson f.message] ∧
          (∀ l ∈ printed.lines, isEventLine l = false) ∧
          ∀ src p, source d script = .ok src → TestCase.playedText src.text selections ≠ .ok p := by
  refine ⟨?_, fun _ _ => Reply.read?_eq_some_iff, ?_, ?_, ?_⟩
  · intro r
    rw [r.lines_finish]
    exact ⟨rfl, r.printable_lines⟩
  · intro r s hne houtput
    exact hne (Reply.output_injective houtput)
  · intro r
    rw [r.lines_finish, r.mute.lines_finish]
    exact r.headings_lines
  · intro d args input script selections hcommand printed
    have hprinted : printed = (replyTo d script selections).finish :=
      execute_run hcommand d input
    cases hreply : replyTo d script selections with
    | report o =>
      rw [hreply] at hprinted
      refine .inl ⟨o, hprinted, ?_, ?_, replyTo_eq_report_iff.mp hreply⟩
      · rw [hprinted]
        rfl
      · rw [hprinted, Reply.lines_finish]
        rfl
    | failure f =>
      rw [hreply] at hprinted
      have hlines : printed.lines = f.lines := by
        rw [hprinted, Reply.lines_finish]
        rfl
      refine .inr ⟨f, hprinted, ?_, hlines, ?_, ?_⟩
      · rw [hprinted]
        rfl
      · rw [hlines]
        simp [Failure.lines, isEventLine, List.isPrefixOf]
      · intro src p hsource hplayed
        have hreport := replyTo_eq_report_iff.mpr ⟨src, p, hsource, hplayed, rfl⟩
        rw [hreply] at hreport
        cases hreport

/-- Texts that look like lines of a report are read back as texts, and a run with one selection too
many prints no event. -/
theorem forged_lines_read_back :
    let forged : Outcome :=
      ⟨[.line "EVENT:END" "\"\nSTATE:ENDED" ["\\", "OPTION:2|\"\""]], false⟩
    let args := runArguments "demo" [.main, .main]
    let printed := execute TestCase.helloDisk args []
    Reply.read? (Reply.report forged).finish.output = some (.report forged) ∧
      (Reply.report forged).finish.lines.map heading = ["RESULT:OK", "EVENT:LINE",
        "SPEAKER_JSON:", "TEXT_JSON:", "OPTION:0|", "OPTION:1|", "STATE:ACTIVE"] ∧
      command? args = some (.run "demo" [.main, .main]) ∧ printed.exit = 1 ∧
      ∀ l ∈ printed.lines, isEventLine l = false := by
  intro forged args printed
  obtain ⟨-, reads, -, headings, runs⟩ := replies_uniquely_decodable
  have hcommand : command? args = some (.run "demo" [.main, .main]) := command?_runArguments _ _
  have hexit : printed.exit = 1 := by decide +kernel
  refine ⟨(reads _ _).mpr rfl, ?_, hcommand, hexit, ?_⟩
  · rw [headings]
    decide +kernel
  · rcases runs TestCase.helloDisk args [] "demo" [.main, .main] hcommand with
      ⟨_, _, hzero, _⟩ | ⟨_, _, _, _, hevents, _⟩
    · exact absurd (hzero.symm.trans hexit) Nat.zero_ne_one
    · exact hevents

end CommandLine

end Dialogue
