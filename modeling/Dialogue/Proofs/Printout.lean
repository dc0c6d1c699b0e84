import Mathlib.Data.List.SplitBy
import Dialogue.CommandLine.Execute
import Dialogue.Proofs.Spelling

/-!
# Reports in print

No text of a script breaks a line of a report, so the printed lines are the lines of the report. The
blocks of lines that start with an event are those of the entries, and what an error prints tells
its code and its sentence.
-/
namespace Dialogue.CommandLine

/-- The printed lines, each of which is ended by a line feed. -/
def Finish.lines (f : Finish) : List String :=
  (f.output.toList.splitOn '\n').dropLast.map String.ofList

/-- Whether an entry starts on a line. -/
def isEventLine (line : String) : Bool := "EVENT:".toList.isPrefixOf line.toList

/-- The lines between the first and the last, cut before every event. -/
def Finish.blocks (f : Finish) : List (List String) :=
  f.lines.tail.dropLast.splitBy fun _ next => !isEventLine next

/-- Whether a command reports that all went well, and the state it says it has come to. -/
def Finish.Reports (f : Finish) (state : String) : Prop :=
  f.lines.head? = some "RESULT:OK" ∧ f.lines.getLast? = some state

def Outcome.finish (o : Outcome) : Finish := ⟨unlines o.lines, 0⟩

/-- What a command prints in either case. -/
def finishOf : Except CommandError Outcome → Finish
  | .ok o => o.finish
  | .error e => e.finish

/-- Every line is ended by a line feed, so the last of them has nothing behind it. -/
theorem toList_unlines (ls : List String) :
    (unlines ls).toList = ['\n'].intercalate (ls.map String.toList ++ [[]]) := by
  induction ls with
  | nil => rfl
  | cons l ls ih =>
    have hcons : (unlines (l :: ls)).toList = l.toList ++ '\n' :: (unlines ls).toList := by
      simp [unlines]
    rw [hcons, ih, List.map_cons, List.cons_append,
      List.intercalate_cons_of_ne_nil (List.append_ne_nil_of_right_ne_nil _ (List.cons_ne_nil _ _))]
    simp

theorem splitOn_unlines {ls : List String} (h : ∀ l ∈ ls, '\n' ∉ l.toList) :
    (unlines ls).toList.splitOn '\n' = ls.map String.toList ++ [[]] := by
  rw [toList_unlines]
  apply List.splitOn_intercalate
  · refine List.forall_mem_append.mpr ⟨List.forall_mem_map.mpr h, ?_⟩
    exact List.forall_mem_singleton.mpr List.not_mem_nil
  · exact List.append_ne_nil_of_right_ne_nil _ (List.cons_ne_nil _ _)

theorem lines_unlines {ls : List String} (h : ∀ l ∈ ls, '\n' ∉ l.toList) (n : Nat) :
    (⟨unlines ls, n⟩ : Finish).lines = ls := by
  rw [Finish.lines, splitOn_unlines h, List.dropLast_concat, List.map_map]
  simp [Function.comp_def]

/-- A line without control characters. -/
def Printable (line : String) : Prop := ∀ c ∈ line.toList, 0x20 ≤ c.toNat

instance (line : String) : Decidable (Printable line) :=
  List.decidableBAll (fun c : Char => 0x20 ≤ c.toNat) line.toList

theorem Printable.append {s t : String} (hs : Printable s) (ht : Printable t) :
    Printable (s ++ t) := by
  intro c hc
  rw [String.toList_append] at hc
  rcases List.mem_append.mp hc with hc | hc
  · exact hs c hc
  · exact ht c hc

theorem Printable.newline_notMem {line : String} (h : Printable line) : '\n' ∉ line.toList :=
  fun hmem => absurd (h '\n' hmem) (by decide)

theorem printable_textJson (s : String) : Printable (Json.textJson s) := by
  intro c hc
  exact Json.textChars_printable s c (by simpa [Json.textJson] using hc)

theorem printable_toString (n : Nat) : Printable (toString n) := by
  intro c hc
  have hdigit : c.isDigit := Text.isDigit_of_mem_toDigits (n := n) (by simpa using hc)
  simp only [Char.isDigit, Bool.and_eq_true, decide_eq_true_eq] at hdigit
  have hlower : 48 ≤ c.toNat := hdigit.1
  omega

theorem printable_choiceLine (k : Nat) (text : String) : Printable (choiceLine k text) := by
  have hword : Printable "OPTION:" := by decide
  have hbar : Printable "|" := by decide
  exact ((hword.append (printable_toString k)).append hbar).append (printable_textJson text)

theorem printable_entryLines (e : Entry) : ∀ l ∈ entryLines e, Printable l := by
  have hfact : ∀ {word : String}, Printable word → ∀ s, Printable (word ++ Json.textJson s) :=
    fun hword s => hword.append (printable_textJson s)
  cases e with
  | line speaker text choices =>
    simp only [entryLines, List.forall_mem_append, List.forall_mem_cons, List.not_mem_nil,
      false_imp_iff, implies_true, and_true]
    refine ⟨⟨by decide, hfact (by decide) speaker, hfact (by decide) text⟩, ?_⟩
    intro l hl
    obtain ⟨k, _, rfl⟩ := List.mem_mapIdx.mp hl
    exact printable_choiceLine k _
  | cleared | finished => exact List.forall_mem_singleton.mpr (by decide)
  | message text =>
    exact List.forall_mem_cons.mpr ⟨by decide, List.forall_mem_singleton.mpr (hfact (by decide) text)⟩

/-- The codes that errors are known by. -/
def errorCodes : List String :=
  ["CLI_SOURCE_PATH", "CLI_SOURCE_NOT_FOUND", "CLI_SOURCE_EMPTY", "CLI_SOURCE_AMBIGUOUS",
    "CLI_SOURCE_READ", "CLI_SELECTION_AFTER_END", "PLAY_IO", "ENGINE_PARSE",
    "ENGINE_DUPLICATE_LABEL", "ENGINE_UNRESOLVED_JUMP", "ENGINE_INVALID_CURSOR",
    "ENGINE_NOT_ACTIVE", "ENGINE_OPTION_INDEX"]

theorem CommandError.code_mem (e : CommandError) : e.code ∈ errorCodes := by
  cases e with
  | engine cause => cases cause <;> simp [code, EngineError.code, errorCodes]
  | _ => simp [code, errorCodes]

theorem printable_of_mem_errorCodes : ∀ code ∈ errorCodes, Printable code := by decide

theorem Outcome.printable_lines (o : Outcome) : ∀ l ∈ o.lines, Printable l := by
  intro l hl
  rcases List.mem_cons.mp hl with rfl | hl
  · decide
  rcases List.mem_append.mp hl with hl | hl
  · obtain ⟨e, _, he⟩ := List.mem_flatMap.mp hl
    exact printable_entryLines e l he
  · rw [List.mem_singleton.mp hl]
    cases o.ended <;> decide

/-- What an error tells: one of the codes, and a sentence. -/
structure Failure where
  code : String
  message : String
  known : code ∈ errorCodes
  deriving DecidableEq

def Failure.lines (f : Failure) : List String :=
  ["RESULT:ERROR", "ERROR_CODE:" ++ f.code, "ERROR_MSG_JSON:" ++ Json.textJson f.message]

theorem Failure.printable_lines (f : Failure) : ∀ l ∈ f.lines, Printable l := by
  have hcode : Printable "ERROR_CODE:" := by decide
  have hmessage : Printable "ERROR_MSG_JSON:" := by decide
  exact List.forall_mem_cons.mpr ⟨by decide, List.forall_mem_cons.mpr
    ⟨hcode.append (printable_of_mem_errorCodes f.code f.known),
      List.forall_mem_singleton.mpr (hmessage.append (printable_textJson f.message))⟩⟩

def CommandError.failure (e : CommandError) : Failure := ⟨e.code, e.message, e.code_mem⟩

theorem Outcome.lines_finish (o : Outcome) : o.finish.lines = o.lines :=
  lines_unlines (fun l hl => (o.printable_lines l hl).newline_notMem) 0

theorem CommandError.lines_finish (e : CommandError) : e.finish.lines = e.lines :=
  lines_unlines (fun l hl => (e.failure.printable_lines l hl).newline_notMem) 1

theorem Outcome.reports_iff {o : Outcome} {state : String} :
    o.finish.Reports state ↔ stateLine o.ended = state := by
  have hhead : o.lines.head? = some "RESULT:OK" := rfl
  have hlast : o.lines.getLast? = some (stateLine o.ended) := List.getLast?_concat
  simp [Finish.Reports, Outcome.lines_finish, hhead, hlast]

theorem CommandError.not_reports (e : CommandError) (state : String) :
    ¬ e.finish.Reports state := by
  simp [Finish.Reports, CommandError.lines_finish, CommandError.lines]

theorem Outcome.finish_ne_finish (o : Outcome) (e : CommandError) : o.finish ≠ e.finish :=
  fun h => absurd (congrArg Finish.exit h) Nat.zero_ne_one

/-- What an error prints tells its code and its sentence. -/
theorem CommandError.finish_eq_iff {e f : CommandError} :
    e.finish = f.finish ↔ e.code = f.code ∧ e.message = f.message := by
  constructor
  · intro h
    have hlines := congrArg Finish.lines h
    rw [CommandError.lines_finish, CommandError.lines_finish] at hlines
    simp only [CommandError.lines, List.cons.injEq, true_and, and_true, String.append_right_inj]
      at hlines
    exact ⟨hlines.1, Json.textJson_injective hlines.2⟩
  · rintro ⟨hcode, hmessage⟩
    simp only [CommandError.finish, CommandError.lines, hcode, hmessage]

theorem toList_afterEnd_message (n u : Nat) (s : Selection) :
    ∃ rest, (CommandError.afterEnd n s u).message.toList =
      "Selection #".toList ++ (Nat.toDigits 10 n ++ ' ' :: rest) := by
  have hmessage : (CommandError.afterEnd n s u).message =
      "Selection #" ++ toString n ++ " (\"" ++ s.render ++
        "\") given after the conversation ended; " ++ toString u ++ " left unused." := rfl
  simp [hmessage]

theorem number_of_afterEnd {m n u v : Nat} {s t : Selection}
    (h : (CommandError.afterEnd m s u).finish = (CommandError.afterEnd n t v).finish) : m = n := by
  obtain ⟨xs, hm⟩ := toList_afterEnd_message m u s
  obtain ⟨ys, hn⟩ := toList_afterEnd_message n v t
  rw [(CommandError.finish_eq_iff.mp h).2, hn] at hm
  exact (Text.eq_of_toDigits_space (List.append_cancel_left hm)).symm

theorem afterEnd_finish_ne_engine {n u : Nat} {s : Selection} {e : EngineError} :
    (CommandError.afterEnd n s u).finish ≠ (CommandError.engine e).finish := by
  intro h
  have hcode := (CommandError.finish_eq_iff.mp h).1
  cases e <;> simp [CommandError.code, EngineError.code] at hcode

/-- An entry is printed as a block of lines of which the first one alone starts an entry. -/
theorem entryLines_eq_cons (e : Entry) :
    ∃ first rest, entryLines e = first :: rest ∧ isEventLine first ∧
      ∀ l ∈ rest, isEventLine l = false := by
  cases e with
  | line speaker text choices =>
    refine ⟨_, _, rfl, by decide, ?_⟩
    refine List.forall_mem_append.mpr ⟨by simp [isEventLine, List.isPrefixOf], ?_⟩
    intro l hl
    obtain ⟨k, _, rfl⟩ := List.mem_mapIdx.mp hl
    simp [choiceLine, isEventLine, List.isPrefixOf]
  | cleared => exact ⟨_, _, rfl, by decide, by simp⟩
  | finished => exact ⟨_, _, rfl, by decide, by simp⟩
  | message text => exact ⟨_, _, rfl, by decide, by simp [isEventLine, List.isPrefixOf]⟩

theorem entryLines_ne_nil (e : Entry) : entryLines e ≠ [] := by
  obtain ⟨_, _, he, _⟩ := entryLines_eq_cons e
  simp [he]

theorem countP_entryLines (e : Entry) : (entryLines e).countP isEventLine = 1 := by
  obtain ⟨first, rest, he, hfirst, hrest⟩ := entryLines_eq_cons e
  have hnone : rest.countP isEventLine = 0 :=
    List.countP_eq_zero.mpr fun l hl => by simp [hrest l hl]
  rw [he, List.countP_cons_of_pos hfirst, hnone]

theorem isChain_entryLines (e : Entry) :
    (entryLines e).IsChain fun _ next => (!isEventLine next) = true := by
  obtain ⟨first, rest, he, _, hrest⟩ := entryLines_eq_cons e
  have hpairwise : (first :: rest).Pairwise fun _ next => (!isEventLine next) = true := by
    refine List.pairwise_cons.mpr ⟨fun l hl => by simp [hrest l hl], ?_⟩
    exact List.pairwise_of_forall_mem_list fun _ _ l hl => by simp [hrest l hl]
  rw [he]
  exact hpairwise.isChain

theorem mapIdx_choiceLine_injective {xs ys : List String}
    (h : xs.mapIdx choiceLine = ys.mapIdx choiceLine) : xs = ys := by
  have hlength : xs.length = ys.length := by simpa using congrArg List.length h
  refine List.ext_getElem hlength fun k hx hy => ?_
  have hk : choiceLine k xs[k] = choiceLine k ys[k] := by
    simpa [hx, hy] using congrArg (·[k]?) h
  exact Json.textJson_injective (by simpa [choiceLine, String.append_right_inj] using hk)

/-- No two entries are printed alike. -/
theorem entryLines_injective {e f : Entry} (h : entryLines e = entryLines f) : e = f := by
  cases e with
  | line speaker text choices =>
    cases f with
    | line speaker' text' choices' =>
      simp only [entryLines, List.cons_append, List.nil_append, List.cons.injEq, true_and,
        String.append_right_inj] at h
      obtain ⟨hspeaker, htext, hchoices⟩ := h
      rw [Json.textJson_injective hspeaker, Json.textJson_injective htext,
        mapIdx_choiceLine_injective hchoices]
    | _ => simp [entryLines] at h
  | cleared => cases f <;> simp [entryLines] at h ⊢
  | finished => cases f <;> simp [entryLines] at h ⊢
  | message text =>
    cases f with
    | message text' =>
      simp only [entryLines, List.cons.injEq, true_and, and_true, String.append_right_inj] at h
      rw [Json.textJson_injective h]
    | _ => simp [entryLines] at h

theorem splitBy_entryLines (es : List Entry) :
    (es.flatMap entryLines).splitBy (fun _ next => !isEventLine next) = es.map entryLines := by
  rw [List.flatMap_def]
  refine List.splitBy_flatten ?_ ?_ ?_
  · intro h
    obtain ⟨e, _, he⟩ := List.mem_map.mp h
    exact entryLines_ne_nil e he
  · intro block hblock
    obtain ⟨e, _, rfl⟩ := List.mem_map.mp hblock
    exact isChain_entryLines e
  · refine (List.isChain_map entryLines).mpr (List.pairwise_of_forall_mem_list ?_).isChain
    intro e _ f _
    obtain ⟨first, rest, hf, hfirst, _⟩ := entryLines_eq_cons f
    exact ⟨entryLines_ne_nil e, entryLines_ne_nil f, by simp [hf, hfirst]⟩

theorem Outcome.blocks_finish (o : Outcome) : o.finish.blocks = o.entries.map entryLines := by
  rw [Finish.blocks, Outcome.lines_finish]
  simp only [Outcome.lines, List.cons_append, List.tail_cons, List.dropLast_concat]
  exact splitBy_entryLines o.entries

theorem Outcome.countP_lines (o : Outcome) : o.lines.countP isEventLine = o.entries.length := by
  have hstate : isEventLine (stateLine o.ended) = false := by cases o.ended <;> decide
  have hok : isEventLine "RESULT:OK" = false := by decide
  simp only [Outcome.lines, List.cons_append, List.countP_cons, List.countP_append, hstate, hok]
  simp [List.countP_flatMap, Function.comp_def, countP_entryLines]

end Dialogue.CommandLine
