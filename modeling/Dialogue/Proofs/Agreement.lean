import Dialogue.Proofs.Conversions
import Dialogue.Proofs.FreshStart
import Dialogue.Proofs.Printout
import Dialogue.TestCase.Run

/-!
# Test cases and commands agree

A test case loads a script and spends its actions, line by line; a command loads the text and takes
its selections, one by one. Whatever becomes of the one becomes of the other.
-/
namespace Dialogue

theorem Turn.rename_entries (r : Renaming) (t : Turn) : (t.rename r).entries = t.entries := by
  simp only [Turn.entries, Turn.rename, List.map_map]
  exact List.map_congr_left fun m _ => Playback.rename_entry r m.seen m.event

namespace Playback

/-- A script that is loaded announces something, if only that there is no line. -/
theorem moments_ne_nil_of_load {p : Playback} {s : Script} (h : (p.load s).result = .ok ()) :
    (p.load s).moments ≠ [] := by
  unfold load at h ⊢
  split at h
  · cases h
  · simp only [arrive]
    cases Playback.line? _ 0 <;> simp [arrival]

theorem moments_ne_nil_of_loadText {p : Playback} {source : String}
    (h : (p.loadText source).result = .ok ()) : (p.loadText source).moments ≠ [] := by
  unfold loadText at h ⊢
  split at h
  · cases h
  · exact moments_ne_nil_of_load h

end Playback

namespace Playthrough

def rename (r : Renaming) (p : Playthrough) : Playthrough := ⟨p.playback.rename r, p.transcript⟩

theorem extend_rename (r : Renaming) (transcript : List Entry) (t : Turn) :
    extend transcript (t.rename r) = (extend transcript t).map (rename r) := by
  simp only [extend, Turn.rename_entries]
  cases h : t.result <;> simp [Turn.rename, h, Except.map, rename]

theorem select_rename (r : Renaming) (p : Playthrough) (s : Selection) :
    (p.rename r).select s = (p.select s).map (rename r) := by
  rw [select, select, ← extend_rename, ← Playback.select_rename]
  rfl

/-- Reading the text first makes no difference but for the epoch. -/
theorem startText_eq_map_start {source : String} {s : Script} (h : Script.parse source = .ok s) :
    startText source = (start s).map (rename ⟨id, 1, Function.injective_id⟩) := by
  have hload : (Playback.new 0).reset.load s =
      ((Playback.new 0).load s).rename ⟨id, 1, Function.injective_id⟩ := by
    rw [← Playback.load_rename]
    exact Playback.load_eq_of_stamp rfl s
  simp only [startText, start, Playback.loadText, h, hload, extend_rename]

theorem transcript_ne_nil_of_startText {source : String} {p : Playthrough}
    (h : startText source = .ok p) : p.transcript ≠ [] := by
  obtain ⟨hresult, rfl⟩ := extend_eq_ok h
  simpa [Turn.entries] using Playback.moments_ne_nil_of_loadText hresult

theorem transcript_ne_nil_of_select {p q : Playthrough} {s : Selection} (h : p.select s = .ok q)
    (hp : p.transcript ≠ []) : q.transcript ≠ [] := by
  intro hq
  have hprefix := prefix_of_select h
  rw [hq] at hprefix
  exact hp (List.prefix_nil.mp hprefix)

theorem ended_eq_isNone (p : Playthrough) : p.ended = p.playback.index?.isNone := by
  simp [ended, Playback.active]

/-- The playthrough after a list of selections, if all of them go through. -/
def selectAll (p : Playthrough) (xs : List Selection) : Except EngineError Playthrough :=
  xs.foldlM select p

theorem selectAll_cons (p : Playthrough) (a : Selection) (rest : List Selection) :
    p.selectAll (a :: rest) = (p.select a).bind (·.selectAll rest) := by
  rw [selectAll, List.foldlM_cons]
  rfl

theorem selectAll_append (p : Playthrough) (xs ys : List Selection) :
    p.selectAll (xs ++ ys) = (p.selectAll xs).bind (·.selectAll ys) := by
  rw [selectAll, List.foldlM_append]
  rfl

end Playthrough

namespace TestCase

open CommandLine (CommandError applyAll runText)

theorem spend_rename (r : Renaming) (total used : Nat) (p : Playthrough) (actions : List Action) :
    spend total used (p.rename r) actions = spend total used p actions := by
  induction actions generalizing used p with
  | nil => rfl
  | cons a rest ih =>
    simp only [spend, Playthrough.select_rename]
    cases h : p.select a.selection with
    | error e => rfl
    | ok q =>
      simp only [Except.map, ih]
      rfl

/-- How the result of a test case and that of a command go together, `used` selections having been
taken before the `actions` and the playthrough having come to `final` with the last of them. -/
inductive Agree (final : Except EngineError Playthrough) (used : Nat) (actions : List Action) :
    Except CaseError Report → Except CommandError CommandLine.Outcome → Prop
  | ended {q : Playthrough} (last : final = .ok q) (hidden : q.playback.index? = none) :
      Agree final used actions (.ok ⟨q.transcript.map .ofEntry, used + actions.length, true⟩)
        (.ok ⟨q.transcript, true⟩)
  | stopped {q : Playthrough} (last : final = .ok q) {line : Nat}
      (shown : q.playback.index? = some line) (recorded : q.transcript ≠ []) :
      Agree final used actions (.error (.missingAction (q.transcript.length - 1) line))
        (.ok ⟨q.transcript, false⟩)
  | left {n : Nat} {a : Action} (next : actions[n]? = some a) :
      Agree final used actions (.error (.unusedActions (used + n) (used + actions.length)))
        (.error (.afterEnd (used + n + 1) a.selection (actions.length - n)))
  | failed (e : EngineError) :
      Agree final used actions (.error (.engine e)) (.error (.engine e))

theorem Agree.cons {final : Except EngineError Playthrough} {used : Nat} {a : Action}
    {actions : List Action} {test : Except CaseError Report}
    {command : Except CommandError CommandLine.Outcome}
    (h : Agree final (used + 1) actions test command) :
    Agree final used (a :: actions) test command := by
  have hlength : used + 1 + actions.length = used + (a :: actions).length := by
    rw [List.length_cons]
    omega
  cases h with
  | ended last hidden =>
    rw [hlength]
    exact .ended last hidden
  | stopped last shown recorded => exact .stopped last shown recorded
  | @left n b next =>
    have hn : used + 1 + n = used + (n + 1) := by omega
    have hleft : actions.length - n = (a :: actions).length - (n + 1) := by simp
    rw [hlength, hn, hleft]
    exact .left next
  | failed e => exact .failed e

/-- The two loops: one looks at the line on show first, the other at the selections left. -/
theorem agree_spend {p : Playthrough} (hp : p.transcript ≠ []) (used : Nat)
    (actions : List Action) :
    Agree (p.selectAll (actions.map Action.selection)) used actions
      (spend (used + actions.length) used p actions)
      (applyAll used p (actions.map Action.selection)) := by
  induction actions generalizing p used with
  | nil =>
    cases hi : p.playback.index? with
    | none =>
      simp only [List.map_nil, spend, applyAll, Playthrough.ended_eq_isNone, hi]
      exact .ended rfl hi
    | some line =>
      simp only [List.map_nil, spend, applyAll, Playthrough.ended_eq_isNone, hi]
      exact .stopped rfl hi hp
  | cons a rest ih =>
    cases hi : p.playback.index? with
    | none =>
      simp only [spend, applyAll, Playthrough.ended_eq_isNone, hi, Option.isNone_none, if_true,
        List.map_cons]
      rw [List.length_map]
      exact .left (n := 0) rfl
    | some line =>
      simp only [spend, applyAll, Playthrough.ended_eq_isNone, hi, Option.isNone_some,
        Bool.false_eq_true, if_false, List.map_cons]
      cases hs : p.select a.selection with
      | error e => exact .failed e
      | ok q =>
        have hfinal : p.selectAll (a.selection :: rest.map Action.selection) =
            q.selectAll (rest.map Action.selection) := by
          rw [Playthrough.selectAll_cons, hs]
          rfl
        have hlength : used + (a :: rest).length = used + 1 + rest.length := by
          rw [List.length_cons]
          omega
        rw [hfinal, hlength]
        exact (ih (Playthrough.transcript_ne_nil_of_select hs hp) (used + 1)).cons

/-- The playthrough of a document after a list of selections, if all of them go through. -/
def playedText (source : String) (selections : List Selection) : Except EngineError Playthrough :=
  (Playthrough.startText source).bind (·.selectAll selections)

/-- A test case and a command that have found the same document go together. -/
theorem agree_run {d : Files.Disk} {directory path source : String}
    (found : readScript d directory = .ok (path, source)) (c : TestCase) :
    Agree (playedText source (c.actions.map Action.selection)) 0 c.actions (run d directory c)
      (runText source (c.actions.map Action.selection)) := by
  simp only [run, found, runText, playedText]
  cases hparse : Script.parse source with
  | error f =>
    have htext : Playthrough.startText source = .error (.parse f) := by
      simp [Playthrough.startText, Playback.loadText, hparse, Playthrough.extend, Except.map]
    simp only [htext]
    exact .failed _
  | ok s =>
    simp only [runScript, Playthrough.startText_eq_map_start hparse]
    cases hstart : Playthrough.start s with
    | error e => exact .failed e
    | ok p =>
      -- One has loaded the script, the other its text: only the stamps differ, which nobody reads.
      have htext := Playthrough.startText_eq_map_start hparse
      rw [hstart] at htext
      have hrecorded := Playthrough.transcript_ne_nil_of_startText htext
      have hagree := agree_spend hrecorded 0 c.actions
      rw [spend_rename, Nat.zero_add] at hagree
      exact hagree

end TestCase

/-- Whether an error tells how playing the script went, and not that there was nothing to play. -/
def CaseError.ofPlaying : CaseError → Bool
  | .engine _ | .missingAction _ _ | .unusedActions _ _ => true
  | _ => false

namespace TestCase.Agree

open CommandLine (CommandError Finish finishOf entryLines isEventLine)

variable {final : Except EngineError Playthrough} {actions : List Action}
  {test : Except CaseError Report} {command : Except CommandError CommandLine.Outcome}

theorem ok_iff (h : Agree final 0 actions test command) :
    (∃ r, test = .ok r) ↔ (finishOf command).Reports "STATE:ENDED" := by
  cases h with
  | ended => exact iff_of_true ⟨_, rfl⟩ (CommandLine.Outcome.reports_iff.mpr rfl)
  | stopped =>
    have hstate : CommandLine.stateLine false ≠ "STATE:ENDED" := by decide
    exact iff_of_false nofun fun hr => hstate (CommandLine.Outcome.reports_iff.mp hr)
  | left | failed => exact iff_of_false nofun (CommandError.not_reports _ _)

theorem observed_of_ok (h : Agree final 0 actions test command) {r : Report} (hr : test = .ok r) :
    (∃ es : List Entry, r.observed = es.map .ofEntry ∧ (finishOf command).blocks = es.map entryLines) ∧
      r.consumed = actions.length ∧ r.ended := by
  cases h with
  | @ended q =>
    obtain rfl := Except.ok.inj hr
    exact ⟨⟨q.transcript, rfl, CommandLine.Outcome.blocks_finish _⟩, Nat.zero_add _, rfl⟩
  | stopped | left | failed => cases hr

theorem missingAction_iff (h : Agree final 0 actions test command) (event line : Nat) :
    test = .error (.missingAction event line) ↔
      (finishOf command).Reports "STATE:ACTIVE" ∧
        (finishOf command).lines.countP isEventLine = event + 1 ∧
        ∃ q, final = .ok q ∧ q.playback.index? = some line := by
  cases h with
  | ended =>
    have hstate : CommandLine.stateLine true ≠ "STATE:ACTIVE" := by decide
    exact iff_of_false nofun fun hr => hstate (CommandLine.Outcome.reports_iff.mp hr.1)
  | @stopped q last _ shown recorded =>
    have hpos : 0 < q.transcript.length := List.length_pos_iff.mpr recorded
    have hcount : (finishOf (.ok ⟨q.transcript, false⟩)).lines.countP isEventLine =
        q.transcript.length := by
      rw [finishOf, CommandLine.Outcome.lines_finish, CommandLine.Outcome.countP_lines]
    rw [hcount]
    constructor
    · intro ht
      obtain ⟨rfl, rfl⟩ := CaseError.missingAction.inj (Except.error.inj ht)
      exact ⟨CommandLine.Outcome.reports_iff.mpr rfl, by omega, q, last, shown⟩
    · rintro ⟨_, hevent, p, hp, hline⟩
      obtain rfl : q = p := Except.ok.inj (last.symm.trans hp)
      obtain rfl := Option.some.inj (shown.symm.trans hline)
      rw [hevent]
      rfl
  | left | failed => exact iff_of_false nofun fun hr => CommandError.not_reports _ _ hr.1

theorem unusedActions_iff (h : Agree final 0 actions test command) (used total : Nat) :
    test = .error (.unusedActions used total) ↔
      total = actions.length ∧ ∃ a, actions[used]? = some a ∧
        finishOf command =
          (CommandError.afterEnd (used + 1) a.selection (total - used)).finish := by
  cases h with
  | ended | stopped =>
    exact iff_of_false nofun fun ⟨_, _, _, hr⟩ => CommandLine.Outcome.finish_ne_finish _ _ hr
  | @left n a next =>
    rw [finishOf]
    constructor
    · intro ht
      obtain ⟨rfl, rfl⟩ := CaseError.unusedActions.inj (Except.error.inj ht)
      simp only [Nat.zero_add, true_and]
      exact ⟨a, next, rfl⟩
    · rintro ⟨rfl, b, _, hr⟩
      have hnumber := CommandLine.number_of_afterEnd hr
      obtain rfl : n = used := by omega
      simp only [Nat.zero_add]
  | failed e =>
    exact iff_of_false nofun fun ⟨_, _, _, hr⟩ => CommandLine.afterEnd_finish_ne_engine hr.symm

theorem engine_iff (h : Agree final 0 actions test command) (e : EngineError) :
    (∃ f, test = .error (.engine f) ∧ f.code = e.code ∧ f.message = e.message) ↔
      finishOf command = (CommandError.engine e).finish := by
  cases h with
  | ended | stopped =>
    refine iff_of_false ?_ (CommandLine.Outcome.finish_ne_finish _ _)
    rintro ⟨_, hf, _⟩
    cases hf
  | left =>
    refine iff_of_false ?_ CommandLine.afterEnd_finish_ne_engine
    rintro ⟨_, hf, _⟩
    cases hf
  | failed f =>
    rw [finishOf, CommandError.finish_eq_iff]
    constructor
    · rintro ⟨g, hg, hcode, hmessage⟩
      obtain rfl := CaseError.engine.inj (Except.error.inj hg)
      exact ⟨hcode, hmessage⟩
    · rintro ⟨hcode, hmessage⟩
      exact ⟨f, rfl, hcode, hmessage⟩

theorem ofPlaying_of_error (h : Agree final 0 actions test command) {e : CaseError}
    (he : test = .error e) : e.ofPlaying := by
  cases h with
  | ended => cases he
  | stopped | left | failed =>
    obtain rfl := Except.error.inj he
    rfl

end TestCase.Agree

namespace Files.Disk

/-- A directory below which there is one script only, and the text of the script. -/
structure OnlyScript (d : Disk) (directory path text : String) : Prop where
  found : ∃ entries, d.resolve directory = .ok (.directory entries) ∧
    scripts directory (.directory entries) = [path]
  content : d.read path = .ok text

theorem findScript_of_only {d : Disk} {directory path text : String}
    (h : d.OnlyScript directory path text) : d.findScript directory = .ok path := by
  obtain ⟨entries, there, only⟩ := h.found
  simp only [findScript, there, only, theOnly]

end Files.Disk

namespace CommandLine

theorem source_of_only {d : Files.Disk} {raw path text : String}
    (h : d.OnlyScript (d.absolute raw) path text) :
    source d raw = .ok ⟨path, titleOf path, text⟩ := by
  obtain ⟨entries, there, _⟩ := h.found
  have found : locate d raw = .ok path := by
    unfold locate
    simp only [there, Files.Tree.isDirectory, if_true, Files.Disk.findScript_of_only h]
  unfold source
  simp only [found, h.content]

theorem execute_runArguments {d : Files.Disk} {raw path text : String}
    (h : d.OnlyScript (d.absolute raw) path text) (selections : List Selection)
    (input : List UInt8) :
    execute d (runArguments raw selections) input = finishOf (runText text selections) := by
  simp only [execute, command?_runArguments, Command.script, source_of_only h, Command.finish]
  cases runText text selections <;> rfl

end CommandLine

namespace TestCase

open CommandLine (CommandError execute runArguments entryLines isEventLine)

theorem readScript_of_only {d : Files.Disk} {directory path text : String}
    (h : d.OnlyScript directory path text) : readScript d directory = .ok (path, text) := by
  simp only [readScript, findScript, Files.Disk.findScript_of_only h, h.content]

/-- A test case for the only script of a directory, and a command that is given the script and the
same selections, come to the same, with all the numbers that they tell. -/
theorem run_agrees_with_command {d : Files.Disk} {directory path text : String}
    (only : d.OnlyScript (d.absolute directory) path text) (c : TestCase) (input : List UInt8) :
    let selections := c.actions.map Action.selection
    let test := run d (d.absolute directory) c
    let printed := execute d (runArguments directory selections) input
    ((∃ r, test = .ok r) ↔ printed.Reports "STATE:ENDED") ∧
      (∀ r, test = .ok r → r.ended ∧ r.consumed = selections.length ∧
        ∀ es : List Entry, printed.blocks = es.map entryLines ↔ es.map .ofEntry = r.observed) ∧
      (∀ event line, test = .error (.missingAction event line) ↔
        printed.Reports "STATE:ACTIVE" ∧ printed.lines.countP isEventLine = event + 1 ∧
          ∃ q, playedText text selections = .ok q ∧ q.playback.index? = some line) ∧
      (∀ used total, test = .error (.unusedActions used total) ↔
        total = selections.length ∧ ∃ s, selections[used]? = some s ∧
          printed = (CommandError.afterEnd (used + 1) s (total - used)).finish) ∧
      (∀ e, (∃ f, test = .error (.engine f) ∧ f.code = e.code ∧ f.message = e.message) ↔
        printed = (CommandError.engine e).finish) ∧
      ∀ e, test = .error e → e.ofPlaying := by
  intro selections test printed
  have hagree := agree_run (readScript_of_only only) c
  have hprinted := CommandLine.execute_runArguments only selections input
  have hlength : selections.length = c.actions.length := List.length_map _
  simp only [printed, hprinted, hlength]
  refine ⟨hagree.ok_iff, ?_, hagree.missingAction_iff, ?_, hagree.engine_iff,
    fun _ => hagree.ofPlaying_of_error⟩
  · intro r hr
    obtain ⟨⟨fs, hobserved, hblocks⟩, hconsumed, hended⟩ := hagree.observed_of_ok hr
    refine ⟨hended, hconsumed, fun es => ?_⟩
    rw [hblocks, hobserved, List.map_inj_right fun _ _ => Expectation.ofEntry_injective.eq_iff.mp,
      eq_comm]
    exact List.map_inj_right fun _ _ => CommandLine.entryLines_injective
  · intro used total
    simp only [selections, List.getElem?_map, Option.map_eq_some_iff, exists_exists_and_eq_and]
    exact hagree.unusedActions_iff used total

def helloText : String := "\x7b\"lines\":[\x7b\"text\":\"Hello.\"\x7d]\x7d"

def helloDisk : Files.Disk :=
  ⟨.directory [("demo", .directory
    [("hello.conversation.json", .file helloText.toUTF8.data.toList)])], "/"⟩

def helloPath : String := "/demo/hello.conversation.json"

theorem helloDisk_onlyScript :
    helloDisk.OnlyScript (helloDisk.absolute "demo") helloPath helloText where
  found := ⟨_, by rfl, by rfl⟩
  content := by
    have hfile : helloDisk.resolve helloPath = .ok (.file helloText.toUTF8.data.toList) := by rfl
    simp only [Files.Disk.read, hfile, Files.decode_toUTF8]

/-- A directory with one short script: one action is just enough, none is too few, two are too
many. -/
theorem hello_run_agrees :
    let test (actions : List Action) :=
      run helloDisk (helloDisk.absolute "demo") { schema := knownSchema, actions }
    let printed (selections : List Selection) :=
      execute helloDisk (runArguments "demo" selections) []
    helloDisk.OnlyScript (helloDisk.absolute "demo") helloPath helloText ∧
      test [.main] = .ok ⟨[.line "" "Hello." [], .cleared, .finished], 1, true⟩ ∧
      (printed [.main]).Reports "STATE:ENDED" ∧
      test [] = .error (.missingAction 0 0) ∧ (printed []).Reports "STATE:ACTIVE" ∧
      test [.main, .main] = .error (.unusedActions 1 2) ∧
      printed [.main, .main] = (CommandError.afterEnd 2 .main 1).finish := by
  intro test printed
  have agrees := fun actions =>
    run_agrees_with_command helloDisk_onlyScript { schema := knownSchema, actions } []
  have passed : test [.main] = .ok ⟨[.line "" "Hello." [], .cleared, .finished], 1, true⟩ := by
    decide +kernel
  have missing : test [] = .error (.missingAction 0 0) := by decide +kernel
  have unused : test [.main, .main] = .error (.unusedActions 1 2) := by decide +kernel
  obtain ⟨_, s, hs, hprinted⟩ := ((agrees [.main, .main]).2.2.2.1 1 2).mp unused
  obtain rfl : Selection.main = s := Option.some.inj hs
  exact ⟨helloDisk_onlyScript, passed, (agrees [.main]).1.mp ⟨_, passed⟩, missing,
    (((agrees []).2.2.1 0 0).mp missing).1, unused, hprinted⟩

end TestCase

end Dialogue
