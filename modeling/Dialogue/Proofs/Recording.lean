import Dialogue.Proofs.Agreement
import Dialogue.Proofs.RoundTrip
import Dialogue.Proofs.Writing

/-!
# Recorded runs

What a run has observed can be recorded in a test case of its own. The recorded test case is read
back from its file and passes; with anything else in its place it fails by the first difference.
-/
namespace Dialogue.TestCase

open Json (Spells)

/-- How two lists of expectations differ: in their lengths, or first of all in two elements. -/
inductive Differ (expected observed : List Expectation) : CaseError → Prop
  | count (lengths : expected.length ≠ observed.length) :
      Differ expected observed (.countMismatch expected.length observed)
  | entry (lengths : expected.length = observed.length) {k : Nat} {x y : Expectation}
      (before : expected.take k = observed.take k) (wanted : expected[k]? = some x)
      (actual : observed[k]? = some y) (differ : x ≠ y) :
      Differ expected observed (.mismatch k x y)

theorem exists_of_firstMismatch {i : Nat} {xs ys : List Expectation} {e : CaseError}
    (h : firstMismatch i xs ys = some e) : ∃ k x y, e = .mismatch (i + k) x y ∧
      xs.take k = ys.take k ∧ xs[k]? = some x ∧ ys[k]? = some y ∧ x ≠ y := by
  induction xs generalizing i ys with
  | nil => cases h
  | cons x xs ih =>
    cases ys with
    | nil => cases h
    | cons y ys =>
      simp only [firstMismatch] at h
      split at h
      · next heq =>
        obtain ⟨k, x', y', rfl, hbefore, hx, hy, hne⟩ := ih h
        refine ⟨k + 1, x', y', ?_, ?_, hx, hy, hne⟩
        · rw [show i + 1 + k = i + (k + 1) by omega]
        · rw [List.take_succ_cons, List.take_succ_cons, heq, hbefore]
      · next hne =>
        obtain rfl := Option.some.inj h
        exact ⟨0, x, y, rfl, rfl, rfl, rfl, hne⟩

/-- Different lists are told apart, and the first difference is reported. -/
theorem exists_compare_eq_error {expected observed : List Expectation} (h : expected ≠ observed) :
    ∃ e, compare expected observed = .error e ∧ Differ expected observed e := by
  unfold compare
  split
  · next hlength =>
    cases hfirst : firstMismatch 0 expected observed with
    | none => exact absurd ((firstMismatch_eq_none_iff hlength).mp hfirst) h
    | some e =>
      obtain ⟨k, x, y, rfl, hbefore, hx, hy, hne⟩ := exists_of_firstMismatch hfirst
      rw [Nat.zero_add]
      exact ⟨_, rfl, .entry hlength hbefore hx hy hne⟩
  · next hlength => exact ⟨_, rfl, .count hlength⟩

theorem spells_encode (c : TestCase) : Spells c.toJson (format.encode c).toList := by
  have hchars : (format.encode c).toList = Json.compactChars c.toJson := String.toList_ofList
  rw [hchars]
  exact Json.spells_compactChars c.writable_toJson.exact

/-- A test case is read from any text that spells it. -/
theorem parse_of_spells_toJson {c : TestCase} {text : String}
    (h : Spells c.toJson text.toList) : parse text = .ok c :=
  Json.Format.decode_of_spells (f := format) (Json.Shape.follows_decoder shape_describes)
    (c.writable_toJson.mono (by decide)) c.read?_toJson h

/-- The disk `d'` after a test case has been written as JSON on the disk `d`: the directory stands for
the same script as before. -/
structure Written (c : TestCase) (d : Files.Disk) (directory path : String) (d' : Files.Disk) :
    Prop where
  content : ∃ text, Spells c.toJson text.toList ∧ d'.read path = .ok text
  script : readScript d' directory = readScript d directory

/-- A run looks at nothing of a test case but the actions. -/
theorem run_congr {d d' : Files.Disk} {directory : String} {c c' : TestCase}
    (script : readScript d' directory = readScript d directory) (actions : c'.actions = c.actions) :
    run d' directory c' = run d directory c := by
  rw [run, run, script, actions]

namespace Written

variable {c : TestCase} {d d' : Files.Disk} {directory path : String}

theorem read_eq (h : c.Written d directory path d') (known : c.schema = knownSchema) :
    read d' path = .ok c := by
  obtain ⟨text, spells, hread⟩ := h.content
  simp only [read, hread, parse_of_spells_toJson spells, known, if_true]

theorem check_eq (h : c.Written d directory path d') (known : c.schema = knownSchema) {r : Report}
    (passed : run d directory c = .ok r) :
    check d' directory path = compare c.expected r.observed := by
  have hrun : run d' directory c = .ok r := (run_congr h.script rfl).trans passed
  simp only [check, h.read_eq known, hrun]

end Written

theorem readScript_write {d : Files.Disk} {path directory : String} (free : d.Free path)
    (other : Files.isScriptName path = false) (text : String) {found : String × String}
    (h : readScript d directory = .ok found) :
    readScript (d.write path text) directory = .ok found := by
  unfold readScript findScript at h ⊢
  cases hfind : d.findScript directory with
  | error e => cases e <;> simp [hfind] at h
  | ok script =>
    cases hread : d.read script with
    | error e => simp [hfind, hread] at h
    | ok source =>
      obtain ⟨t, _, hmem⟩ := Files.Disk.exists_of_findScript hfind
      have hscript := Files.isScriptName_of_mem_scripts hmem
      simp only [Files.Disk.findScript_write free other text hfind,
        Files.Disk.read_write_of_script free other text hscript hread]
      simpa [hfind, hread] using h

/-- Writing a test case under a name that no script has is as good as any other way. -/
theorem written_write (c : TestCase) {d : Files.Disk} {path directory : String}
    (free : d.Free path) (other : Files.isScriptName path = false) {found : String × String}
    (h : readScript d directory = .ok found) :
    c.Written d directory path (d.write path (format.encode c)) where
  content := ⟨_, c.spells_encode, Files.Disk.read_write free _⟩
  script := (readScript_write free other _ h).trans h.symm

theorem exists_readScript_of_run {d : Files.Disk} {directory : String} {c : TestCase} {r : Report}
    (h : run d directory c = .ok r) : ∃ found, readScript d directory = .ok found := by
  cases hscript : readScript d directory with
  | error e => simp [run, hscript] at h
  | ok found => exact ⟨found, rfl⟩

/-- A run that has passed replays from a file with any spelling of its recording, and no other list of
expectations in the place of what was observed lets the check pass. -/
theorem recorded_run_replays {d : Files.Disk} {directory : String} {c : TestCase} {r : Report}
    (passed : run d directory c = .ok r) :
    let recording (es : List Expectation) : TestCase := ⟨knownSchema, c.actions, es⟩
    (∀ path d', (recording r.observed).Written d directory path d' →
        read d' path = .ok (recording r.observed) ∧ check d' directory path = .ok ()) ∧
      (∀ es path d', es ≠ r.observed → (recording es).Written d directory path d' →
        ∃ e, check d' directory path = .error e ∧ Differ es r.observed e) ∧
      ∀ es path, d.Free path → Files.isScriptName path = false →
        (recording es).Written d directory path
          (d.write path (format.encode (recording es))) := by
  intro recording
  have replays : ∀ es, run d directory (recording es) = .ok r :=
    fun es => (run_congr rfl rfl).trans passed
  refine ⟨?_, ?_, ?_⟩
  · intro path d' written
    refine ⟨written.read_eq rfl, ?_⟩
    rw [written.check_eq rfl (replays r.observed)]
    exact compare_eq_ok_iff.mpr rfl
  · intro es path d' hne written
    rw [written.check_eq rfl (replays es)]
    exact exists_compare_eq_error hne
  · intro es path free other
    obtain ⟨found, hscript⟩ := exists_readScript_of_run passed
    exact written_write (recording es) free other hscript

/-- A recording kept beside the script, in a directory that is still to be created. -/
theorem hello_recording_replays :
    let path := "/demo/cases/hello.json"
    let hello (text : String) : List Expectation := [.line "" text [], .cleared, .finished]
    let after (es : List Expectation) : Files.Disk :=
      helloDisk.write path (format.encode ⟨knownSchema, [.main], es⟩)
    run helloDisk "/demo" ⟨"draft", [.main], []⟩ = .ok ⟨hello "Hello.", 1, true⟩ ∧
      read (after (hello "Hello.")) path = .ok ⟨knownSchema, [.main], hello "Hello."⟩ ∧
      check (after (hello "Hello.")) "/demo" path = .ok () ∧
      check (after [.cleared]) "/demo" path = .error (.countMismatch 1 (hello "Hello.")) ∧
      check (after (hello "Hello!")) "/demo" path =
        .error (.mismatch 0 (.line "" "Hello!" []) (.line "" "Hello." [])) := by
  intro path hello after
  have passed : run helloDisk "/demo" ⟨"draft", [.main], []⟩ =
      .ok ⟨hello "Hello.", 1, true⟩ := by
    decide +kernel
  have place : Files.place path = ["demo", "cases", "hello.json"] := by decide +kernel
  have room : Files.Tree.Room ["demo", "cases", "hello.json"] (some helloDisk.root) :=
    ⟨_, rfl, _, rfl, trivial⟩
  have free : helloDisk.Free path :=
    ⟨by decide +kernel, by decide +kernel, by decide +kernel, place ▸ room⟩
  have other : Files.isScriptName path = false := by decide +kernel
  obtain ⟨replays, fails, writes⟩ := recorded_run_replays passed
  obtain ⟨hread, hcheck⟩ := replays path _ (writes (hello "Hello.") path free other)
  refine ⟨passed, hread, hcheck, ?_, ?_⟩
  · obtain ⟨e, he, hdiffer⟩ := fails [.cleared] path _ (by decide) (writes _ path free other)
    cases hdiffer with
    | count => exact he
    | entry lengths => cases lengths
  · obtain ⟨e, he, hdiffer⟩ := fails (hello "Hello!") path _ (by decide) (writes _ path free other)
    cases hdiffer with
    | count lengths => exact absurd rfl lengths
    | @entry _ k x y before wanted actual _ =>
      cases k with
      | zero =>
        obtain rfl := Option.some.inj wanted
        obtain rfl := Option.some.inj actual
        exact he
      | succ k =>
        have hfirst := congrArg List.head? before
        simp [hello] at hfirst

end Dialogue.TestCase
