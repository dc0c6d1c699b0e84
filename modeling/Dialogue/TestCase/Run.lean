import Dialogue.Playthrough
import Dialogue.TestCase.Basic

/-!
# Running test cases

A run spends one action on every line it comes to and passes if the script ends with the last
action.
-/
namespace Dialogue.TestCase

/-- What a run that passed has observed. -/
structure Report where
  observed : List Expectation
  consumed : Nat
  ended : Bool
  deriving DecidableEq, Repr

/-- Spends the actions, `used` of `total` being spent already. -/
def spend (total : Nat) : Nat → Playthrough → List Action → Except CaseError Report
  | used, p, [] =>
    match p.playback.index? with
    | some line => .error (.missingAction (p.transcript.length - 1) line)
    | none => .ok ⟨p.transcript.map .ofEntry, used, p.ended⟩
  | used, p, a :: rest =>
    match p.playback.index? with
    | none => .error (.unusedActions used total)
    | some _ =>
      match p.select a.selection with
      | .error e => .error (.engine e)
      | .ok q => spend total (used + 1) q rest

def runScript (s : Script) (actions : List Action) : Except CaseError Report :=
  match Playthrough.start s with
  | .error e => .error (.engine e)
  | .ok p => spend actions.length 0 p actions

/-- The path of the only script below a directory. -/
def findScript (d : Files.Disk) (directory : String) : Except CaseError String :=
  match d.findScript directory with
  | .error .none => .error (.noScript directory)
  | .error (.several count) => .error (.severalScripts directory count)
  | .ok path => .ok path

/-- The path and the text of the only script below a directory. -/
def readScript (d : Files.Disk) (directory : String) : Except CaseError (String × String) :=
  match findScript d directory with
  | .error e => .error e
  | .ok path =>
    match d.read path with
    | .error e => .error (.unreadable path e)
    | .ok source => .ok (path, source)

def run (d : Files.Disk) (directory : String) (c : TestCase) : Except CaseError Report :=
  match readScript d directory with
  | .error e => .error e
  | .ok (_, source) =>
    match Script.parse source with
    | .error f => .error (.engine (.parse f))
    | .ok s => runScript s c.actions

/-- The first place where two lists of one length differ. -/
def firstMismatch (i : Nat) : List Expectation → List Expectation → Option CaseError
  | x :: xs, y :: ys => if x = y then firstMismatch (i + 1) xs ys else some (.mismatch i x y)
  | _, _ => none

def compare (expected observed : List Expectation) : Except CaseError Unit :=
  if expected.length = observed.length then
    match firstMismatch 0 expected observed with
    | none => .ok ()
    | some e => .error e
  else .error (.countMismatch expected.length observed)

def readAndRun (d : Files.Disk) (directory casePath : String) : Except CaseError Report :=
  match read d casePath with
  | .error e => .error e
  | .ok c => run d directory c

/-- Runs a test case and compares what was observed with what it expects. -/
def check (d : Files.Disk) (directory casePath : String) : Except CaseError Unit :=
  match read d casePath with
  | .error e => .error e
  | .ok c =>
    match run d directory c with
    | .error e => .error e
    | .ok report => compare c.expected report.observed

theorem firstMismatch_eq_none_iff {i : Nat} {xs ys : List Expectation} (h : xs.length = ys.length) :
    firstMismatch i xs ys = none ↔ xs = ys := by
  induction xs generalizing i ys with
  | nil => simp [firstMismatch, (List.length_eq_zero_iff.mp h.symm)]
  | cons x xs ih =>
    cases ys with
    | nil => simp at h
    | cons y ys =>
      simp only [firstMismatch]
      split
      · rename_i hxy
        simp [hxy, ih (Nat.succ.inj h)]
      · simp_all

theorem compare_eq_ok_iff {expected observed : List Expectation} :
    compare expected observed = .ok () ↔ expected = observed := by
  unfold compare
  split
  · rename_i h
    rw [← @firstMismatch_eq_none_iff 0 _ _ h]
    split <;> simp_all
  · rename_i h
    simp only [reduceCtorEq, false_iff]
    rintro rfl
    exact h rfl

end Dialogue.TestCase
