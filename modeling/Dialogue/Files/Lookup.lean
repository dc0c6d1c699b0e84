import Dialogue.Files.Path

/-!
# Finding the script of a directory

A script is a regular file whose name has the suffix of scripts. A directory stands for its script
if there is exactly one at any depth.
-/
namespace Dialogue.Files

def scriptSuffix : String := ".conversation.json"

def isScriptName (name : String) : Bool := scriptSuffix.toList.isSuffixOf name.toList

/-- Why a directory does not stand for a script. -/
inductive LookupError where
  | none
  | several (count : Nat)
  deriving DecidableEq, Repr

mutual

/-- The paths of all scripts in a tree that stands at `path`. A directory is not opened if its path
is too long. -/
def scripts (path : String) : Tree → List String
  | .file _ => if isScriptName path then [path] else []
  | .link => []
  | .directory entries => if (pathFault? path).isSome then [] else scriptsIn path entries
termination_by structural t => t

def scriptsIn (path : String) : List (String × Tree) → List String
  | [] => []
  | (name, t) :: rest => scripts (join path name) t ++ scriptsIn path rest
termination_by structural entries => entries

end

def theOnly : List String → Except LookupError String
  | [] => .error .none
  | [path] => .ok path
  | paths => .error (.several paths.length)

/-- The script at or below a path; a path that leads nowhere has none below it. -/
def Disk.findScript (d : Disk) (path : String) : Except LookupError String :=
  match d.resolve path with
  | .error _ => .error .none
  | .ok t => theOnly (scripts path t)

theorem theOnly_eq_ok_iff {paths : List String} {p : String} :
    theOnly paths = .ok p ↔ paths = [p] := by
  unfold theOnly
  split <;> simp_all

theorem theOnly_eq_none_iff {paths : List String} : theOnly paths = .error .none ↔ paths = [] := by
  unfold theOnly
  split <;> simp_all

theorem theOnly_eq_several_iff {paths : List String} {n : Nat} :
    theOnly paths = .error (.several n) ↔ paths.length = n ∧ 2 ≤ n := by
  match paths with
  | [] => simp only [theOnly, List.length_nil, Except.error.injEq, reduceCtorEq, false_iff]; omega
  | [p] => simp [theOnly]; omega
  | p :: q :: rest =>
    simp only [theOnly, List.length_cons, Except.error.injEq, LookupError.several.injEq]
    omega

end Dialogue.Files
