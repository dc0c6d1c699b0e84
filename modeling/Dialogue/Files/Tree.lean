/-!
# Trees of files

A directory names its entries. Links are entries of their own and are never followed.
-/
namespace Dialogue.Files

inductive Tree where
  | file (content : List UInt8)
  | link
  | directory (entries : List (String × Tree))
  deriving Repr, Inhabited

namespace Tree

def isDirectory : Tree → Bool
  | .directory _ => true
  | _ => false

def setEntry (name : String) (t : Tree) : List (String × Tree) → List (String × Tree)
  | [] => [(name, t)]
  | (n, u) :: rest => if n = name then (name, t) :: rest else (n, u) :: setEntry name t rest

/-- Changes what stands at a path; missing directories on the way are created. -/
def alter (f : Option Tree → Tree) : List String → Option Tree → Tree
  | [], t => f t
  | name :: names, some (.directory entries) =>
    .directory (setEntry name (alter f names (entries.lookup name)) entries)
  | name :: names, _ => .directory [(name, alter f names none)]

def addFile (t : Tree) (path : List String) (content : List UInt8) : Tree :=
  alter (fun _ => .file content) path (some t)

def addDirectory (t : Tree) (path : List String) : Tree :=
  alter (·.getD (.directory [])) path (some t)

theorem lookup_setEntry_self (name : String) (t : Tree) (entries : List (String × Tree)) :
    (setEntry name t entries).lookup name = some t := by
  induction entries with
  | nil => simp [setEntry]
  | cons e rest ih =>
    simp only [setEntry]
    split
    · simp
    · rename_i h
      rw [List.lookup_cons, beq_eq_false_iff_ne.mpr (Ne.symm h)]
      exact ih

end Tree

end Dialogue.Files
