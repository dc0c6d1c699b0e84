import Dialogue.CommandLine.Error

/-!
# The script a command is given

A path names a file, whatever its name, or a directory that stands for its only script. The title is
the name of the file without the suffix of scripts.
-/
namespace Dialogue.CommandLine
open Files

structure Source where
  path : String
  title : String
  text : String
  deriving DecidableEq, Repr

/-- Removes a word from the end as often as it stands there. -/
def dropSuffixes (word : List Char) (cs : List Char) : List Char :=
  if _ : word ≠ [] ∧ word.isSuffixOf cs ∧ 0 < cs.length then
    dropSuffixes word (cs.take (cs.length - word.length))
  else cs
termination_by cs.length
decreasing_by
  rename_i h
  have := List.length_pos_iff.mpr h.1
  simp only [List.length_take]
  omega

def titleOf (path : String) : String :=
  match fileName? path with
  | none => "conversation"
  | some name => String.ofList (dropSuffixes scriptSuffix.toList name.toList)

def locate (d : Disk) (raw : String) : Except CommandError String :=
  let path := d.absolute raw
  match d.resolve path with
  | .error _ => .error (.notFound path)
  | .ok t =>
    if t.isDirectory then
      match d.findScript path with
      | .ok found => .ok found
      | .error .none => .error (.noScript path)
      | .error (.several count) => .error (.severalScripts path count)
    else .ok path

def source (d : Disk) (raw : String) : Except CommandError Source :=
  match locate d raw with
  | .error e => .error e
  | .ok path =>
    match d.read path with
    | .error e => .error (.unreadable e)
    | .ok text => .ok ⟨path, titleOf path, text⟩

end Dialogue.CommandLine
