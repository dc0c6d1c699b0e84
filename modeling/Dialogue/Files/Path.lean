import Dialogue.Files.Tree

/-!
# Paths

A path is a text with slashes between its components. It is resolved component by component from the
root: every component but the last must be a directory, an empty component and a dot stay where they
are, and two dots go up. Paths and names of entries have a greatest size in bytes.
-/
namespace Dialogue.Files

/-- The pieces between the elements equal to `sep`. -/
def pieces {α : Type} [DecidableEq α] (sep : α) : List α → List (List α)
  | [] => [[]]
  | x :: xs =>
    if x = sep then [] :: pieces sep xs
    else match pieces sep xs with
      | [] => [[x]]
      | p :: ps => (x :: p) :: ps

def components (path : String) : List String := (pieces '/' path.toList).map String.ofList

def isAbsolute (path : String) : Bool := path.toList.head? = some '/'

/-- The path of `name` in the directory `base`; an absolute one stands for itself. -/
def join (base name : String) : String :=
  if isAbsolute name then name
  else if base.toList.getLast? = some '/' then base ++ name
  else base ++ "/" ++ name

/-- The last component, unless the path has none or ends by going up. -/
def fileName? (path : String) : Option String :=
  match ((components path).filter fun c => c ≠ "" ∧ c ≠ ".").getLast? with
  | none => none
  | some name => if name = ".." then none else some name

/-- Why nothing could be read. -/
inductive ReadError where
  | zeroInPath
  | tooLong
  | notFound
  | notDirectory
  | isDirectory
  | notText
  deriving DecidableEq, Repr

def ReadError.message : ReadError → String
  | .zeroInPath => "file name contained an unexpected NUL byte"
  | .tooLong => "File name too long (os error 36)"
  | .notFound => "No such file or directory (os error 2)"
  | .notDirectory => "Not a directory (os error 20)"
  | .isDirectory => "Is a directory (os error 21)"
  | .notText => "stream did not contain valid UTF-8"

/-- The greatest size of the name of an entry. -/
def maxNameSize : Nat := 255

/-- The greatest size of a path. -/
def maxPathSize : Nat := 4095

/-- What is wrong with a path wherever it leads. -/
def pathFault? (path : String) : Option ReadError :=
  if '\x00' ∈ path.toList then some .zeroInPath
  else if maxPathSize < path.utf8ByteSize then some .tooLong
  else none

/-- Resolves components from `here`, the directories above it being `above`. -/
def walk (here : Tree) (above : List Tree) : List String → Except ReadError Tree
  | [] => .ok here
  | name :: names =>
    match here with
    | .directory entries =>
      if name = "" ∨ name = "." then walk here above names
      else if name = ".." then
        match above with
        | [] => walk here [] names
        | up :: rest => walk up rest names
      else if maxNameSize < name.utf8ByteSize then .error .tooLong
      else
        match entries.lookup name with
        | none => .error .notFound
        | some t => walk t (here :: above) names
    | _ => .error .notDirectory

/-- All files of a machine, and the directory that relative paths start from. -/
structure Disk where
  root : Tree
  home : String

namespace Disk

def resolve (d : Disk) (path : String) : Except ReadError Tree :=
  match pathFault? path with
  | some e => .error e
  | none => walk d.root [] (components path)

def absolute (d : Disk) (path : String) : String := join d.home path

/-- The bytes of a text in UTF-8. -/
def decode (bytes : List UInt8) : Except ReadError String :=
  match String.fromUTF8? ⟨bytes.toArray⟩ with
  | some s => .ok s
  | none => .error .notText

def read (d : Disk) (path : String) : Except ReadError String :=
  match d.resolve path with
  | .error e => .error e
  | .ok (.file content) => decode content
  | .ok (.directory _) => .error .isDirectory
  | .ok .link => .error .notFound

end Disk

theorem pieces_ne_nil {α : Type} [DecidableEq α] (sep : α) (xs : List α) : pieces sep xs ≠ [] := by
  cases xs with
  | nil => simp [pieces]
  | cons x xs =>
    unfold pieces
    split
    · simp
    · split <;> simp

theorem pieces_of_not_mem {α : Type} [DecidableEq α] {sep : α} {xs : List α} (h : sep ∉ xs) :
    pieces sep xs = [xs] := by
  induction xs with
  | nil => rfl
  | cons x xs ih =>
    simp only [List.mem_cons, not_or] at h
    simp [pieces, Ne.symm h.1, ih h.2]

theorem decode_toUTF8 (s : String) : Disk.decode s.toUTF8.data.toList = .ok s := by
  have h : String.fromUTF8? s.toByteArray = some s := dif_pos s.isValidUTF8
  change (match String.fromUTF8? s.toByteArray with
    | some t => Except.ok t
    | none => Except.error ReadError.notText) = _
  rw [h]

end Dialogue.Files
