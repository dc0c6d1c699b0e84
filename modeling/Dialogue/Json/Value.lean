import Dialogue.Json.Number
import Dialogue.Text.Hex

/-!
# JSON values and their text

An object keeps its members in the order given. Text is written compactly, or over several lines
with two spaces for each level.
-/
namespace Dialogue.Json
open Text

inductive Value where
  | null
  | bool (b : Bool)
  | number (n : Number)
  | text (s : String)
  | list (items : List Value)
  | object (members : List (String × Value))
  deriving Repr, Inhabited

namespace Value

def index (n : UInt64) : Value := .number (.integer (.ofUInt64 n))

/-- The member, or nothing for an absent text. -/
def optional (key : String) : Option String → List (String × Value)
  | none => []
  | some s => [(key, .text s)]

/-- Adds a member to an object sorted by key; an earlier member of that key is replaced. -/
def insert (key : String) (v : Value) : List (String × Value) → List (String × Value)
  | [] => [(key, v)]
  | (k, w) :: rest =>
    if key < k then (key, v) :: (k, w) :: rest
    else if key = k then (key, v) :: rest
    else (k, w) :: insert key v rest

/-- The object with these members, sorted by key; of members with one key the last counts. -/
def sorted (members : List (String × Value)) : Value :=
  .object (members.foldl (fun ms m => insert m.1 m.2 ms) [])

end Value

/-- Control characters and the two characters with a meaning are escaped, all others are kept. -/
def escapedChar (c : Char) : List Char :=
  if c = '"' then ['\\', '"']
  else if c = '\\' then ['\\', '\\']
  else if c = '\x08' then ['\\', 'b']
  else if c = '\x0c' then ['\\', 'f']
  else if c = '\n' then ['\\', 'n']
  else if c = '\r' then ['\\', 'r']
  else if c = '\t' then ['\\', 't']
  else if c.toNat < 0x20 then
    ['\\', 'u', '0', '0', hexDigit (c.toNat / 16), hexDigit (c.toNat % 16)]
  else [c]

def textChars (s : String) : List Char := '"' :: s.toList.flatMap escapedChar ++ ['"']

def commaSeparated : List (List Char) → List Char
  | [] => []
  | [x] => x
  | x :: y :: rest => x ++ ',' :: commaSeparated (y :: rest)

mutual

def compactChars : Value → List Char
  | .null => ['n', 'u', 'l', 'l']
  | .bool true => ['t', 'r', 'u', 'e']
  | .bool false => ['f', 'a', 'l', 's', 'e']
  | .number n => n.chars
  | .text s => textChars s
  | .list items => '[' :: commaSeparated (compactItems items) ++ [']']
  | .object members => '\x7b' :: commaSeparated (compactMembers members) ++ ['\x7d']
termination_by structural v => v

def compactItems : List Value → List (List Char)
  | [] => []
  | v :: rest => compactChars v :: compactItems rest
termination_by structural items => items

def compactMembers : List (String × Value) → List (List Char)
  | [] => []
  | (k, v) :: rest => (textChars k ++ ':' :: compactChars v) :: compactMembers rest
termination_by structural members => members

end

def newline (depth : Nat) : List Char := '\n' :: List.replicate (2 * depth) ' '

/-- Brackets around lines, or an empty pair. -/
def block (opening closing : Char) (depth : Nat) : List (List Char) → List Char
  | [] => [opening, closing]
  | lines => opening :: commaSeparated (lines.map (newline (depth + 1) ++ ·)) ++
      newline depth ++ [closing]

mutual

def prettyChars (depth : Nat) : Value → List Char
  | .null => ['n', 'u', 'l', 'l']
  | .bool true => ['t', 'r', 'u', 'e']
  | .bool false => ['f', 'a', 'l', 's', 'e']
  | .number n => n.chars
  | .text s => textChars s
  | .list items => block '[' ']' depth (prettyItems (depth + 1) items)
  | .object members => block '\x7b' '\x7d' depth (prettyMembers (depth + 1) members)
termination_by structural v => v

def prettyItems (depth : Nat) : List Value → List (List Char)
  | [] => []
  | v :: rest => prettyChars depth v :: prettyItems depth rest
termination_by structural items => items

def prettyMembers (depth : Nat) : List (String × Value) → List (List Char)
  | [] => []
  | (k, v) :: rest => (textChars k ++ ':' :: ' ' :: prettyChars depth v) :: prettyMembers depth rest
termination_by structural members => members

end

def Value.compact (v : Value) : String := String.ofList (compactChars v)
def Value.pretty (v : Value) : String := String.ofList (prettyChars 0 v)

def textJson (s : String) : String := String.ofList (textChars s)

theorem compactItems_eq_map (items : List Value) : compactItems items = items.map compactChars := by
  induction items with
  | nil => rfl
  | cons v rest ih => simp [compactItems, ih]

theorem compactMembers_eq_map (members : List (String × Value)) :
    compactMembers members = members.map fun m => textChars m.1 ++ ':' :: compactChars m.2 := by
  induction members with
  | nil => rfl
  | cons m rest ih => simp [compactMembers, ih]

theorem escapedChar_printable (c : Char) : ∀ d ∈ escapedChar c, 0x20 ≤ d.toNat := by
  unfold escapedChar
  repeat' split
  case isFalse.isFalse.isFalse.isFalse.isFalse.isFalse.isFalse.isTrue h =>
    simp only [List.forall_mem_cons]
    exact ⟨by decide, by decide, by decide, by decide, hexDigit_printable (by omega),
      hexDigit_printable (by omega), by simp⟩
  case isFalse.isFalse.isFalse.isFalse.isFalse.isFalse.isFalse.isFalse h =>
    simp only [List.forall_mem_singleton]
    omega
  all_goals
    exact List.forall_mem_cons.mpr ⟨by decide, List.forall_mem_cons.mpr ⟨by decide, by simp⟩⟩

theorem textChars_printable (s : String) : ∀ d ∈ textChars s, 0x20 ≤ d.toNat := by
  intro d hd
  simp only [textChars, List.cons_append, List.mem_cons, List.mem_append, List.mem_flatMap,
    List.not_mem_nil, or_false] at hd
  rcases hd with rfl | ⟨c, _, hc⟩ | rfl
  · decide
  · exact escapedChar_printable c d hc
  · decide

end Dialogue.Json
