import Dialogue.Json.Node
import Dialogue.Json.Value

/-!
# Decoding the tree of a text

A decoder walks a tree in the order of the text and returns the first fault, be it one of the text
or of the shape. The first argument counts how many containers may still be opened. Values that
nobody asks for are only checked for well-formed text: no nesting is too deep there, no number too
large, and units need not pair up.
-/
namespace Dialogue.Json

abbrev Decoder (α : Type) := Nat → Node → Except Fault α

/-- One more container than can be open at a time. -/
def depthLimit : Nat := 128

/-- Opens a container. -/
def descend (depth : Nat) : Except Fault Nat :=
  if depth ≤ 1 then .error .tooDeep else .ok (depth - 1)

def check (fault : Option Fault) : Except Fault Unit :=
  match fault with
  | none => .ok ()
  | some f => .error f

def wordFault (atEnd : Bool) : Fault := if atEnd then .endOfText .value else .badWord

def numberFault (atEnd : Bool) : Fault := if atEnd then .endOfText .value else .badNumber

def Ending.fault? : Ending → Option Fault
  | .closed => none
  | .endOfText => some (.endOfText .text)
  | .control => some .controlCharacter
  | .badEscape => some .badEscape
  | .badUnit => some .badEscape

def isLeading (n : Nat) : Bool := 0xD800 ≤ n && n ≤ 0xDBFF
def isTrailing (n : Nat) : Bool := 0xDC00 ≤ n && n ≤ 0xDFFF

/-- The character of a pair of surrogates. -/
def pairChar (leading trailing : Nat) : Char :=
  Char.ofNat ((leading - 0xD800) * 0x400 + (trailing - 0xDC00) + 0x10000)

/-- A leading surrogate at the end of what could be read. -/
def Ending.afterLeading : Ending → Fault
  | .endOfText => .endOfText .text
  | .badUnit => .badEscape
  | _ => .unfinishedPair

/-- The characters of a quoted text: surrogates must come in pairs, the leading one first. -/
def charsOf (ending : Ending) : List Piece → Except Fault (List Char)
  | [] => (check ending.fault?).map fun _ => []
  | .plain c :: ps => (charsOf ending ps).map (c :: ·)
  | .unit n :: ps =>
    if isTrailing n then .error .loneSurrogate
    else if isLeading n then
      match ps with
      | [] => .error ending.afterLeading
      | .plain _ :: _ => .error .unfinishedPair
      | .unit m :: ps =>
        if isTrailing m then (charsOf ending ps).map (pairChar n m :: ·) else .error .loneSurrogate
    else (charsOf ending ps).map (Char.ofNat n :: ·)

def Quoted.read (q : Quoted) : Except Fault String := (charsOf q.ending q.pieces).map String.ofList

def Numeral.read (n : Numeral) : Except Fault Number :=
  match n.number? with
  | some x => .ok x
  | none => .error .numberTooLarge

def ListEnd.skipFault? : ListEnd → Option Fault
  | .closed => none
  | .noComma => some .noCommaInList
  | .trailingComma => some .noValue
  | .commaAtEnd => some (.endOfText .value)
  | .endOfText | .damagedItem => some (.endOfText .list)

def ObjectEnd.skipFault? : ObjectEnd → Option Fault
  | .closed => none
  | .noComma => some .noCommaInObject
  | .trailingComma | .notKey => some .keyNotText
  | .brokenKey key => key.ending.fault?
  | .noColon _ false => some .noColon
  | .endOfText | .commaAtEnd | .noColon _ true | .damagedMember => some (.endOfText .object)

mutual

def skip : Node → Except Fault Unit
  | .absent => .error (.endOfText .value)
  | .stray => .error .noValue
  | .brokenWord atEnd => .error (wordFault atEnd)
  | .brokenNumber _ => .error .badNumber
  | .null | .bool _ | .number _ => .ok ()
  | .text q => check q.ending.fault?
  | .list items ending => do skipItems items; check ending.skipFault?
  | .object members ending => do skipMembers members; check ending.skipFault?
termination_by structural n => n

def skipItems : List Node → Except Fault Unit
  | [] => .ok ()
  | n :: rest => do skip n; skipItems rest
termination_by structural items => items

def skipMembers : List (Quoted × Node) → Except Fault Unit
  | [] => .ok ()
  | (_, n) :: rest => do skip n; skipMembers rest
termination_by structural members => members

end

def ListEnd.fault? : ListEnd → Option Fault
  | .closed => none
  | .noComma => some .noCommaInList
  | .trailingComma => some .trailingComma
  | .commaAtEnd => some (.endOfText .value)
  | .endOfText | .damagedItem => some (.endOfText .list)

/-- The fault of an object's ending, once the key that stands there has been accepted. -/
def ObjectEnd.fault? : ObjectEnd → Option Fault
  | .closed => none
  | .noComma => some .noCommaInObject
  | .trailingComma => some .trailingComma
  | .notKey => some .keyNotText
  | .commaAtEnd => some (.endOfText .value)
  | .brokenKey key => key.ending.fault?
  | .noColon _ false => some .noColon
  | .endOfText | .noColon _ true | .damagedMember => some (.endOfText .object)

/-- The key without a value that an object may end with. -/
def ObjectEnd.key? : ObjectEnd → Option Quoted
  | .brokenKey key | .noColon key _ => some key
  | _ => none

/-- The ending of an object whose last key is accepted by `accept`. -/
def ObjectEnd.read (ending : ObjectEnd) (accept : String → Except Fault Unit) :
    Except Fault Unit := do
  match ending.key? with
  | some q => accept (← q.read)
  | none => pure ()
  check ending.fault?

mutual

/-- The value, its objects sorted by key; of members with one key the last counts. -/
def value (depth : Nat) : Node → Except Fault Value
  | .null => .ok .null
  | .bool b => .ok (.bool b)
  | .number n => n.read.map .number
  | .text q => q.read.map .text
  | .list items ending => do
    let vs ← values (← descend depth) items
    check ending.fault?
    return .list vs
  | .object members ending => do
    let ms ← memberValues (← descend depth) members
    ending.read fun _ => .ok ()
    return .sorted ms
  | .absent => .error (.endOfText .value)
  | .stray => .error .noValue
  | .brokenWord atEnd => .error (wordFault atEnd)
  | .brokenNumber atEnd => .error (numberFault atEnd)
termination_by structural n => n

def values (depth : Nat) : List Node → Except Fault (List Value)
  | [] => .ok []
  | n :: rest => do return (← value depth n) :: (← values depth rest)
termination_by structural items => items

def memberValues (depth : Nat) : List (Quoted × Node) → Except Fault (List (String × Value))
  | [] => .ok []
  | (q, n) :: rest => do return (← q.read, ← value depth n) :: (← memberValues depth rest)
termination_by structural members => members

end

/-- What stands at a place, told without looking into containers. -/
def Node.found : Node → Except Fault Found
  | .null => .ok .null
  | .bool b => .ok (.bool b)
  | .number n => n.read.map .number
  | .text q => q.read.map .text
  | .list _ _ => .ok .list
  | .object _ _ => .ok .object
  | .absent => .error (.endOfText .value)
  | .stray => .error .noValue
  | .brokenWord atEnd => .error (wordFault atEnd)
  | .brokenNumber atEnd => .error (numberFault atEnd)

def mismatch {α : Type} (wanted : Wanted) (n : Node) : Except Fault α := do
  let found ← n.found
  .error (.wrongType found wanted)

def text : Decoder String
  | _, .text q => q.read
  | _, n => mismatch .text n

def index : Decoder UInt64
  | _, .number n => do
    match ← n.read with
    | .integer i => if i.val < 0 then .error (.negativeIndex i) else .ok (UInt64.ofNat i.val.toNat)
    | .real x => .error (.wrongType (.number (.real x)) .index)
  | _, n => mismatch .index n

def optional {α : Type} (d : Decoder α) : Decoder (Option α)
  | _, .null => .ok none
  | depth, n => (d depth n).map some

def list {α : Type} (d : Decoder α) : Decoder (List α)
  | depth, .list items ending => do
    let inner ← descend depth
    let xs ← items.mapM (d inner)
    check ending.fault?
    return xs
  | _, n => mismatch .list n

/-- Decodes a whole text. -/
def decode {α : Type} (d : Decoder α) (source : String) : Except Fault α := do
  let doc := document source.toList
  let x ← d depthLimit doc.root
  check (if doc.trailing then some .trailingCharacters else none)
  return x

end Dialogue.Json
