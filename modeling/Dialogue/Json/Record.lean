import Dialogue.Json.Decode

/-!
# Records and tagged values

A record is written as an object, in which unknown fields are skipped, or as a list of its fields
in the order of their declaration, in which only a tail of fields with defaults may be left out. A
tagged value carries its tag as the field `kind`, which may stand anywhere in an object and comes
first in a list; its other fields are looked at only after the whole of it has been read.
-/
namespace Dialogue.Json

/-- A field of a record: a value read for it changes the record. -/
structure Record.Field (α : Type) where
  name : String
  required : Bool
  put : Nat → Node → α → Except Fault α

/-- A record starts from its defaults. -/
structure Record (α : Type) where
  title : String
  fields : List (Record.Field α)
  initial : α

def Record.Field.needed {α β : Type} (name : String) (d : Decoder β) (set : β → α → α) :
    Record.Field α :=
  ⟨name, true, fun depth n x => (d depth n).map (set · x)⟩

def Record.Field.withDefault {α β : Type} (name : String) (d : Decoder β) (set : β → α → α) :
    Record.Field α :=
  ⟨name, false, fun depth n x => (d depth n).map (set · x)⟩

namespace Record

variable {α : Type}

def field? (r : Record α) (key : String) : Option (Field α) := r.fields.find? (·.name = key)

/-- The first field that is required and not among those given. -/
def missing? (r : Record α) (given : List String) : Option (Field α) :=
  r.fields.find? fun f => f.required && f.name ∉ given

/-- Reads the fields of an object and returns which ones were given. -/
def putMembers (r : Record α) (depth : Nat) :
    List (Quoted × Node) → List String → α → Except Fault (List String × α)
  | [], given, x => .ok (given, x)
  | (q, n) :: rest, given, x => do
    let key ← q.read
    match r.field? key with
    | none => do
      skip n
      r.putMembers depth rest given x
    | some f =>
      if key ∈ given then .error (.duplicateField key)
      else r.putMembers depth rest (key :: given) (← f.put depth n x)

def ofMembers (r : Record α) (depth : Nat) (members : List (Quoted × Node)) (ending : ObjectEnd) :
    Except Fault α := do
  let (given, x) ← r.putMembers depth members [] r.initial
  ending.read fun key => check (if key ∈ given then some (.duplicateField key) else none)
  check ((r.missing? given).map fun f => .missingField f.name)
  return x

/-- Reads items into fields until either run out. -/
def putItems (depth : Nat) : List (Field α) → List Node → α → Except Fault α
  | f :: fs, n :: rest, x => do putItems depth fs rest (← f.put depth n x)
  | _, _, x => .ok x

/-- The fault of a list with fewer items than fields, if one of those left out is required. -/
def tooFew (r : Record α) (length : Nat) : Option Fault :=
  ((r.fields.drop length).findIdx? (·.required)).map fun i =>
    .tooShort (length + i) r.title r.fields.length

/-- The fault of what follows the last field of a list. -/
def tooMany (rest : List Node) (ending : ListEnd) : Option Fault :=
  if rest.isEmpty then
    match ending with
    | .closed => none
    | .trailingComma => some .trailingComma
    | .noComma | .commaAtEnd => some .trailingCharacters
    | .endOfText | .damagedItem => some (.endOfText .list)
  else some .trailingCharacters

def ofItems (r : Record α) (depth : Nat) (items : List Node) (ending : ListEnd) :
    Except Fault α := do
  let x ← putItems depth r.fields items r.initial
  if items.length < r.fields.length then
    check ending.fault?
    check (r.tooFew items.length)
  else check (tooMany (items.drop r.fields.length) ending)
  return x

def decoder (r : Record α) : Decoder α
  | depth, .list items ending => do r.ofItems (← descend depth) items ending
  | depth, .object members ending => do r.ofMembers (← descend depth) members ending
  | _, n => mismatch (.record r.title) n

/-- The fields after the tag of a list; there may be no others. -/
def ofTail (r : Record α) (depth : Nat) (items : List Node) : Except Fault α := do
  let x ← putItems depth r.fields items r.initial
  check (r.tooFew items.length)
  check (if items.length ≤ r.fields.length then none
    else some (.tooLong items.length r.fields.length))
  return x

end Record

/-- One of the forms of a tagged value: its tag, and its other fields as a record. -/
structure Variant (α : Type) where
  tag : String
  body : Record α

/-- A form without fields. -/
def Variant.unit {α : Type} (tag : String) (x : α) : Variant α := ⟨tag, "", [], x⟩

structure Tagged (α : Type) where
  title : String
  variants : List (Variant α)

namespace Tagged

variable {α : Type}

def tagField : String := "kind"

def tag (t : Tagged α) : Node → Except Fault (Variant α)
  | .text q => do
    let name ← q.read
    match t.variants.find? (·.tag = name) with
    | some v => .ok v
    | none => .error (.unknownTag name (t.variants.map (·.tag)))
  | n => mismatch .tag n

/-- Reads the tag and checks all other values; these are kept in the order written. -/
def scanMembers (t : Tagged α) (depth : Nat) : List (Quoted × Node) → Option (Variant α) →
    Except Fault (Option (Variant α) × List (Quoted × Node))
  | [], found => .ok (found, [])
  | (q, n) :: rest, found => do
    if (← q.read) = tagField then
      check (if found.isSome then some (.duplicateField tagField) else none)
      t.scanMembers depth rest (some (← t.tag n))
    else
      let _ ← value depth n
      let r ← t.scanMembers depth rest found
      return (r.1, (q, n) :: r.2)

def ofMembers (t : Tagged α) (depth : Nat) (members : List (Quoted × Node)) (ending : ObjectEnd) :
    Except Fault α := do
  let (found, others) ← t.scanMembers depth members none
  ending.read fun key =>
    check (if key = tagField ∧ found.isSome then some (.duplicateField tagField) else none)
  match found with
  | some v => v.body.ofMembers depth others .closed
  | none => .error (.missingField tagField)

def ofItems (t : Tagged α) (depth : Nat) (items : List Node) (ending : ListEnd) :
    Except Fault α := do
  match items with
  | [] => do
    check ending.fault?
    .error (.missingField tagField)
  | first :: rest => do
    let v ← t.tag first
    let _ ← values depth rest
    check ending.fault?
    v.body.ofTail depth rest

def decoder (t : Tagged α) : Decoder α
  | depth, .list items ending => do t.ofItems (← descend depth) items ending
  | depth, .object members ending => do t.ofMembers (← descend depth) members ending
  | _, n => mismatch (.tagged t.title) n

end Tagged

end Dialogue.Json
