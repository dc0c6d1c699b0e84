import Dialogue.Proofs.Shapes
import Dialogue.Script.Json

/-!
# Documents that are scripts

A text that spells a value is read as a script if and only if the value has the shape of one, and
then the script holds what the value holds. How the value is spelled does not matter, nor what else
its objects hold.
-/
namespace Dialogue

open Json

namespace Json

/-- What is read for a field; there may be nothing to stand for one that is left out. -/
def given? {β : Type} (f : Value → Option β) (default : Option β) : Option Value → Option β
  | none => default
  | some v => f v

/-- Absent and null are no text; anything else must be one. -/
def OptionalText (v : Option Value) : Option String → Prop
  | none => v = none ∨ v = some .null
  | some s => v = some (.text s)

theorem text?_eq_some {v : Option Value} {s : String} :
    given? Value.text? none v = some s ↔ v = some (.text s) := by
  cases v with
  | none => simp [given?]
  | some v => cases v <;> simp [given?, Value.text?]

theorem optionalText_iff {v : Option Value} {s : Option String} :
    given? (Value.optional? Value.text?) (some none) v = some s ↔ OptionalText v s := by
  cases v with
  | none => cases s <;> simp [given?, OptionalText]
  | some v => cases v <;> cases s <;> simp [given?, OptionalText, Value.optional?, Value.text?]

/-- Absent and null are no value; of anything else it is the canonical form. -/
def OptionalValue (v : Option Value) : Option Value → Prop
  | none => v = none ∨ v = some .null
  | some w => ∃ u, v = some u ∧ u ≠ .null ∧ canonical u = w

/-- A list with one item for each of the elements, which the item holds. -/
def ListOf {β : Type} (holds : β → Value → Prop) (v : Option Value) (xs : List β) : Prop :=
  ∃ items, v = some (.list items) ∧ List.Forall₂ holds xs items

theorem optionalValue_iff {v w : Option Value} :
    given? (Value.optional? fun v => some (canonical v)) (some none) v = some w ↔
      OptionalValue v w := by
  cases v with
  | none => cases w <;> simp [given?, OptionalValue]
  | some v => cases v <;> cases w <;> simp [given?, OptionalValue, Value.optional?]

theorem listOf_iff {β : Type} {f : Value → Option β} {holds : β → Value → Prop}
    (h : ∀ {v x}, f v = some x ↔ holds x v) {v : Option Value} {xs : List β} :
    given? (Value.list? f) none v = some xs ↔ ListOf holds v xs := by
  constructor
  · intro hv
    cases v with
    | none => cases hv
    | some v =>
      cases v with
      | list items => exact ⟨items, rfl, (mapM_eq_some h).mp hv⟩
      | _ => cases hv
  · rintro ⟨items, rfl, hitems⟩
    exact (mapM_eq_some h).mpr hitems

theorem given?_default {β : Type} {f : Value → Option β} {default x : β} {v : Option Value} :
    given? f (some default) v = some x ↔ v = none ∧ x = default ∨ given? f none v = some x := by
  cases v <;> simp [given?, eq_comm]

theorem listOf_default_iff {β : Type} {f : Value → Option β} {holds : β → Value → Prop}
    (h : ∀ {v x}, f v = some x ↔ holds x v) {v : Option Value} {xs : List β} :
    given? (Value.list? f) (some []) v = some xs ↔ v = none ∧ xs = [] ∨ ListOf holds v xs := by
  rw [given?_default, listOf_iff h]

namespace Shape

variable {α β : Type}

theorem fill_needed (name : String) (f : Value → Option β) (set : β → α → α) (x : α)
    (v : Option Value) :
    (Field.needed name f set).fill (some x) v = (given? f none v).map (set · x) := by
  cases v with
  | none => rfl
  | some v => simp [Field.needed, fill_some, put_some, given?, Function.comp_def]

/-- Nothing is changed by setting the default in a record that has it already. -/
theorem fill_withDefault (default : β) {name : String} {f : Value → Option β} {set : β → α → α}
    {x : α} (h : set default x = x) (v : Option Value) :
    (Field.withDefault name f set).fill (some x) v = (given? f (some default) v).map (set · x) := by
  cases v with
  | none => simp [Field.withDefault, Field.fill, given?, h]
  | some v => simp [Field.withDefault, fill_some, put_some, given?, Function.comp_def]

theorem fill_bind {γ : Type} (f : Field α) (x : Option γ) (g : γ → Option α) (v : Option Value) :
    f.fill (x.bind g) v = x.bind fun a => f.fill (g a) v := by
  cases x with
  | none => exact fill_none f v
  | some a => rfl

theorem fill_map {γ : Type} (f : Field α) (x : Option γ) (g : γ → α) (v : Option Value) :
    f.fill (x.map g) v = x.bind fun a => f.fill (some (g a)) v := by
  cases x with
  | none => exact fill_none f v
  | some a => rfl

end Shape

end Json

open Json.Shape (fill_needed fill_withDefault fill_bind fill_map)
open Json.Shape.Field (follows_needed follows_withDefault independent_of_commute)

namespace Choice

def fieldNames : List String := ["text", "jump", "message"]

/-- A choice is what a value holds, which has the shape of one. -/
structure HeldBy (c : Choice) (v : Value) : Prop where
  record : v.isRecord fieldNames
  text : v.field? fieldNames "text" = some (.text c.text)
  jump : OptionalText (v.field? fieldNames "jump") c.jump
  message : OptionalText (v.field? fieldNames "message") c.message

def shape : Shape Choice where
  fields := [
    .needed "text" Value.text? fun s c => { c with text := s },
    .withDefault "jump" (Value.optional? Value.text?) fun s c => { c with jump := s },
    .withDefault "message" (Value.optional? Value.text?) fun s c => { c with message := s }]
  initial := ⟨"", none, none⟩

theorem shape_describes : shape.Describes record where
  initial := rfl
  fields := .cons (follows_needed follows_text _ _) <|
    .cons (follows_withDefault (follows_optional follows_text) _ _) <|
    .cons (follows_withDefault (follows_optional follows_text) _ _) .nil
  distinct := by decide
  independent := by
    simp only [shape, List.pairwise_cons, List.forall_mem_cons, List.not_mem_nil, false_imp_iff,
      implies_true, List.Pairwise.nil, and_true]
    and_intros <;> exact independent_of_commute fun _ _ _ => rfl

theorem read?_eq_some {v : Value} {c : Choice} : shape.read? v = some c ↔ c.HeldBy v := by
  have hnames : shape.names = fieldNames := rfl
  rw [Shape.read?, hnames, Option.ite_none_right_eq_some]
  simp only [shape, List.foldl_cons, List.foldl_nil, fill_needed, fill_withDefault none,
    fill_bind, fill_map, Option.bind_eq_some_iff, Option.map_eq_some_iff, text?_eq_some,
    optionalText_iff]
  constructor
  · rintro ⟨record, text, htext, jump, hjump, message, hmessage, rfl⟩
    exact ⟨record, htext, hjump, hmessage⟩
  · rintro ⟨record, htext, hjump, hmessage⟩
    exact ⟨record, _, htext, _, hjump, _, hmessage, rfl⟩

end Choice

namespace Line

def fieldNames : List String :=
  ["speaker", "label", "message", "text", "jump", "options", "notes"]

/-- A line is what a value holds, which has the shape of one. -/
structure HeldBy (l : Line) (v : Value) : Prop where
  record : v.isRecord fieldNames
  speaker : OptionalText (v.field? fieldNames "speaker") l.speaker
  label : OptionalText (v.field? fieldNames "label") l.label
  message : OptionalText (v.field? fieldNames "message") l.message
  text : v.field? fieldNames "text" = some (.text l.text)
  jump : OptionalText (v.field? fieldNames "jump") l.jump
  choices : v.field? fieldNames "options" = none ∧ l.choices = [] ∨
    ListOf Choice.HeldBy (v.field? fieldNames "options") l.choices
  notes : OptionalText (v.field? fieldNames "notes") l.notes

def shape : Shape Line where
  fields := [
    .withDefault "speaker" (Value.optional? Value.text?) fun s l => { l with speaker := s },
    .withDefault "label" (Value.optional? Value.text?) fun s l => { l with label := s },
    .withDefault "message" (Value.optional? Value.text?) fun s l => { l with message := s },
    .needed "text" Value.text? fun s l => { l with text := s },
    .withDefault "jump" (Value.optional? Value.text?) fun s l => { l with jump := s },
    .withDefault "options" (Value.list? Choice.shape.read?) fun cs l => { l with choices := cs },
    .withDefault "notes" (Value.optional? Value.text?) fun s l => { l with notes := s }]
  initial := { text := "" }

theorem shape_describes : shape.Describes record where
  initial := rfl
  fields := .cons (follows_withDefault (follows_optional follows_text) _ _) <|
    .cons (follows_withDefault (follows_optional follows_text) _ _) <|
    .cons (follows_withDefault (follows_optional follows_text) _ _) <|
    .cons (follows_needed follows_text _ _) <|
    .cons (follows_withDefault (follows_optional follows_text) _ _) <|
    .cons (follows_withDefault
      (follows_list (Shape.follows_decoder Choice.shape_describes)) _ _) <|
    .cons (follows_withDefault (follows_optional follows_text) _ _) .nil
  distinct := by decide
  independent := by
    simp only [shape, List.pairwise_cons, List.forall_mem_cons, List.not_mem_nil, false_imp_iff,
      implies_true, List.Pairwise.nil, and_true]
    and_intros <;> exact independent_of_commute fun _ _ _ => rfl

theorem read?_eq_some {v : Value} {l : Line} : shape.read? v = some l ↔ l.HeldBy v := by
  have hnames : shape.names = fieldNames := rfl
  rw [Shape.read?, hnames, Option.ite_none_right_eq_some]
  simp only [shape, List.foldl_cons, List.foldl_nil, fill_needed, fill_withDefault none,
    fill_withDefault [], fill_bind, fill_map, Option.bind_eq_some_iff, Option.map_eq_some_iff,
    text?_eq_some, optionalText_iff, listOf_default_iff Choice.read?_eq_some]
  constructor
  · rintro ⟨record, speaker, hspeaker, label, hlabel, message, hmessage, text, htext, jump, hjump,
      choices, hchoices, notes, hnotes, rfl⟩
    exact ⟨record, hspeaker, hlabel, hmessage, htext, hjump, hchoices, hnotes⟩
  · rintro ⟨record, hspeaker, hlabel, hmessage, htext, hjump, hchoices, hnotes⟩
    exact ⟨record, _, hspeaker, _, hlabel, _, hmessage, _, htext, _, hjump, _, hchoices, _, hnotes,
      rfl⟩

end Line

namespace Ending

def fieldNames : List String := ["message"]

structure HeldBy (e : Ending) (v : Value) : Prop where
  record : v.isRecord fieldNames
  message : OptionalText (v.field? fieldNames "message") e.message

def shape : Shape Ending where
  fields := [.withDefault "message" (Value.optional? Value.text?) fun s _ => ⟨s⟩]
  initial := ⟨none⟩

theorem shape_describes : shape.Describes record where
  initial := rfl
  fields := .cons (follows_withDefault (follows_optional follows_text) _ _) .nil
  distinct := by decide
  independent := List.pairwise_singleton _ _

theorem read?_eq_some {v : Value} {e : Ending} : shape.read? v = some e ↔ e.HeldBy v := by
  have hnames : shape.names = fieldNames := rfl
  rw [Shape.read?, hnames, Option.ite_none_right_eq_some]
  simp only [shape, List.foldl_cons, List.foldl_nil, fill_withDefault none,
    Option.map_eq_some_iff, optionalText_iff]
  constructor
  · rintro ⟨record, message, hmessage, rfl⟩
    exact ⟨record, hmessage⟩
  · rintro ⟨record, hmessage⟩
    exact ⟨record, _, hmessage, rfl⟩

end Ending

namespace Script

def fieldNames : List String := ["metadata", "lines", "end"]

/-- A script is what a value holds, which has the shape of one. -/
structure HeldBy (s : Script) (v : Value) : Prop where
  record : v.isRecord fieldNames
  metadata : OptionalValue (v.field? fieldNames "metadata") s.metadata
  lines : ListOf Line.HeldBy (v.field? fieldNames "lines") s.lines
  ending : v.field? fieldNames "end" = none ∧ s.ending = {} ∨
    ∃ w, v.field? fieldNames "end" = some w ∧ s.ending.HeldBy w

def shape : Shape Script where
  fields := [
    .withDefault "metadata" (Value.optional? fun v => some (canonical v)) fun v s =>
      { s with metadata := v },
    .needed "lines" (Value.list? Line.shape.read?) fun ls s => { s with lines := ls },
    .withDefault "end" Ending.shape.read? fun e s => { s with ending := e }]
  initial := { lines := [] }

theorem shape_describes : shape.Describes record where
  initial := rfl
  fields := .cons (follows_withDefault (follows_optional follows_value) _ _) <|
    .cons (follows_needed (follows_list (Shape.follows_decoder Line.shape_describes)) _ _) <|
    .cons (follows_withDefault (Shape.follows_decoder Ending.shape_describes) _ _) .nil
  distinct := by decide
  independent := by
    simp only [shape, List.pairwise_cons, List.forall_mem_cons, List.not_mem_nil, false_imp_iff,
      implies_true, List.Pairwise.nil, and_true]
    and_intros <;> exact independent_of_commute fun _ _ _ => rfl

theorem ending_iff {v : Option Value} {e : Ending} :
    given? Ending.shape.read? (some {}) v = some e ↔
      v = none ∧ e = {} ∨ ∃ w, v = some w ∧ e.HeldBy w := by
  cases v with
  | none => simp [given?, eq_comm]
  | some w => simp [given?, Ending.read?_eq_some]

theorem read?_eq_some {v : Value} {s : Script} : shape.read? v = some s ↔ s.HeldBy v := by
  have hnames : shape.names = fieldNames := rfl
  rw [Shape.read?, hnames, Option.ite_none_right_eq_some]
  simp only [shape, List.foldl_cons, List.foldl_nil, fill_needed, fill_withDefault none,
    fill_withDefault ({} : Ending), fill_bind, fill_map, Option.bind_eq_some_iff,
    Option.map_eq_some_iff, optionalValue_iff, listOf_iff Line.read?_eq_some, ending_iff]
  constructor
  · rintro ⟨record, metadata, hmetadata, lines, hlines, ending, hending, rfl⟩
    exact ⟨record, hmetadata, hlines, hending⟩
  · rintro ⟨record, hmetadata, hlines, hending⟩
    exact ⟨record, _, hmetadata, _, hlines, _, hending, rfl⟩

/-- A text that spells a value is read as the script that the value holds if the value has the shape
of a script, and not at all otherwise. -/
theorem parse_of_spells {source : String} {v : Value} (spells : Spells v source.toList)
    (distinct : v.Throughout Value.DistinctKeys) (within : v.Within 127) (s : Script) :
    parse source = .ok s ↔ s.HeldBy v := by
  have hdecode := toOption_decode (Shape.follows_decoder shape_describes) spells distinct within
  rw [← read?_eq_some, ← hdecode, toOption_eq_some]
  rfl

/-- An object with a member that no field asks for, whose other key is written with an escape, and
in which the line is a list of its first four fields. -/
theorem parse_of_escaped_key :
    let line : Value := .list [.text "Ann", .null, .null, .text "Hi."]
    let mood : Value := .number (.integer ⟨1, by decide, by decide⟩)
    let v : Value := .object [("lines", .list [line]), ("mood", mood)]
    let source := "\x7b\"mood\":1, \"l\\u0069nes\" :[[\"Ann\",null,null,\"Hi.\"]]\x7d"
    Spells v source.toList ∧ v.Writable 127 ∧
      parse source = .ok { lines := [{ speaker := some "Ann", text := "Hi." }] } := by
  intro line mood v source
  have hmood : mood.Writable 0 := Value.writable_plain rfl trivial
  have hline : (Value.list [line]).Writable 2 := by
    have hnull : Value.null.Writable 0 := Value.writable_plain rfl trivial
    refine Value.writable_list (List.forall_mem_singleton.mpr (Value.writable_list ?_))
    simp [Value.writable_text, hnull]
  have hv : v.Writable 3 := by
    refine Value.writable_object (by decide) ?_
    simpa using ⟨hline, hmood.mono (by decide)⟩
  let key : List (List Char) := [['l'], ['\\', 'u', '0', '0', '6', '9'], ['n'], ['e'], ['s']]
  have hkey : SpellsText "lines" ('"' :: key.flatten ++ ['"']) := by
    refine .quoted (.cons ?_ (.cons (.unit (by decide)) (.cons ?_ (.cons ?_ (.cons ?_ .nil)))))
    all_goals exact .plain (by decide) (by decide) (by decide)
  let written : List ((String × Value) × MemberText) := [
    (("mood", mood), .compact ("mood", mood)),
    (("lines", .list [line]),
      ⟨[' '], '"' :: key.flatten ++ ['"'], [' '], compactChars (.list [line])⟩)]
  have hwritten : source.toList =
      '\x7b' :: commaSeparated (written.map (·.2.chars)) ++ ['\x7d'] := by decide +kernel
  have spells : Spells v source.toList := by
    rw [hwritten]
    refine .object written nofun ?_ ?_ (.swap _ _ _)
    · simp only [written, List.forall_mem_cons, List.not_mem_nil, false_imp_iff, implies_true,
        and_true]
      refine ⟨⟨nofun, spellsText_textChars _, nofun⟩, ⟨?_, hkey, ?_⟩⟩ <;>
        exact List.forall_mem_singleton.mpr rfl
    · simp only [written, List.forall_mem_cons, List.not_mem_nil, false_imp_iff, implies_true,
        and_true]
      exact ⟨spells_compactChars hmood.exact, spells_compactChars hline.exact⟩
  have hv := hv.mono (show 3 ≤ 127 by decide)
  refine ⟨spells, hv, (parse_of_spells spells hv.distinct hv.within _).mpr ?_⟩
  have hann : Line.HeldBy { speaker := some "Ann", text := "Hi." } line :=
    ⟨rfl, rfl, .inr rfl, .inr rfl, rfl, .inl rfl, .inl ⟨rfl, rfl⟩, .inl rfl⟩
  exact ⟨rfl, .inl rfl, ⟨_, rfl, .cons hann .nil⟩, .inl ⟨rfl, rfl⟩⟩

end Script

end Dialogue
