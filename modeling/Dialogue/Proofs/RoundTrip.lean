import Dialogue.Proofs.CaseDocuments
import Dialogue.Proofs.Conversions

/-!
# Documents written and read again

A document is written as compact text, and what is read from that text is the document. So the text
written for a document is the same however often the document is read and written.
-/
namespace Dialogue

namespace Json

/-- A kind of document: how it is read, and the value that is written for it. -/
structure Format (α : Type) where
  decoder : Decoder α
  toJson : α → Value

namespace Format

variable {α : Type}

def encode (f : Format α) (x : α) : String := (f.toJson x).compact

def decode (f : Format α) (source : String) : Except Fault α := Json.decode f.decoder source

/-- A document that comes back from its own text. -/
def Restores (f : Format α) (x : α) : Prop := f.decode (f.encode x) = .ok x

/-- The text of a document is read as the document again, and written for it again. -/
def Settles (f : Format α) (x : α) : Prop :=
  f.Restores x ∧ (f.decode (f.encode x)).map f.encode = .ok (f.encode x)

/-- All documents come back from their own text; the text written for what was read from any text
stays as it is. -/
structure Lossless (f : Format α) : Prop where
  restores : ∀ x, f.Restores x
  settles : ∀ source x, f.decode source = .ok x → f.Settles x

theorem Restores.settles {f : Format α} {x : α} (h : f.Restores x) : f.Settles x :=
  ⟨h, by rw [show f.decode (f.encode x) = .ok x from h]; rfl⟩

theorem lossless_of_restores {f : Format α} (h : ∀ x, f.Restores x) : f.Lossless :=
  ⟨h, fun _ x _ => (h x).settles⟩

/-- A document is read from every text that spells the value written for it. -/
theorem decode_of_spells {f : Format α} {g : Value → Option α} (h : Follows f.decoder g) {x : α}
    (writable : (f.toJson x).Writable 127) (read : g (f.toJson x) = some x) {text : String}
    (spells : Spells (f.toJson x) text.toList) : f.decode text = .ok x := by
  have hdecode := toOption_decode h spells writable.distinct writable.within
  rw [read, toOption_eq_some] at hdecode
  exact hdecode

/-- It is enough to read back the value that is written. -/
theorem restores_of_follows {f : Format α} {g : Value → Option α} (h : Follows f.decoder g) {x : α}
    (writable : (f.toJson x).Writable 127) (read : g (f.toJson x) = some x) : f.Restores x := by
  refine decode_of_spells h writable read ?_
  rw [encode, Value.compact, String.toList_ofList]
  exact spells_compactChars writable.exact

/-- And the other way round. -/
theorem read_of_restores {f : Format α} {g : Value → Option α} (h : Follows f.decoder g) {x : α}
    (writable : (f.toJson x).Writable 127) (restores : f.Restores x) : g (f.toJson x) = some x := by
  rw [← toOption_decode_compact h writable]
  exact toOption_eq_some.mpr restores

/-- The text over several lines can be read as well. -/
theorem decode_pretty {f : Format α} {g : Value → Option α} (h : Follows f.decoder g) {x : α}
    (writable : (f.toJson x).Writable 127) (read : g (f.toJson x) = some x) :
    f.decode (f.toJson x).pretty = .ok x := by
  refine decode_of_spells h writable read ?_
  rw [Value.pretty, String.toList_ofList]
  exact spells_prettyChars writable.exact 0

end Format

namespace Value

@[simp] theorem lookup_optional (key name : String) (s : Option String) :
    (optional key s).lookup name = if name = key then s.map .text else none := by
  cases s with
  | none => simp [optional]
  | some s => simp [optional]

/-- The members that are written for some of the fields of these names, in the same order. -/
structure Fields (n : Nat) (names : List String) (members : List (String × Value)) : Prop where
  keys : (members.map (·.1)).Sublist names
  writable : ∀ m ∈ members, m.2.Writable n

namespace Fields

variable {n : Nat}

theorem none (names : List String) : Fields n names [] :=
  ⟨List.nil_sublist _, fun _ hm => absurd hm List.not_mem_nil⟩

theorem one (name : String) {v : Value} (h : v.Writable n) : Fields n [name] [(name, v)] :=
  ⟨.refl _, List.forall_mem_singleton.mpr h⟩

theorem text (name s : String) : Fields n [name] [(name, .text s)] :=
  one name (writable_text n s)

theorem optional (name : String) (s : Option String) : Fields n [name] (optional name s) := by
  cases s with
  | none => exact none _
  | some s => exact text name s

theorem append {names₁ names₂ : List String} {members₁ members₂ : List (String × Value)}
    (h₁ : Fields n names₁ members₁) (h₂ : Fields n names₂ members₂) :
    Fields n (names₁ ++ names₂) (members₁ ++ members₂) where
  keys := by
    rw [List.map_append]
    exact h₁.keys.append h₂.keys
  writable := List.forall_mem_append.mpr ⟨h₁.writable, h₂.writable⟩

theorem object {names : List String} {members : List (String × Value)}
    (h : Fields n names members) (distinct : names.Nodup) : (object members).Writable (n + 1) :=
  writable_object (distinct.sublist h.keys) h.writable

end Fields

end Value

@[simp] theorem optionalText_map (s : Option String) : OptionalText (s.map .text) s := by
  cases s with
  | none => exact .inl rfl
  | some s => rfl

theorem listOf_map {β : Type} {holds : β → Value → Prop} {f : β → Value} (h : ∀ x, holds x (f x))
    (xs : List β) : ListOf holds (some (.list (xs.map f))) xs :=
  ⟨_, rfl, List.forall₂_map_right_iff.mpr (List.forall₂_same.mpr fun x _ => h x)⟩

theorem list?_map {β : Type} {f : Value → Option β} {g : β → Value} (h : ∀ x, f (g x) = some x)
    (xs : List β) : Value.list? f (.list (xs.map g)) = some xs := by
  rw [Value.list?, List.mapM_map]
  induction xs with
  | nil => rfl
  | cons x xs ih => simp [List.mapM_cons, h, ih]

variable {α : Type}

theorem holds_of_putMembers {r : Record α} {P : α → Prop} {depth : Nat}
    (put : ∀ f ∈ r.fields, ∀ n x y, P x → f.put depth n x = .ok y → P y)
    {members : List (Quoted × Node)} {given given' : List String} {x y : α} (hx : P x)
    (h : r.putMembers depth members given x = .ok (given', y)) : P y := by
  induction members generalizing given x with
  | nil =>
    obtain ⟨-, rfl⟩ := Prod.mk.inj (Except.ok.inj h)
    exact hx
  | cons m members ih =>
    obtain ⟨key, -, h⟩ := bind_eq_ok.mp h
    cases hfield : r.field? key with
    | none =>
      simp only [hfield] at h
      obtain ⟨_, -, h⟩ := bind_eq_ok.mp h
      exact ih hx h
    | some f =>
      simp only [hfield] at h
      split at h
      · cases h
      · obtain ⟨z, hz, h⟩ := bind_eq_ok.mp h
        exact ih (put f (List.mem_of_find?_eq_some hfield) _ _ _ hx hz) h

theorem holds_of_putItems {P : α → Prop} {depth : Nat} {fields : List (Record.Field α)}
    (put : ∀ f ∈ fields, ∀ n x y, P x → f.put depth n x = .ok y → P y) {items : List Node}
    {x y : α} (hx : P x) (h : Record.putItems depth fields items x = .ok y) : P y := by
  induction fields generalizing items x with
  | nil =>
    obtain rfl := Except.ok.inj h
    exact hx
  | cons f fields ih =>
    obtain ⟨hf, hfields⟩ := List.forall_mem_cons.mp put
    cases items with
    | nil =>
      obtain rfl := Except.ok.inj h
      exact hx
    | cons n items =>
      obtain ⟨z, hz, h⟩ := bind_eq_ok.mp h
      exact ih hfields (hf _ _ _ hx hz) h

/-- What holds of the defaults of a record, and is kept by all its fields, holds of whatever is
read. -/
theorem holds_of_decoder {r : Record α} {P : α → Prop} {depth : Nat} (initial : P r.initial)
    (put : ∀ f ∈ r.fields, ∀ n x y, P x → f.put depth n x = .ok y → P y) {n : Node} {x : α}
    (h : r.decoder (depth + 1) n = .ok x) : P x := by
  cases n with
  | list items ending =>
    obtain ⟨inner, hinner, hread⟩ := bind_eq_ok.mp h
    obtain rfl : inner = depth := (Nat.succ.inj (exists_of_descend hinner).1).symm
    obtain ⟨y, hput, hread⟩ := bind_eq_ok.mp hread
    have hy : P y := holds_of_putItems put initial hput
    split at hread
    · obtain ⟨_, -, hread⟩ := bind_eq_ok.mp hread
      obtain ⟨_, -, hread⟩ := bind_eq_ok.mp hread
      exact Except.ok.inj hread ▸ hy
    · obtain ⟨_, -, hread⟩ := bind_eq_ok.mp hread
      exact Except.ok.inj hread ▸ hy
  | object members ending =>
    obtain ⟨inner, hinner, hread⟩ := bind_eq_ok.mp h
    obtain rfl : inner = depth := (Nat.succ.inj (exists_of_descend hinner).1).symm
    obtain ⟨⟨given, y⟩, hput, hread⟩ := bind_eq_ok.mp hread
    obtain ⟨_, -, hread⟩ := bind_eq_ok.mp hread
    obtain ⟨_, -, hread⟩ := bind_eq_ok.mp hread
    exact Except.ok.inj hread ▸ holds_of_putMembers put initial hput
  | _ =>
    obtain ⟨_, -, h⟩ := bind_eq_ok.mp h
    cases h

theorem optional_of_ne_null (d : Decoder α) (depth : Nat) {n : Node} (hn : n ≠ .null) :
    optional d depth n = (d depth n).map some := by
  cases n with
  | null => exact absurd rfl hn
  | _ => rfl

theorem ne_null_of_value {depth : Nat} {n : Node} {v : Value} (hn : n ≠ .null)
    (h : value depth n = .ok v) : v ≠ .null := by
  rintro rfl
  cases n with
  | null => exact hn rfl
  | bool b => cases h
  | number n =>
    obtain ⟨_, -, h⟩ := map_eq_ok.mp h
    cases h
  | text q =>
    obtain ⟨_, -, h⟩ := map_eq_ok.mp h
    cases h
  | list items ending =>
    obtain ⟨_, -, h⟩ := bind_eq_ok.mp h
    obtain ⟨_, -, h⟩ := bind_eq_ok.mp h
    obtain ⟨_, -, h⟩ := bind_eq_ok.mp h
    cases h
  | object members ending =>
    obtain ⟨_, -, h⟩ := bind_eq_ok.mp h
    obtain ⟨_, -, h⟩ := bind_eq_ok.mp h
    obtain ⟨_, -, h⟩ := bind_eq_ok.mp h
    cases h
  | _ => cases h

end Json

open Json
open Json.Shape (fill_needed fill_withDefault fill_bind fill_map)

namespace Choice

def format : Format Choice := ⟨record.decoder, toJson⟩

theorem heldBy_toJson (c : Choice) : c.HeldBy c.toJson where
  record := rfl
  text := rfl
  jump := by simp [toJson, Value.field?, List.lookup_append]
  message := by simp [toJson, Value.field?, List.lookup_append]

theorem writable_toJson (c : Choice) : c.toJson.Writable 1 := by
  have hfields : Value.Fields 0 fieldNames _ :=
    ((Value.Fields.text "text" c.text).append (.optional "jump" c.jump)).append
      (.optional "message" c.message)
  exact hfields.object (by decide)

theorem restores (c : Choice) : format.Restores c :=
  Format.restores_of_follows (Shape.follows_decoder shape_describes)
    (c.writable_toJson.mono (by decide)) (read?_eq_some.mpr c.heldBy_toJson)

end Choice

namespace Line

def format : Format Line := ⟨record.decoder, toJson⟩

def choicesJson (l : Line) : List (String × Value) :=
  if l.choices.isEmpty then [] else [("options", .list (l.choices.map Choice.toJson))]

theorem toJson_eq (l : Line) : l.toJson =
    .object (Value.optional "speaker" l.speaker ++ Value.optional "label" l.label ++
      Value.optional "message" l.message ++ [("text", .text l.text)] ++
      Value.optional "jump" l.jump ++ l.choicesJson ++ Value.optional "notes" l.notes) := rfl

@[simp] theorem lookup_choicesJson (l : Line) {name : String} (h : name ≠ "options") :
    l.choicesJson.lookup name = none := by
  unfold choicesJson
  split <;> simp [h]

/-- An empty list of choices is left out, and nothing stands for it. -/
theorem choices_heldBy (l : Line) :
    l.choicesJson.lookup "options" = none ∧ l.choices = [] ∨
      ListOf Choice.HeldBy (l.choicesJson.lookup "options") l.choices := by
  unfold choicesJson
  split
  · next hnone => exact .inl ⟨rfl, List.isEmpty_iff.mp hnone⟩
  · exact .inr (listOf_map Choice.heldBy_toJson l.choices)

theorem heldBy_toJson (l : Line) : l.HeldBy l.toJson where
  record := rfl
  speaker := by simp [toJson_eq, Value.field?, List.lookup_append]
  label := by simp [toJson_eq, Value.field?, List.lookup_append]
  message := by simp [toJson_eq, Value.field?, List.lookup_append]
  text := by simp [toJson_eq, Value.field?, List.lookup_append]
  jump := by simp [toJson_eq, Value.field?, List.lookup_append]
  choices := by
    simpa [toJson_eq, Value.field?, List.lookup_append] using choices_heldBy l
  notes := by simp [toJson_eq, Value.field?, List.lookup_append]

theorem fields_choicesJson (l : Line) : Value.Fields 2 ["options"] l.choicesJson := by
  unfold choicesJson
  split
  · exact .none _
  · refine .one _ (Value.writable_list (List.forall_mem_map.mpr fun c _ => ?_))
    exact c.writable_toJson

theorem writable_toJson (l : Line) : l.toJson.Writable 3 := by
  have hfields : Value.Fields 2 fieldNames _ :=
    ((((((Value.Fields.optional "speaker" l.speaker).append (.optional "label" l.label)).append
      (.optional "message" l.message)).append (.text "text" l.text)).append
      (.optional "jump" l.jump)).append l.fields_choicesJson).append (.optional "notes" l.notes)
  exact hfields.object (by decide)

theorem restores (l : Line) : format.Restores l :=
  Format.restores_of_follows (Shape.follows_decoder shape_describes)
    (l.writable_toJson.mono (by decide)) (read?_eq_some.mpr l.heldBy_toJson)

end Line

namespace Ending

def format : Format Ending := ⟨record.decoder, toJson⟩

theorem heldBy_toJson (e : Ending) : e.HeldBy e.toJson where
  record := rfl
  message := by simp [toJson, Value.field?]

theorem writable_toJson (e : Ending) : e.toJson.Writable 1 :=
  (Value.Fields.optional "message" e.message).object (List.nodup_singleton _)

theorem restores (e : Ending) : format.Restores e :=
  Format.restores_of_follows (Shape.follows_decoder shape_describes)
    (e.writable_toJson.mono (by decide)) (read?_eq_some.mpr e.heldBy_toJson)

end Ending

namespace Script

def format : Format Script := ⟨record.decoder, toJson⟩

/-- Metadata as a script keeps them: not null, with the members of each object in the order of their
keys, and with no more than 126 containers inside one another. -/
structure Kept (v : Value) : Prop where
  present : v ≠ .null
  sorted : v.Throughout Value.SortedKeys
  within : v.Within 126

theorem heldBy_toJson {s : Script} (kept : ∀ v, s.metadata = some v → Kept v) :
    s.HeldBy s.toJson where
  record := rfl
  metadata := by
    cases hmetadata : s.metadata with
    | none => exact .inl (by simp [toJson, metadataJson, hmetadata, Value.field?])
    | some v =>
      have hkept := kept v hmetadata
      refine ⟨v, ?_, hkept.present, canonical_eq_self hkept.sorted⟩
      simp [toJson, metadataJson, hmetadata, Value.field?]
  lines := by
    have hlines := listOf_map Line.heldBy_toJson s.lines
    cases hmetadata : s.metadata <;> simpa [toJson, metadataJson, hmetadata, Value.field?]
  ending := by
    refine .inr ⟨s.ending.toJson, ?_, s.ending.heldBy_toJson⟩
    cases hmetadata : s.metadata <;> simp [toJson, metadataJson, hmetadata, Value.field?]

theorem fields_metadataJson {s : Script}
    (writable : ∀ v, s.metadata = some v → v.Writable 126) :
    Value.Fields 126 ["metadata"] s.metadataJson := by
  unfold metadataJson
  cases hmetadata : s.metadata with
  | none => exact .none _
  | some v => exact .one _ (writable v hmetadata)

theorem writable_toJson {s : Script} (writable : ∀ v, s.metadata = some v → v.Writable 126) :
    s.toJson.Writable 127 := by
  have hlines : (Value.list (s.lines.map Line.toJson)).Writable 4 :=
    Value.writable_list (List.forall_mem_map.mpr fun l _ => l.writable_toJson)
  have hfields : Value.Fields 126 fieldNames _ := (fields_metadataJson writable).append <|
    (Value.Fields.one "lines" (hlines.mono (by decide))).append
      (.one "end" (s.ending.writable_toJson.mono (by decide)))
  exact hfields.object (by decide)

theorem kept_of_optional {n : Node} {v : Value} (h : optional value 127 n = .ok (some v)) :
    Kept v := by
  by_cases hn : n = .null
  · subst hn
    cases h
  · rw [optional_of_ne_null _ _ hn] at h
    obtain ⟨w, hw, hv⟩ := map_eq_ok.mp h
    obtain rfl := Option.some.inj hv
    have hreadable := readable_of_value hw
    exact ⟨ne_null_of_value hn hw, hreadable.sorted, hreadable.within⟩

/-- The metadata of a script that was read. -/
theorem kept_of_parse {source : String} {s : Script} (h : parse source = .ok s) :
    ∀ v, s.metadata = some v → Kept v := by
  obtain ⟨t, ht, h⟩ := bind_eq_ok.mp h
  obtain ⟨_, -, h⟩ := bind_eq_ok.mp h
  obtain rfl := Except.ok.inj h
  have hput : ∀ f ∈ record.fields, ∀ n x y, (∀ v, x.metadata = some v → Kept v) →
      f.put 127 n x = .ok y → ∀ v, y.metadata = some v → Kept v := by
    simp only [record, List.forall_mem_cons, List.not_mem_nil, false_imp_iff, implies_true,
      and_true]
    refine ⟨fun n x y _ hy => ?_, fun n x y hx hy => ?_, fun n x y hx hy => ?_⟩
    · obtain ⟨v, hv, rfl⟩ := map_eq_ok.mp hy
      rintro w rfl
      exact kept_of_optional hv
    · obtain ⟨ls, -, rfl⟩ := map_eq_ok.mp hy
      exact hx
    · obtain ⟨e, -, rfl⟩ := map_eq_ok.mp hy
      exact hx
  exact holds_of_decoder nofun hput ht

/-- A script comes back from its text if there are no floating-point numbers in its metadata. -/
theorem restores_of_kept {s : Script}
    (kept : ∀ v, s.metadata = some v → Kept v ∧ v.Throughout Value.Exact) : format.Restores s := by
  refine Format.restores_of_follows (Shape.follows_decoder shape_describes) ?_
    (read?_eq_some.mpr (heldBy_toJson fun v hv => (kept v hv).1))
  refine writable_toJson fun v hv => ?_
  obtain ⟨hkept, hexact⟩ := kept v hv
  exact ⟨hexact, hkept.sorted.imp fun _ => Value.SortedKeys.distinct, hkept.within⟩

end Script

namespace Selection

def format : Format Selection := ⟨tagged.decoder, toJson⟩

theorem read?_toJson (s : Selection) : Form.read? forms s.toJson = some s := by
  cases s with
  | main => rfl
  | choice index =>
    have hindex : Value.index? (.index index) = some index := by
      simp [Value.index, Value.index?, Integer.ofUInt64]
    have hread : Form.read? forms (choice index).toJson =
        ((Value.index? (.index index)).map fun n _ => choice n).map (· (choice 0)) := rfl
    rw [hread, hindex]
    rfl

theorem writable_toJson (s : Selection) : s.toJson.Writable 1 := by
  cases s with
  | main => exact (Value.Fields.text "kind" "main").object (by decide)
  | choice index =>
    have hindex : Value.Fields 0 ["index"] [("index", .index index)] :=
      .one _ (Value.writable_plain rfl trivial)
    exact ((Value.Fields.text "kind" "option").append hindex).object (by decide)

theorem restores (s : Selection) : format.Restores s :=
  Format.restores_of_follows (Form.follows_decoder forms_describe)
    (s.writable_toJson.mono (by decide)) s.read?_toJson

end Selection

namespace Action

def format : Format Action := ⟨tagged.decoder, toJson⟩

theorem writable_toJson (a : Action) : a.toJson.Writable 1 := by
  rw [← toJson_selection]
  exact a.selection.writable_toJson

theorem restores (a : Action) : format.Restores a := by
  have hread : decode tagged.decoder a.selection.toJson.compact = .ok (ofSelection a.selection) :=
    Tagged.decode_relaxes ofSelection_relaxes a.selection.restores
  rwa [toJson_selection, ofSelection_selection] at hread

theorem read?_toJson (a : Action) : Form.read? forms a.toJson = some a :=
  Format.read_of_restores (Form.follows_decoder forms_describe)
    (a.writable_toJson.mono (by decide)) a.restores

end Action

namespace Event

def format : Format Event := ⟨tagged.decoder, toJson⟩

theorem read?_toJson (e : Event) : Form.read? forms e.toJson = some e := by
  cases e <;> rfl

theorem writable_toJson (e : Event) : e.toJson.Writable 1 := by
  cases e with
  | lineUpdate => exact (Value.Fields.text "kind" "lineUpdate").object (by decide)
  | finished => exact (Value.Fields.text "kind" "end").object (by decide)
  | message s =>
    exact ((Value.Fields.text "kind" "message").append (.text "text" s)).object (by decide)

theorem restores (e : Event) : format.Restores e :=
  Format.restores_of_follows (Form.follows_decoder forms_describe)
    (e.writable_toJson.mono (by decide)) e.read?_toJson

end Event

namespace Entry

def format : Format Entry := ⟨tagged.decoder, toJson⟩

theorem read?_toJson (e : Entry) : Form.read? forms e.toJson = some e := by
  cases e with
  | line speaker text choices =>
    have hchoices : Value.list? Value.text? (.list (choices.map .text)) = some choices :=
      @list?_map String Value.text? .text (fun _ => rfl) choices
    have hread : Form.read? forms (line speaker text choices).toJson =
        ((Value.list? Value.text? (.list (choices.map .text))).map setChoices).map
          (· (line speaker text [])) := rfl
    rw [hread, hchoices]
    rfl
  | _ => rfl

theorem writable_toJson (e : Entry) : e.toJson.Writable 2 := by
  cases e with
  | line speaker text choices =>
    have hchoices : (Value.list (choices.map .text)).Writable 1 :=
      Value.writable_list (List.forall_mem_map.mpr fun s _ => Value.writable_text 0 s)
    have hfields := (Value.Fields.text "speaker" speaker).append <|
      (Value.Fields.text "text" text).append (.one "options" hchoices)
    exact ((Value.Fields.text "kind" "line").append hfields).object (by decide)
  | cleared => exact (Value.Fields.text "kind" "cleared").object (by decide)
  | finished => exact (Value.Fields.text "kind" "end").object (by decide)
  | message s =>
    exact ((Value.Fields.text "kind" "message").append (.text "text" s)).object (by decide)

theorem restores (e : Entry) : format.Restores e :=
  Format.restores_of_follows (Form.follows_decoder forms_describe)
    (e.writable_toJson.mono (by decide)) e.read?_toJson

end Entry

namespace Expectation

def format : Format Expectation := ⟨tagged.decoder, toJson⟩

theorem writable_toJson (x : Expectation) : x.toJson.Writable 2 := by
  obtain ⟨e, rfl⟩ := x.exists_ofEntry
  rw [toJson_ofEntry]
  exact e.writable_toJson

/-- The text of an entry is read as what is expected of it. -/
theorem restores (x : Expectation) : format.Restores x := by
  obtain ⟨e, rfl⟩ := x.exists_ofEntry
  have hread : decode tagged.decoder e.toJson.compact = .ok (ofEntry e) :=
    Tagged.decode_relaxes ofEntry_relaxes e.restores
  rwa [← toJson_ofEntry] at hread

theorem read?_toJson (x : Expectation) : Form.read? forms x.toJson = some x :=
  Format.read_of_restores (Form.follows_decoder forms_describe)
    (x.writable_toJson.mono (by decide)) x.restores

end Expectation

namespace TestCase

def format : Format TestCase := ⟨record.decoder, toJson⟩

theorem read?_toJson (c : TestCase) : shape.read? c.toJson = some c := by
  have hactions := list?_map Action.read?_toJson c.actions
  have hexpected := list?_map Expectation.read?_toJson c.expected
  have hrecord : c.toJson.isRecord shape.names := rfl
  rw [Shape.read?, if_pos hrecord]
  simp only [shape, List.foldl_cons, List.foldl_nil, fill_needed, fill_withDefault [],
    fill_bind, fill_map]
  simp [toJson, Value.field?, Shape.Field.needed, Shape.Field.withDefault, given?, Value.text?,
    hactions, hexpected]

theorem writable_toJson (c : TestCase) : c.toJson.Writable 4 := by
  have hactions : (Value.list (c.actions.map Action.toJson)).Writable 3 :=
    Value.writable_list (List.forall_mem_map.mpr fun a _ => a.writable_toJson.mono (by decide))
  have hexpected : (Value.list (c.expected.map Expectation.toJson)).Writable 3 :=
    Value.writable_list (List.forall_mem_map.mpr fun x _ => x.writable_toJson)
  exact ((Value.Fields.text "schemaVersion" c.schema).append <|
    (Value.Fields.one "actions" hactions).append (.one "expectedEvents" hexpected)).object (by decide)

theorem restores (c : TestCase) : format.Restores c :=
  Format.restores_of_follows (Shape.follows_decoder shape_describes)
    (c.writable_toJson.mono (by decide)) c.read?_toJson

end TestCase

/-- Every document comes back from its own text, scripts if there are no floating-point numbers in
their metadata; and the text of what was read stays as it is. -/
theorem documents_lossless :
    Ending.format.Lossless ∧ Choice.format.Lossless ∧ Line.format.Lossless ∧
      Selection.format.Lossless ∧ Action.format.Lossless ∧ Event.format.Lossless ∧
      Entry.format.Lossless ∧ Expectation.format.Lossless ∧ TestCase.format.Lossless ∧
      (∀ s : Script, (∀ v, s.metadata = some v → Script.Kept v ∧ v.Throughout Value.Exact) →
        Script.format.Restores s) ∧
      ∀ source s, Script.parse source = .ok s →
        (∀ v, s.metadata = some v → v.Throughout Value.Exact) → Script.format.Settles s := by
  refine ⟨Format.lossless_of_restores Ending.restores, Format.lossless_of_restores Choice.restores,
    Format.lossless_of_restores Line.restores, Format.lossless_of_restores Selection.restores,
    Format.lossless_of_restores Action.restores, Format.lossless_of_restores Event.restores,
    Format.lossless_of_restores Entry.restores, Format.lossless_of_restores Expectation.restores,
    Format.lossless_of_restores TestCase.restores, ?_, ?_⟩
  · intro s kept
    exact Script.restores_of_kept kept
  · intro source s hparse exact
    have hkept := Script.kept_of_parse hparse
    exact (Script.restores_of_kept fun v hv => ⟨hkept v hv, exact v hv⟩).settles

/-- Metadata whose members stand in another order, and a line that is a list of its fields. -/
theorem tags_come_back :
    let source := "\x7b\"metadata\":\x7b\"b\":[true],\"a\":\"\\u0000\"\x7d," ++
      "\"lines\":[[null,null,null,\"\\\"Hi\\\"\"]]\x7d"
    let tags : Value := .object [("a", .text "\x00"), ("b", .list [.bool true])]
    let s : Script := { lines := [{ text := "\"Hi\"" }], metadata := some tags }
    Script.parse source = .ok s ∧ tags.Throughout Value.Exact ∧ Script.format.Restores s ∧
      Script.format.Settles s ∧ Script.format.encode s ≠ source := by
  intro source tags s
  let line : Value := .list [.null, .null, .null, .text "\"Hi\""]
  let v : Value := .object [("metadata", .object [("b", .list [.bool true]), ("a", .text "\x00")]),
    ("lines", .list [line])]
  have hsource : source = v.compact := by decide +kernel
  have hline : (Value.list [line]).Writable 2 := by
    have hnull : Value.null.Writable 0 := Value.writable_plain rfl trivial
    refine Value.writable_list (List.forall_mem_singleton.mpr (Value.writable_list ?_))
    simp [Value.writable_text, hnull]
  have hlist : (Value.list [.bool true]).Writable 1 :=
    Value.writable_list (List.forall_mem_singleton.mpr (Value.writable_plain rfl trivial))
  have htags : tags.Writable 2 :=
    ((Value.Fields.text "a" _).append (.one "b" hlist)).object (by decide)
  have hmetadata : (Value.object [("b", .list [.bool true]), ("a", .text "\x00")]).Writable 2 :=
    ((Value.Fields.one "b" hlist).append (.text "a" _)).object (by decide)
  have hv : v.Writable 3 :=
    ((Value.Fields.one "metadata" hmetadata).append (.one "lines" hline)).object (by decide)
  have hparse : Script.parse source = .ok s := by
    have hread := toOption_decode_compact (Shape.follows_decoder Script.shape_describes)
      (hv.mono (show 3 ≤ 127 by decide))
    have hshape : Script.shape.read? v = some s := by rfl
    rw [hsource]
    exact toOption_eq_some.mp (hread.trans hshape)
  have exact : ∀ w, s.metadata = some w → w.Throughout Value.Exact := by
    rintro w ⟨⟩
    exact htags.exact
  have hkept := Script.kept_of_parse hparse
  obtain ⟨-, -, -, -, -, -, -, -, -, restores, settles⟩ := documents_lossless
  exact ⟨hparse, htags.exact, restores s fun w hw => ⟨hkept w hw, exact w hw⟩,
    settles source s hparse exact, by decide +kernel⟩

end Dialogue
