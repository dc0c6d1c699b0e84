import Dialogue.Proofs.Canonical

/-!
# What decoders make of a value

A decoder works on the tree of a text. For a text that spells a value it can be told from the value
alone whether it goes through, and to what result.
-/
namespace Dialogue.Json

variable {α β : Type}

theorem toOption_bind (x : Except Fault α) (f : α → Except Fault β) :
    (x >>= f).toOption = x.toOption.bind fun a => (f a).toOption := by
  cases x <;> rfl

theorem toOption_map (x : Except Fault α) (f : α → β) :
    (x.map f).toOption = x.toOption.map f := by
  cases x <;> rfl

theorem toOption_ok (a : α) : (Except.ok a : Except Fault α).toOption = some a := rfl

theorem toOption_eq_some {x : Except Fault α} {a : α} : x.toOption = some a ↔ x = .ok a := by
  cases x <;> simp [Except.toOption]

theorem toOption_check (fault : Option Fault) :
    (check fault).toOption = if fault.isNone then some () else none := by
  cases fault <;> rfl

/-- A decoder goes through on the tree of a value when a function has a result for the value, and
with the same result. -/
def Follows (d : Decoder α) (f : Value → Option α) : Prop :=
  ∀ ⦃k : Nat⦄ ⦃n : Node⦄ ⦃v : Value⦄, Means n v → v.Throughout Value.DistinctKeys → v.Within k →
    (d (k + 1) n).toOption = f v

namespace Value

def text? : Value → Option String
  | .text s => some s
  | _ => none

def index? : Value → Option UInt64
  | .number (.integer i) => if i.val < 0 then none else some (UInt64.ofNat i.val.toNat)
  | _ => none

def optional? (f : Value → Option α) : Value → Option (Option α)
  | .null => some none
  | v => (f v).map some

def list? (f : Value → Option α) : Value → Option (List α)
  | .list items => items.mapM f
  | _ => none

end Value

theorem toOption_mismatch (wanted : Wanted) (n : Node) :
    (mismatch wanted n : Except Fault α).toOption = none := by
  rw [mismatch, toOption_bind]
  cases n.found <;> rfl

theorem follows_text : Follows text Value.text? := by
  intro k n v h _ _
  cases h with
  | text _ hread => simp only [text, hread, Value.text?, Except.toOption]
  | _ => exact toOption_mismatch _ _

theorem follows_index : Follows index Value.index? := by
  intro k n v h _ _
  cases h with
  | @integer m i hn =>
    have hread : m.read = .ok (.integer i) := by simp only [Numeral.read, hn]
    simp only [index, hread, bind, Except.bind, Value.index?]
    split <;> rfl
  | _ => exact toOption_mismatch _ _

theorem follows_value : Follows value fun v => some (canonical v) := fun _ _ _ h distinct within =>
  toOption_eq_some.mpr (value_of_means h distinct within)

theorem follows_optional {d : Decoder α} {f : Value → Option α} (h : Follows d f) :
    Follows (optional d) (Value.optional? f) := by
  intro k n v hn distinct within
  have hd := h hn distinct within
  cases hn with
  | null => rfl
  | _ => simp only [optional, toOption_map, hd, Value.optional?]

theorem toOption_mapM {f : Node → Except Fault α} {g : Value → Option α}
    {items : List (Node × Value)} (h : ∀ i ∈ items, (f i.1).toOption = g i.2) :
    ((items.map (·.1)).mapM f).toOption = (items.map (·.2)).mapM g := by
  induction items with
  | nil => rfl
  | cons i items ih =>
    obtain ⟨hi, hitems⟩ := List.forall_mem_cons.mp h
    simp only [List.map_cons, List.mapM_cons, toOption_bind, hi, ih hitems]
    rfl

theorem mapM_eq_some {β γ : Type} {f : β → Option γ} {holds : γ → β → Prop}
    (h : ∀ {y x}, f y = some x ↔ holds x y) {ys : List β} {xs : List γ} :
    ys.mapM f = some xs ↔ List.Forall₂ holds xs ys := by
  induction ys generalizing xs with
  | nil => cases xs <;> simp
  | cons y ys ih =>
    cases xs with
    | nil => simp [List.mapM_cons, Option.bind_eq_some_iff]
    | cons x xs => simp [List.mapM_cons, Option.bind_eq_some_iff, ih, h]

theorem list_closed (d : Decoder α) (k : Nat) (items : List Node) :
    list d (k + 2) (.list items .closed) = items.mapM (d (k + 1)) := by
  simp only [list, descend_succ, bind, Except.bind, ListEnd.fault?, check, pure, Except.pure]
  cases items.mapM (d (k + 1)) <;> rfl

theorem follows_list {d : Decoder α} {f : Value → Option α} (h : Follows d f) :
    Follows (list d) (Value.list? f) := by
  intro k n v hn distinct within
  cases hn with
  | list items each =>
    obtain ⟨j, rfl, hbelow⟩ := within.exists_of_container rfl
    have hitems : ∀ i ∈ items, (d (j + 1) i.1).toOption = f i.2 := by
      intro i hi
      have hchild : i.2 ∈ (Value.list (items.map (·.2))).children := List.mem_map_of_mem hi
      exact h (each i hi) (distinct.child hchild) (hbelow _ hchild)
    rw [list_closed, toOption_mapM hitems, Value.list?]
  | _ => exact toOption_mismatch _ _

/-- What a decoder makes of a text that spells a value. -/
theorem toOption_decode {d : Decoder α} {f : Value → Option α} (h : Follows d f) {source : String}
    {v : Value} (spells : Spells v source.toList) (distinct : v.Throughout Value.DistinctKeys)
    (within : v.Within 127) : (decode d source).toOption = f v := by
  obtain ⟨n, hn, hdocument⟩ := exists_document_of_spells spells
  have hd : (d depthLimit n).toOption = f v := h hn distinct within
  rw [decode, hdocument, toOption_bind, hd]
  cases f v <;> rfl

namespace Value

/-- What can be decoded from its own compact text: a value without floating-point numbers, with no
key twice in an object, and with no more than so many containers inside one another. -/
structure Writable (n : Nat) (v : Value) : Prop where
  exact : v.Throughout Exact
  distinct : v.Throughout DistinctKeys
  within : v.Within n

theorem writable_plain {n : Nat} {v : Value} (h : v.isContainer = false) (exact : v.Exact) :
    v.Writable n := by
  refine ⟨(throughout_of_plain h).mpr exact, (throughout_of_plain h).mpr ?_, .plain h⟩
  cases v with
  | object members => cases h
  | _ => trivial

theorem writable_text (n : Nat) (s : String) : (text s).Writable n := writable_plain rfl trivial

theorem writable_list {n : Nat} {items : List Value} (h : ∀ v ∈ items, v.Writable n) :
    (list items).Writable (n + 1) where
  exact := throughout_list.mpr ⟨trivial, fun v hv => (h v hv).exact⟩
  distinct := throughout_list.mpr ⟨trivial, fun v hv => (h v hv).distinct⟩
  within := within_list fun v hv => (h v hv).within

theorem writable_object {n : Nat} {members : List (String × Value)}
    (keys : (members.map (·.1)).Nodup) (h : ∀ m ∈ members, m.2.Writable n) :
    (object members).Writable (n + 1) where
  exact := throughout_object.mpr ⟨trivial, fun m hm => (h m hm).exact⟩
  distinct := throughout_object.mpr ⟨keys, fun m hm => (h m hm).distinct⟩
  within := within_object fun m hm => (h m hm).within

theorem Writable.mono {m n : Nat} (hmn : m ≤ n) {v : Value} (h : v.Writable m) : v.Writable n :=
  ⟨h.exact, h.distinct, h.within.mono hmn⟩

end Value

theorem toOption_decode_compact {d : Decoder α} {f : Value → Option α} (h : Follows d f) {v : Value}
    (hv : v.Writable 127) : (decode d v.compact).toOption = f v := by
  have hchars : v.compact.toList = compactChars v := String.toList_ofList
  refine toOption_decode h ?_ hv.distinct hv.within
  rw [hchars]
  exact spells_compactChars hv.exact

end Dialogue.Json
