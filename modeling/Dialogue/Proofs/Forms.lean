import Dialogue.Proofs.Shapes

/-!
# The forms of a tagged value

The tag is looked up first, wherever it stands; the rest is then read as a record. A tagged value is
checked as a whole before its fields are looked at, which no value fails that is spelled at all.
-/
namespace Dialogue.Json

variable {α : Type}

/-- A tag is a text that names one of the variants. -/
theorem Tagged.tag_eq_ok {t : Tagged α} {n : Node} {v : Variant α} :
    t.tag n = .ok v ↔ ∃ q name, n = .text q ∧ q.read = .ok name ∧
      t.variants.find? (·.tag = name) = some v := by
  constructor
  · intro h
    cases n with
    | text q =>
      obtain ⟨name, hname, h⟩ := bind_eq_ok.mp h
      refine ⟨q, name, rfl, hname, ?_⟩
      cases hfind : t.variants.find? (·.tag = name) with
      | none =>
        rw [hfind] at h
        cases h
      | some w =>
        rw [hfind] at h
        rw [Except.ok.inj h]
    | _ =>
      obtain ⟨_, -, h⟩ := bind_eq_ok.mp h
      cases h
  · rintro ⟨q, name, rfl, hname, hfind⟩
    refine bind_eq_ok.mpr ⟨name, hname, ?_⟩
    simp only [hfind]

/-- One of the forms of a tagged value, told without looking at how its fields are decoded. -/
structure Form (α : Type) where
  tag : String
  body : Shape α

namespace Form

def Describes (f : Form α) (v : Variant α) : Prop := f.tag = v.tag ∧ f.body.Describes v.body

def named? (forms : List (Form α)) : Value → Option (Form α)
  | .text tag => forms.find? (·.tag = tag)
  | _ => none

/-- The tagged value that a value stands for. -/
def read? (forms : List (Form α)) : Value → Option α
  | .object members =>
    (members.lookup Tagged.tagField).bind fun tag =>
      (named? forms tag).bind fun form =>
        form.body.read? (.object (members.filter (·.1 ≠ Tagged.tagField)))
  | .list (tag :: rest) => (named? forms tag).bind fun form => form.body.read? (.list rest)
  | _ => none

variable {t : Tagged α} {forms : List (Form α)}

/-- A tag that is not known, or no text at all, names no form. -/
theorem tag_cases (h : List.Forall₂ Describes forms t.variants) {n : Node} {v : Value}
    (hn : Means n v) :
    ((t.tag n).toOption = none ∧ named? forms v = none) ∨
      ∃ form variant, t.tag n = .ok variant ∧ named? forms v = some form ∧
        form.Describes variant := by
  cases hn with
  | @text q s _ hread =>
    rw [Tagged.tag, hread, named?]
    rcases find?_forall₂ (fun hform => hform.1) h s with ⟨hf, hv⟩ | ⟨form, variant, hf, hv, hform⟩
    · refine .inl ⟨?_, hf⟩
      simp only [bind, Except.bind, hv]
      rfl
    · refine .inr ⟨form, variant, ?_, hf, hform⟩
      simp only [bind, Except.bind, hv]
  | _ => exact .inl ⟨toOption_mismatch _ _, rfl⟩

open Shape (Members)

theorem members_filter {k : Nat} {written : List ((Quoted × Node) × (String × Value))}
    (hm : Members k written) (p : (Quoted × Node) × (String × Value) → Bool) :
    Members k (written.filter p) where
  keys m h := hm.keys m (List.mem_filter.mp h).1
  means m h := hm.means m (List.mem_filter.mp h).1
  distinct m h := hm.distinct m (List.mem_filter.mp h).1
  within m h := hm.within m (List.mem_filter.mp h).1
  nodup := hm.nodup.sublist (List.filter_sublist.map _)

theorem scanMembers_of_others {k : Nat} {written : List ((Quoted × Node) × (String × Value))}
    (hm : Members k written) (others : ∀ m ∈ written, m.2.1 ≠ Tagged.tagField)
    (found : Option (Variant α)) :
    t.scanMembers (k + 1) (written.map (·.1)) found = .ok (found, written.map (·.1)) := by
  induction written with
  | nil => rfl
  | cons m written ih =>
    obtain ⟨hother, hothers⟩ := List.forall_mem_cons.mp others
    have hvalue := value_of_means (hm.means m List.mem_cons_self)
      (hm.distinct m List.mem_cons_self) (hm.within m List.mem_cons_self)
    simp only [List.map_cons, Tagged.scanMembers, hm.keys m List.mem_cons_self, hother, if_false,
      hvalue, ih hm.tail hothers, bind, Except.bind, pure, Except.pure]

/-- The tag is taken out of the members. -/
theorem toOption_scanMembers {k : Nat} {written : List ((Quoted × Node) × (String × Value))}
    (hm : Members k written) :
    (t.scanMembers (k + 1) (written.map (·.1)) none).toOption =
      match written.find? (·.2.1 = Tagged.tagField) with
      | none => some (none, written.map (·.1))
      | some m => (t.tag m.1.2).toOption.map fun v =>
        (some v, (written.filter (·.2.1 ≠ Tagged.tagField)).map (·.1)) := by
  induction written with
  | nil => rfl
  | cons m written ih =>
    have hkey := hm.keys m List.mem_cons_self
    by_cases htag : m.2.1 = Tagged.tagField
    · have hothers : ∀ n ∈ written, n.2.1 ≠ Tagged.tagField := fun n hn heq =>
        (List.nodup_cons.mp hm.nodup).1 (List.mem_map.mpr ⟨n, hn, heq.trans htag.symm⟩)
      have hfilter : (m :: written).filter (·.2.1 ≠ Tagged.tagField) = written := by
        rw [List.filter_cons_of_neg (by simpa using htag), List.filter_eq_self]
        simpa using hothers
      rw [List.find?_cons, hfilter, List.map_cons, Tagged.scanMembers, hkey]
      simp only [htag, decide_true, bind, Except.bind, if_true, Option.isSome_none,
        Bool.false_eq_true, if_false, check]
      cases ht : t.tag m.1.2 with
      | error e => rfl
      | ok v =>
        simp only [scanMembers_of_others hm.tail hothers]
        rfl
    · have hvalue := value_of_means (hm.means m List.mem_cons_self)
        (hm.distinct m List.mem_cons_self) (hm.within m List.mem_cons_self)
      have hstep : t.scanMembers (k + 1) ((m :: written).map (·.1)) none =
          (t.scanMembers (k + 1) (written.map (·.1)) none).map fun r => (r.1, m.1 :: r.2) := by
        simp only [List.map_cons, Tagged.scanMembers, hkey, htag, if_false, hvalue, bind,
          Except.bind]
        cases t.scanMembers (k + 1) (written.map (·.1)) none <;> rfl
      rw [hstep, toOption_map, ih hm.tail, List.find?_cons,
        List.filter_cons_of_pos (by simpa using htag)]
      simp only [htag, decide_false]
      cases written.find? (·.2.1 = Tagged.tagField) with
      | none => rfl
      | some n =>
        simp only [Option.map_map]
        rfl

theorem toOption_ofMembers (h : List.Forall₂ Describes forms t.variants) {k : Nat}
    {written : List ((Quoted × Node) × (String × Value))} (hm : Members k written)
    {members : List (String × Value)} (order : (written.map (·.2)).Perm members) :
    (t.ofMembers (k + 1) (written.map (·.1)) .closed).toOption = read? forms (.object members) := by
  have hkeys : (members.map (·.1)).Nodup := by
    rw [← (order.map _).nodup_iff, List.map_map]
    exact hm.nodup
  rw [Tagged.ofMembers, toOption_bind, toOption_scanMembers hm, read?]
  cases hfind : written.find? (·.2.1 = Tagged.tagField) with
  | none =>
    have hlookup : members.lookup Tagged.tagField = none := by
      rw [← Option.not_isSome_iff_eq_none, Shape.isSome_lookup, ← (order.map _).mem_iff,
        List.map_map, List.mem_map]
      rintro ⟨m, hmem, htag⟩
      exact List.find?_eq_none.mp hfind m hmem (by simpa using htag)
    rw [hlookup]
    rfl
  | some m =>
    have hmem : m ∈ written := List.mem_of_find?_eq_some hfind
    have htag : m.2.1 = Tagged.tagField := by simpa using List.find?_some hfind
    have hlookup : members.lookup Tagged.tagField = some m.2.2 := by
      rw [Table.lookup_eq_some hkeys, ← htag]
      exact order.mem_iff.mp (List.mem_map_of_mem hmem)
    have horder : ((written.filter (·.2.1 ≠ Tagged.tagField)).map (·.2)).Perm
        (members.filter (·.1 ≠ Tagged.tagField)) := by
      have hfilter := order.filter (·.1 ≠ Tagged.tagField)
      rw [List.filter_map] at hfilter
      exact hfilter
    rw [hlookup, Option.bind_some]
    rcases tag_cases h (hm.means m hmem) with ⟨hv, hf⟩ | ⟨form, v, hv, hf, hform⟩
    · simp only [hv, hf]
      rfl
    · have hbody := Shape.toOption_ofMembers hform.2 (members_filter hm _) horder
      simp only [hv, hf, toOption_ok, Option.map_some, Option.bind_some, toOption_bind,
        Shape.read_closed]
      exact hbody

theorem follows_decoder (h : List.Forall₂ Describes forms t.variants) :
    Follows t.decoder (read? forms) := by
  intro k n v hn distinct within
  cases hn with
  | list items each =>
    obtain ⟨j, rfl, hbelow⟩ := within.exists_of_container rfl
    cases items with
    | nil => rfl
    | cons i items =>
      obtain ⟨hi, hmeans⟩ := List.forall_mem_cons.mp each
      have hchild : ∀ i' ∈ items, i'.2 ∈ (Value.list ((i :: items).map (·.2))).children :=
        fun i' hi' => List.mem_map_of_mem (List.mem_cons_of_mem i hi')
      have hkeys := fun i' hi' => distinct.child (hchild i' hi')
      have hwithin := fun i' hi' => hbelow _ (hchild i' hi')
      have hvalues : values (j + 1) (items.map (·.1)) =
          .ok (items.map fun i => canonical i.2) := by
        rw [values_eq_mapM]
        exact mapM_eq_ok fun i' hi' =>
          value_of_means (hmeans i' hi') (hkeys i' hi') (hwithin i' hi')
      rw [Tagged.decoder, descend_succ, List.map_cons, List.map_cons, read?]
      rcases tag_cases h hi with ⟨hv, hf⟩ | ⟨form, variant, hv, hf, hform⟩
      · have htag : (t.ofItems (j + 1) (i.1 :: items.map (·.1)) .closed).toOption = none := by
          rw [Tagged.ofItems, toOption_bind, hv]
          rfl
        rw [hf]
        exact htag
      · have htail := Shape.toOption_ofTail hform.2 hmeans hkeys hwithin
        simp only [Tagged.ofItems, hv, hf, hvalues, bind, Except.bind, Option.bind_some,
          ListEnd.fault?, check]
        exact htail
  | object written keys each order =>
    obtain ⟨j, rfl, hbelow⟩ := within.exists_of_container rfl
    rw [Tagged.decoder, descend_succ]
    exact toOption_ofMembers h (Shape.members_of_object keys each order distinct hbelow) order
  | _ => exact toOption_mismatch _ _

end Form

end Dialogue.Json
