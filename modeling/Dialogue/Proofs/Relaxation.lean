import Mathlib.Data.List.Forall2
import Dialogue.Proofs.Forms

/-!
# Formats that require less

Two formats of different types may have the same tags and the same fields, and one of them may
require fewer of these. It decodes whatever the other does, and to the value that goes with it.
-/
namespace Dialogue.Json

variable {α β : Type}

/-- The same field in another type, required only where the first one is. -/
structure Record.Field.Relaxes (g : Field β) (c : α → β) (f : Field α) : Prop where
  name : g.name = f.name
  put : ∀ {depth n x y}, f.put depth n x = .ok y → g.put depth n (c x) = .ok (c y)
  required : g.required → f.required

namespace Record

section

variable {γ : Type} {d : Decoder γ} {set : γ → α → α} {set' : γ → β → β} {c : α → β} {name : String}

theorem Field.needed_relaxes (alike : ∀ u x, set' u (c x) = c (set u x)) :
    (Field.needed name d set').Relaxes c (.needed name d set) where
  name := rfl
  put := by
    intro depth n x y h
    obtain ⟨u, hu, rfl⟩ := map_eq_ok.mp h
    exact map_eq_ok.mpr ⟨u, hu, alike u x⟩
  required := id

theorem Field.withDefault_relaxes (alike : ∀ u x, set' u (c x) = c (set u x)) :
    (Field.withDefault name d set').Relaxes c (.needed name d set) where
  name := rfl
  put := (needed_relaxes alike).put
  required := nofun

end

/-- The same fields in the same order, some of them no longer required. -/
structure Relaxes (s : Record β) (c : α → β) (r : Record α) : Prop where
  initial : s.initial = c r.initial
  fields : List.Forall₂ (Field.Relaxes · c ·) s.fields r.fields

variable {s : Record β} {c : α → β} {r : Record α}

theorem putMembers_relaxes (h : s.Relaxes c r) {depth : Nat} {members : List (Quoted × Node)}
    {given given' : List String} {x y : α}
    (hr : r.putMembers depth members given x = .ok (given', y)) :
    s.putMembers depth members given (c x) = .ok (given', c y) := by
  induction members generalizing given x with
  | nil =>
    obtain ⟨rfl, rfl⟩ := Prod.mk.inj (Except.ok.inj hr)
    rfl
  | cons m members ih =>
    obtain ⟨key, hkey, hr⟩ := bind_eq_ok.mp hr
    refine bind_eq_ok.mpr ⟨key, hkey, ?_⟩
    rcases find?_forall₂ (fun hgf => hgf.name) h.fields key with ⟨hs, hf⟩ | ⟨g, f, hs, hf, hgf⟩
    · simp only [field?, hf] at hr
      simp only [field?, hs]
      obtain ⟨u, hskip, hr⟩ := bind_eq_ok.mp hr
      exact bind_eq_ok.mpr ⟨u, hskip, ih hr⟩
    · simp only [field?, hf] at hr
      simp only [field?, hs]
      split at hr
      · cases hr
      · next hnew =>
        obtain ⟨z, hput, hr⟩ := bind_eq_ok.mp hr
        rw [if_neg hnew]
        exact bind_eq_ok.mpr ⟨c z, hgf.put hput, ih hr⟩

theorem missing?_eq_none {given : List String} :
    r.missing? given = none ↔ ∀ f ∈ r.fields, f.required → f.name ∈ given := by
  simp [missing?, List.find?_eq_none]

/-- Whoever has all that is required has all that is still required. -/
theorem forall_required {gs : List (Field β)} {fs : List (Field α)}
    (h : List.Forall₂ (Field.Relaxes · c ·) gs fs) {P : String → Prop}
    (each : ∀ f ∈ fs, f.required → P f.name) : ∀ g ∈ gs, g.required → P g.name := by
  induction h with
  | nil => exact List.forall_mem_nil _
  | cons hgf _ ih =>
    obtain ⟨hf, hfs⟩ := List.forall_mem_cons.mp each
    exact List.forall_mem_cons.mpr ⟨fun hg => hgf.name ▸ hf (hgf.required hg), ih hfs⟩

theorem ofMembers_relaxes (h : s.Relaxes c r) {depth : Nat} {members : List (Quoted × Node)}
    {ending : ObjectEnd} {x : α} (hr : r.ofMembers depth members ending = .ok x) :
    s.ofMembers depth members ending = .ok (c x) := by
  obtain ⟨⟨given, y⟩, hput, hr⟩ := bind_eq_ok.mp hr
  obtain ⟨u, hread, hr⟩ := bind_eq_ok.mp hr
  obtain ⟨_, hmissing, hr⟩ := bind_eq_ok.mp hr
  have hnone : s.missing? given = none := by
    cases hfield : r.missing? given with
    | none => exact missing?_eq_none.mpr (forall_required h.fields (missing?_eq_none.mp hfield))
    | some f =>
      rw [hfield] at hmissing
      cases hmissing
  obtain rfl := Except.ok.inj hr
  refine bind_eq_ok.mpr ⟨(given, c y), ?_, bind_eq_ok.mpr ⟨u, hread, ?_⟩⟩
  · rw [h.initial]
    exact putMembers_relaxes h hput
  · rw [hnone]
    rfl

theorem putItems_relaxes {gs : List (Field β)} {fs : List (Field α)}
    (h : List.Forall₂ (Field.Relaxes · c ·) gs fs) {depth : Nat} {items : List Node} {x y : α}
    (hr : putItems depth fs items x = .ok y) : putItems depth gs items (c x) = .ok (c y) := by
  induction h generalizing items x with
  | nil =>
    obtain rfl := Except.ok.inj hr
    rfl
  | cons hgf _ ih =>
    cases items with
    | nil =>
      obtain rfl := Except.ok.inj hr
      rfl
    | cons n items =>
      obtain ⟨z, hput, hr⟩ := bind_eq_ok.mp hr
      exact bind_eq_ok.mpr ⟨c z, hgf.put hput, ih hr⟩

theorem tooFew_eq_none {length : Nat} :
    r.tooFew length = none ↔ ∀ f ∈ r.fields.drop length, f.required = false := by
  rw [← Option.isNone_iff_eq_none, Shape.isNone_tooFew]
  simp

theorem ofTail_relaxes (h : s.Relaxes c r) {depth : Nat} {items : List Node} {x : α}
    (hr : r.ofTail depth items = .ok x) : s.ofTail depth items = .ok (c x) := by
  obtain ⟨y, hput, hr⟩ := bind_eq_ok.mp hr
  obtain ⟨u, hfew, hr⟩ := bind_eq_ok.mp hr
  have hnone : s.tooFew items.length = none := by
    cases hfault : r.tooFew items.length with
    | none =>
      have hoptional := tooFew_eq_none.mp hfault
      have hrequired := forall_required (List.forall₂_drop items.length h.fields)
        (P := fun _ => False) fun f hf hreq => by simp [hoptional f hf] at hreq
      exact tooFew_eq_none.mpr fun g hg => by simpa using hrequired g hg
    | some fault =>
      rw [hfault] at hfew
      cases hfew
  obtain ⟨v, hmany, hr⟩ := bind_eq_ok.mp hr
  obtain rfl := Except.ok.inj hr
  refine bind_eq_ok.mpr ⟨c y, ?_, bind_eq_ok.mpr ⟨u, ?_, bind_eq_ok.mpr ⟨v, ?_, rfl⟩⟩⟩
  · rw [h.initial]
    exact putItems_relaxes h.fields hput
  · rw [hnone]
    rfl
  · rwa [h.fields.length_eq]

end Record

structure Variant.Relaxes (w : Variant β) (c : α → β) (v : Variant α) : Prop where
  tag : w.tag = v.tag
  body : w.body.Relaxes c v.body

theorem Variant.unit_relaxes (c : α → β) (tag : String) (x : α) :
    (unit tag (c x)).Relaxes c (unit tag x) :=
  ⟨rfl, rfl, .nil⟩

namespace Tagged

def Relaxes (u : Tagged β) (c : α → β) (t : Tagged α) : Prop :=
  List.Forall₂ (Variant.Relaxes · c ·) u.variants t.variants

variable {u : Tagged β} {c : α → β} {t : Tagged α}

theorem tag_relaxes (h : u.Relaxes c t) {n : Node} {v : Variant α} (hv : t.tag n = .ok v) :
    ∃ w, u.tag n = .ok w ∧ w.Relaxes c v := by
  obtain ⟨q, name, rfl, hname, hfind⟩ := tag_eq_ok.mp hv
  rcases find?_forall₂ (fun hwv => hwv.tag) h name with ⟨-, hnone⟩ | ⟨w, v', hw, hv', hwv⟩
  · cases hfind.symm.trans hnone
  · obtain rfl := Option.some.inj (hfind.symm.trans hv')
    exact ⟨w, tag_eq_ok.mpr ⟨q, name, rfl, hname, hw⟩, hwv⟩

theorem scanMembers_relaxes (h : u.Relaxes c t) {depth : Nat} {members : List (Quoted × Node)}
    {found a : Option (Variant α)} {found' : Option (Variant β)} {others : List (Quoted × Node)}
    (hfound : Option.Rel (Variant.Relaxes · c ·) found' found)
    (ht : t.scanMembers depth members found = .ok (a, others)) :
    ∃ b, Option.Rel (Variant.Relaxes · c ·) b a ∧
      u.scanMembers depth members found' = .ok (b, others) := by
  induction members generalizing found found' others with
  | nil =>
    obtain ⟨rfl, rfl⟩ := Prod.mk.inj (Except.ok.inj ht)
    exact ⟨found', hfound, rfl⟩
  | cons m members ih =>
    obtain ⟨key, hkey, ht⟩ := bind_eq_ok.mp ht
    by_cases htag : key = tagField
    · rw [if_pos htag] at ht
      obtain ⟨i, hcheck, ht⟩ := bind_eq_ok.mp ht
      obtain ⟨v, hv, ht⟩ := bind_eq_ok.mp ht
      obtain ⟨w, hw, hwv⟩ := tag_relaxes h hv
      obtain ⟨b, hb, hu⟩ := ih (.some hwv) ht
      have hsome : found'.isSome = found.isSome := by cases hfound <;> rfl
      refine ⟨b, hb, bind_eq_ok.mpr ⟨key, hkey, ?_⟩⟩
      rw [if_pos htag, hsome]
      exact bind_eq_ok.mpr ⟨i, hcheck, bind_eq_ok.mpr ⟨w, hw, hu⟩⟩
    · rw [if_neg htag] at ht
      obtain ⟨v, hv, ht⟩ := bind_eq_ok.mp ht
      obtain ⟨⟨a', others'⟩, hrest, ht⟩ := bind_eq_ok.mp ht
      obtain ⟨rfl, rfl⟩ := Prod.mk.inj (Except.ok.inj ht)
      obtain ⟨b, hb, hu⟩ := ih hfound hrest
      refine ⟨b, hb, bind_eq_ok.mpr ⟨key, hkey, ?_⟩⟩
      rw [if_neg htag]
      exact bind_eq_ok.mpr ⟨v, hv, bind_eq_ok.mpr ⟨(b, others'), hu, rfl⟩⟩

theorem ofMembers_relaxes (h : u.Relaxes c t) {depth : Nat} {members : List (Quoted × Node)}
    {ending : ObjectEnd} {x : α} (ht : t.ofMembers depth members ending = .ok x) :
    u.ofMembers depth members ending = .ok (c x) := by
  obtain ⟨⟨found, others⟩, hscan, ht⟩ := bind_eq_ok.mp ht
  obtain ⟨i, hending, ht⟩ := bind_eq_ok.mp ht
  obtain ⟨found', hfound, hscan'⟩ := scanMembers_relaxes h .none hscan
  refine bind_eq_ok.mpr ⟨(found', others), hscan', ?_⟩
  cases hfound with
  | none => cases ht
  | some hwv => exact bind_eq_ok.mpr ⟨i, hending, Record.ofMembers_relaxes hwv.body ht⟩

theorem ofItems_relaxes (h : u.Relaxes c t) {depth : Nat} {items : List Node} {ending : ListEnd}
    {x : α} (ht : t.ofItems depth items ending = .ok x) :
    u.ofItems depth items ending = .ok (c x) := by
  cases items with
  | nil =>
    obtain ⟨_, -, ht⟩ := bind_eq_ok.mp ht
    cases ht
  | cons first rest =>
    obtain ⟨v, hv, ht⟩ := bind_eq_ok.mp ht
    obtain ⟨vs, hvs, ht⟩ := bind_eq_ok.mp ht
    obtain ⟨i, hending, ht⟩ := bind_eq_ok.mp ht
    obtain ⟨w, hw, hwv⟩ := tag_relaxes h hv
    exact bind_eq_ok.mpr ⟨w, hw, bind_eq_ok.mpr ⟨vs, hvs,
      bind_eq_ok.mpr ⟨i, hending, Record.ofTail_relaxes hwv.body ht⟩⟩⟩

theorem decoder_relaxes (h : u.Relaxes c t) {depth : Nat} {n : Node} {x : α}
    (ht : t.decoder depth n = .ok x) : u.decoder depth n = .ok (c x) := by
  cases n with
  | list items ending =>
    obtain ⟨inner, hinner, ht⟩ := bind_eq_ok.mp ht
    exact bind_eq_ok.mpr ⟨inner, hinner, ofItems_relaxes h ht⟩
  | object members ending =>
    obtain ⟨inner, hinner, ht⟩ := bind_eq_ok.mp ht
    exact bind_eq_ok.mpr ⟨inner, hinner, ofMembers_relaxes h ht⟩
  | _ =>
    obtain ⟨_, -, ht⟩ := bind_eq_ok.mp ht
    cases ht

theorem decode_relaxes (h : u.Relaxes c t) {source : String} {x : α}
    (ht : decode t.decoder source = .ok x) : decode u.decoder source = .ok (c x) := by
  obtain ⟨y, hy, ht⟩ := bind_eq_ok.mp ht
  obtain ⟨i, htrailing, ht⟩ := bind_eq_ok.mp ht
  obtain rfl := Except.ok.inj ht
  exact bind_eq_ok.mpr ⟨c y, decoder_relaxes h hy, bind_eq_ok.mpr ⟨i, htrailing, rfl⟩⟩

/-- Formats that require the same decode the same texts. -/
theorem toOption_decode_map {b : β → α} (h : u.Relaxes c t) (h' : t.Relaxes b u)
    (inverse : ∀ y, c (b y) = y) (source : String) :
    (decode u.decoder source).toOption = (decode t.decoder source).toOption.map c := by
  refine Option.ext fun y => ?_
  simp only [Option.map_eq_some_iff, toOption_eq_some]
  constructor
  · exact fun hu => ⟨b y, decode_relaxes h' hu, inverse y⟩
  · rintro ⟨x, ht, rfl⟩
    exact decode_relaxes h ht

end Tagged

end Dialogue.Json
