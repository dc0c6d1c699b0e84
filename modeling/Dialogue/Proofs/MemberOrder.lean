import Mathlib.Data.List.Perm.Basic
import Dialogue.Proofs.RoundTrip

/-!
# The order of members

A tagged value can be read from the members of its object in any order, with the tag at any place
among them, and with others between them that none of its fields is named after. Members that stand
before the tag are kept and read afterwards, which comes to the same.
-/
namespace Dialogue.Json

variable {α : Type}

theorem fault?_of_charsOf {ending : Ending} {ps : List Piece} {cs : List Char}
    (h : charsOf ending ps = .ok cs) : ending.fault? = none := by
  fun_induction charsOf ending ps generalizing cs with
  | case1 =>
    cases hfault : ending.fault? with
    | none => rfl
    | some f => simp [hfault, check, Except.map] at h
  | case2 c ps ih =>
    obtain ⟨ds, hds, -⟩ := map_eq_ok.mp h
    exact ih hds
  | case6 n ps hn hlead m hm ih =>
    obtain ⟨ds, hds, -⟩ := map_eq_ok.mp h
    exact ih hds
  | case8 n ps hn hlead ih =>
    obtain ⟨ds, hds, -⟩ := map_eq_ok.mp h
    exact ih hds
  | _ => cases h

theorem Quoted.skip_of_read {q : Quoted} {s : String} (h : q.read = .ok s) :
    skip (.text q) = .ok () := by
  obtain ⟨cs, hcs, -⟩ := map_eq_ok.mp h
  rw [skip, fault?_of_charsOf hcs]
  rfl

theorem ListEnd.skipFault?_eq_none {ending : ListEnd} (h : check ending.fault? = .ok ()) :
    check ending.skipFault? = .ok () := by
  cases ending with
  | closed => rfl
  | _ => cases h

theorem ObjectEnd.skipFault?_of_read {ending : ObjectEnd} {accept : String → Except Fault Unit}
    (h : ending.read accept = .ok ()) : check ending.skipFault? = .ok () := by
  cases ending with
  | closed => rfl
  | brokenKey key =>
    obtain ⟨_, -, h⟩ := bind_eq_ok.mp h
    obtain ⟨_, -, h⟩ := bind_eq_ok.mp h
    exact h
  | noColon key atEnd =>
    obtain ⟨_, -, h⟩ := bind_eq_ok.mp h
    obtain ⟨_, -, h⟩ := bind_eq_ok.mp h
    cases atEnd <;> cases h
  | _ => cases h

mutual

/-- What can be read can be skipped. -/
theorem skip_of_value {depth : Nat} {v : Value} : ∀ {n : Node}, value depth n = .ok v →
    skip n = .ok ()
  | .null, _ => rfl
  | .bool _, _ => rfl
  | .number _, _ => rfl
  | .text _, h => by
    obtain ⟨_, hread, -⟩ := map_eq_ok.mp h
    exact Quoted.skip_of_read hread
  | .list _ _, h => by
    obtain ⟨_, -, h⟩ := bind_eq_ok.mp h
    obtain ⟨_, hvs, h⟩ := bind_eq_ok.mp h
    obtain ⟨_, hending, -⟩ := bind_eq_ok.mp h
    exact bind_eq_ok.mpr ⟨(), skipItems_of_values hvs, ListEnd.skipFault?_eq_none hending⟩
  | .object _ _, h => by
    obtain ⟨_, -, h⟩ := bind_eq_ok.mp h
    obtain ⟨_, hms, h⟩ := bind_eq_ok.mp h
    obtain ⟨_, hending, -⟩ := bind_eq_ok.mp h
    exact bind_eq_ok.mpr ⟨(), skipMembers_of_memberValues hms, ObjectEnd.skipFault?_of_read hending⟩
  | .absent, h => by cases h
  | .stray, h => by cases h
  | .brokenWord _, h => by cases h
  | .brokenNumber _, h => by cases h
termination_by structural n => n

theorem skipItems_of_values {depth : Nat} {vs : List Value} : ∀ {items : List Node},
    values depth items = .ok vs → skipItems items = .ok ()
  | [], _ => rfl
  | _ :: _, h => by
    obtain ⟨_, hv, h⟩ := bind_eq_ok.mp h
    obtain ⟨_, hvs, -⟩ := bind_eq_ok.mp h
    exact bind_eq_ok.mpr ⟨(), skip_of_value hv, skipItems_of_values hvs⟩
termination_by structural items => items

theorem skipMembers_of_memberValues {depth : Nat} {ms : List (String × Value)} :
    ∀ {members : List (Quoted × Node)}, memberValues depth members = .ok ms →
      skipMembers members = .ok ()
  | [], _ => rfl
  | (_, _) :: _, h => by
    obtain ⟨_, -, h⟩ := bind_eq_ok.mp h
    obtain ⟨_, hv, h⟩ := bind_eq_ok.mp h
    obtain ⟨_, hms, -⟩ := bind_eq_ok.mp h
    exact bind_eq_ok.mpr ⟨(), skip_of_value hv, skipMembers_of_memberValues hms⟩
termination_by structural members => members

end

namespace Record

/-- What one member does to a record and to the fields noted as given. -/
inductive Puts (r : Record α) (depth : Nat) (q : Quoted) (n : Node) :
    List String × α → List String × α → Prop
  | skipped {key : String} {s : List String × α} (read : q.read = .ok key)
      (unknown : r.field? key = none) (skip : skip n = .ok ()) : Puts r depth q n s s
  | put {key : String} {f : Field α} {given : List String} {x y : α} (read : q.read = .ok key)
      (known : r.field? key = some f) (new : key ∉ given) (put : f.put depth n x = .ok y) :
      Puts r depth q n (given, x) (key :: given, y)

variable {r : Record α} {depth : Nat}

theorem putMembers_cons_iff {q : Quoted} {n : Node} {rest : List (Quoted × Node)}
    {s u : List String × α} :
    r.putMembers depth ((q, n) :: rest) s.1 s.2 = .ok u ↔
      ∃ t, r.Puts depth q n s t ∧ r.putMembers depth rest t.1 t.2 = .ok u := by
  constructor
  · intro h
    obtain ⟨key, hkey, h⟩ := bind_eq_ok.mp h
    cases hfield : r.field? key with
    | none =>
      simp only [hfield] at h
      obtain ⟨_, hskip, h⟩ := bind_eq_ok.mp h
      exact ⟨s, .skipped hkey hfield hskip, h⟩
    | some f =>
      simp only [hfield] at h
      split at h
      · cases h
      · next hnew =>
        obtain ⟨y, hy, h⟩ := bind_eq_ok.mp h
        exact ⟨(key :: s.1, y), .put hkey hfield hnew hy, h⟩
  · rintro ⟨t, hputs, h⟩
    cases hputs with
    | @skipped key _ hkey hfield hskip =>
      refine bind_eq_ok.mpr ⟨key, hkey, ?_⟩
      simp only [hfield]
      exact bind_eq_ok.mpr ⟨(), hskip, h⟩
    | @put key f given x y hkey hfield hnew hy =>
      refine bind_eq_ok.mpr ⟨key, hkey, ?_⟩
      simp only [hfield, if_neg hnew]
      exact bind_eq_ok.mpr ⟨y, hy, h⟩

/-- The same record, with the same fields noted as given. -/
structure Alike (s t : List String × α) : Prop where
  given : s.1.Perm t.1
  record : s.2 = t.2

theorem Alike.rfl {s : List String × α} : Alike s s := ⟨.refl _, Eq.refl _⟩

theorem Alike.trans {s t u : List String × α} (h : Alike s t) (h' : Alike t u) : Alike s u :=
  ⟨h.given.trans h'.given, h.record.trans h'.record⟩

theorem Puts.congr {q : Quoted} {n : Node} {s s' t : List String × α} (h : r.Puts depth q n s t)
    (alike : Alike s s') : ∃ t', r.Puts depth q n s' t' ∧ Alike t t' := by
  obtain ⟨given', x'⟩ := s'
  cases h with
  | skipped hkey hfield hskip => exact ⟨_, .skipped hkey hfield hskip, alike⟩
  | put hkey hfield hnew hy =>
    obtain rfl := alike.record
    exact ⟨_, .put hkey hfield (alike.given.mem_iff.not.mp hnew) hy,
      ⟨alike.given.cons _, Eq.refl _⟩⟩

theorem putMembers_congr {members : List (Quoted × Node)} {s s' u : List String × α}
    (h : r.putMembers depth members s.1 s.2 = .ok u) (alike : Alike s s') :
    ∃ u', r.putMembers depth members s'.1 s'.2 = .ok u' ∧ Alike u u' := by
  induction members generalizing s s' with
  | nil =>
    obtain rfl := Except.ok.inj h
    exact ⟨s', Eq.refl _, alike⟩
  | cons m members ih =>
    obtain ⟨t, hputs, h⟩ := putMembers_cons_iff.mp h
    obtain ⟨t', hputs', ht⟩ := hputs.congr alike
    obtain ⟨u', hu', hu⟩ := ih h ht
    exact ⟨u', putMembers_cons_iff.mpr ⟨t', hputs', hu'⟩, hu⟩

/-- It does not matter which of two fields is put first. -/
def Field.Commutes (f g : Field α) : Prop :=
  ∀ depth m n x y z, f.put depth m x = .ok y → g.put depth n y = .ok z →
    ∃ w, g.put depth n x = .ok w ∧ f.put depth m w = .ok z

theorem Field.commutes_of_set {β γ : Type} {name₁ name₂ : String} {required₁ required₂ : Bool}
    {d₁ : Decoder β} {d₂ : Decoder γ} {set₁ : β → α → α} {set₂ : γ → α → α}
    (comm : ∀ u v x, set₂ v (set₁ u x) = set₁ u (set₂ v x)) :
    Commutes ⟨name₁, required₁, fun depth n x => (d₁ depth n).map (set₁ · x)⟩
      ⟨name₂, required₂, fun depth n x => (d₂ depth n).map (set₂ · x)⟩ := by
  intro depth m n x y z hy hz
  obtain ⟨u, hu, rfl⟩ := map_eq_ok.mp hy
  obtain ⟨v, hv, rfl⟩ := map_eq_ok.mp hz
  exact ⟨set₂ v x, map_eq_ok.mpr ⟨v, hv, Eq.refl _⟩, map_eq_ok.mpr ⟨u, hu, (comm u v x).symm⟩⟩

/-- A record whose fields can be put in any order. -/
def Unordered (r : Record α) : Prop :=
  ∀ f ∈ r.fields, ∀ g ∈ r.fields, f.name ≠ g.name → f.Commutes g

/-- A field that leaves a property of the record as it is. -/
def Field.Keeps (f : Field α) (P : α → Prop) : Prop :=
  ∀ depth n x y, P x → f.put depth n x = .ok y → P y

theorem Field.keeps_of_set {β : Type} {name : String} {required : Bool} {d : Decoder β}
    {set : β → α → α} {P : α → Prop} (keeps : ∀ u x, P x → P (set u x)) :
    Keeps ⟨name, required, fun depth n x => (d depth n).map (set · x)⟩ P := by
  intro depth n x y hx hy
  obtain ⟨u, -, rfl⟩ := map_eq_ok.mp hy
  exact keeps u x hx

theorem unordered_of_pairwise (h : r.fields.Pairwise fun f g => f.Commutes g ∧ g.Commutes f) :
    r.Unordered := by
  intro f hf g hg hne
  have hsymmetric : Std.Symm fun f g : Field α => f.Commutes g ∧ g.Commutes f := ⟨fun _ _ => .symm⟩
  exact (h.forall hf hg fun heq => hne (congrArg Field.name heq)).1

theorem mem_of_field? {key : String} {f : Field α} (h : r.field? key = some f) :
    f ∈ r.fields ∧ f.name = key :=
  ⟨List.mem_of_find?_eq_some h, by simpa using List.find?_some h⟩

theorem Puts.swap (unordered : r.Unordered) {p q : Quoted} {m n : Node}
    {s t u : List String × α} (h : r.Puts depth p m s t) (h' : r.Puts depth q n t u) :
    ∃ t' u', r.Puts depth q n s t' ∧ r.Puts depth p m t' u' ∧ Alike u u' := by
  cases h with
  | skipped hkey hfield hskip => exact ⟨u, u, h', .skipped hkey hfield hskip, .rfl⟩
  | @put key f given x y hkey hfield hnew hy =>
    cases h' with
    | skipped hkey' hfield' hskip' =>
      exact ⟨_, _, .skipped hkey' hfield' hskip', .put hkey hfield hnew hy, .rfl⟩
    | @put key' f' _ _ z hkey' hfield' hnew' hz =>
      obtain ⟨hne, hnew'⟩ := List.ne_and_not_mem_of_not_mem_cons hnew'
      obtain ⟨hf, hname⟩ := mem_of_field? hfield
      obtain ⟨hf', hname'⟩ := mem_of_field? hfield'
      obtain ⟨w, hw, hz'⟩ := unordered f hf f' hf' (hname ▸ hname' ▸ hne.symm) _ _ _ _ _ _ hy hz
      refine ⟨_, _, .put hkey' hfield' hnew' hw, .put hkey hfield ?_ hz', .swap _ _ _, Eq.refl _⟩
      exact List.not_mem_cons_of_ne_of_not_mem hne.symm hnew

theorem putMembers_perm (unordered : r.Unordered) {members members' : List (Quoted × Node)}
    (order : members.Perm members') {s u : List String × α}
    (h : r.putMembers depth members s.1 s.2 = .ok u) :
    ∃ u', r.putMembers depth members' s.1 s.2 = .ok u' ∧ Alike u u' := by
  induction order generalizing s u with
  | nil => exact ⟨u, h, .rfl⟩
  | cons m _ ih =>
    obtain ⟨t, hputs, h⟩ := putMembers_cons_iff.mp h
    obtain ⟨u', hu', hu⟩ := ih h
    exact ⟨u', putMembers_cons_iff.mpr ⟨t, hputs, hu'⟩, hu⟩
  | swap m n rest =>
    obtain ⟨t, hn, h⟩ := putMembers_cons_iff.mp h
    obtain ⟨v, hm, h⟩ := putMembers_cons_iff.mp h
    obtain ⟨t', v', hm', hn', hv⟩ := hn.swap unordered hm
    obtain ⟨u', hu', hu⟩ := putMembers_congr h hv
    exact ⟨u', putMembers_cons_iff.mpr ⟨t', hm', putMembers_cons_iff.mpr ⟨v', hn', hu'⟩⟩, hu⟩
  | trans _ _ ih ih' =>
    obtain ⟨t, ht, hut⟩ := ih h
    obtain ⟨u', hu', htu⟩ := ih' ht
    exact ⟨u', hu', hut.trans htu⟩

theorem putMembers_append {members extra : List (Quoted × Node)} {s u : List String × α}
    (unknown : ∀ m ∈ extra, r.Puts depth m.1 m.2 u u)
    (h : r.putMembers depth members s.1 s.2 = .ok u) :
    r.putMembers depth (members ++ extra) s.1 s.2 = .ok u := by
  induction members generalizing s with
  | nil =>
    obtain rfl := Except.ok.inj h
    induction extra with
    | nil => rfl
    | cons m extra ih =>
      obtain ⟨hm, hextra⟩ := List.forall_mem_cons.mp unknown
      exact putMembers_cons_iff.mpr ⟨_, hm, ih hextra⟩
  | cons m members ih =>
    obtain ⟨t, hputs, h⟩ := putMembers_cons_iff.mp h
    exact putMembers_cons_iff.mpr ⟨t, hputs, ih h⟩

/-- Members that are not named after a field change nothing, wherever they stand. -/
theorem ofMembers_rearranged (unordered : r.Unordered)
    {members members' extra : List (Quoted × Node)} (order : members'.Perm (members ++ extra))
    (unknown : ∀ m ∈ extra, ∀ s, r.Puts depth m.1 m.2 s s) {x : α}
    (h : r.ofMembers depth members .closed = .ok x) : r.ofMembers depth members' .closed = .ok x := by
  obtain ⟨s, hput, h⟩ := bind_eq_ok.mp h
  obtain ⟨_, -, h⟩ := bind_eq_ok.mp h
  obtain ⟨u, hmissing, h⟩ := bind_eq_ok.mp h
  obtain ⟨s', hput', alike⟩ :=
    putMembers_perm (s := ([], r.initial)) unordered order.symm
      (putMembers_append (fun m hm => unknown m hm s) hput)
  have hgiven : r.missing? s'.1 = r.missing? s.1 := by
    simp only [missing?, alike.given.mem_iff]
  refine bind_eq_ok.mpr ⟨s', hput', bind_eq_ok.mpr ⟨(), rfl, bind_eq_ok.mpr ⟨u, ?_, ?_⟩⟩⟩
  · rw [hgiven]
    exact hmissing
  · rw [← alike.record]
    exact h

end Record

/-- What is read as this form has its tag. -/
structure Variant.Tells (v : Variant α) (kind : α → String) : Prop where
  initial : kind v.body.initial = v.tag
  put : ∀ f ∈ v.body.fields, f.Keeps (kind · = v.tag)

namespace Tagged

/-- What one member does in search of the tag: the tag found so far, and whether the member is
kept. -/
inductive Scans (t : Tagged α) (depth : Nat) (q : Quoted) (n : Node) :
    Option (Variant α) → Option (Variant α) → List (Quoted × Node) → Prop
  | tag {v : Variant α} (read : q.read = .ok tagField) (tag : t.tag n = .ok v) :
      Scans t depth q n none (some v) []
  | other {key : String} {v : Value} {found : Option (Variant α)} (read : q.read = .ok key)
      (other : key ≠ tagField) (value : value depth n = .ok v) :
      Scans t depth q n found found [(q, n)]

variable {t : Tagged α} {depth : Nat}

theorem scanMembers_cons_iff {q : Quoted} {n : Node} {rest others : List (Quoted × Node)}
    {found found' : Option (Variant α)} :
    t.scanMembers depth ((q, n) :: rest) found = .ok (found', others) ↔
      ∃ next kept others', t.Scans depth q n found next kept ∧
        t.scanMembers depth rest next = .ok (found', others') ∧ others = kept ++ others' := by
  constructor
  · intro h
    obtain ⟨key, hkey, h⟩ := bind_eq_ok.mp h
    by_cases htag : key = tagField
    · rw [if_pos htag] at h
      obtain ⟨_, hcheck, h⟩ := bind_eq_ok.mp h
      obtain ⟨v, hv, hrest⟩ := bind_eq_ok.mp h
      cases found with
      | none => exact ⟨some v, [], others, .tag (htag ▸ hkey) hv, hrest, rfl⟩
      | some w => cases hcheck
    · rw [if_neg htag] at h
      obtain ⟨v, hv, h⟩ := bind_eq_ok.mp h
      obtain ⟨⟨next, others'⟩, hrest, h⟩ := bind_eq_ok.mp h
      obtain ⟨rfl, rfl⟩ := Prod.mk.inj (Except.ok.inj h)
      exact ⟨found, [(q, n)], others', .other hkey htag hv, hrest, rfl⟩
  · rintro ⟨next, kept, others', hscan, hrest, rfl⟩
    cases hscan with
    | @tag v hkey hv =>
      refine bind_eq_ok.mpr ⟨tagField, hkey, ?_⟩
      rw [if_pos rfl]
      exact bind_eq_ok.mpr ⟨(), rfl, bind_eq_ok.mpr ⟨v, hv, hrest⟩⟩
    | @other key v _ hkey htag hv =>
      refine bind_eq_ok.mpr ⟨key, hkey, ?_⟩
      rw [if_neg htag]
      exact bind_eq_ok.mpr ⟨v, hv, bind_eq_ok.mpr ⟨(found', others'), hrest, rfl⟩⟩

theorem Scans.swap {p q : Quoted} {m n : Node} {a b c : Option (Variant α)}
    {kept kept' : List (Quoted × Node)} (h : t.Scans depth p m a b kept)
    (h' : t.Scans depth q n b c kept') :
    ∃ b', t.Scans depth q n a b' kept' ∧ t.Scans depth p m b' c kept := by
  cases h with
  | tag hkey hv =>
    cases h' with
    | other hkey' htag' hv' => exact ⟨_, .other hkey' htag' hv', .tag hkey hv⟩
  | other hkey htag hv => exact ⟨c, h', .other hkey htag hv⟩

theorem scanMembers_perm {members members' others : List (Quoted × Node)}
    (order : members.Perm members') {found found' : Option (Variant α)}
    (h : t.scanMembers depth members found = .ok (found', others)) :
    ∃ others', t.scanMembers depth members' found = .ok (found', others') ∧
      others.Perm others' := by
  induction order generalizing found others with
  | nil => exact ⟨others, h, .refl _⟩
  | cons m _ ih =>
    obtain ⟨next, kept, rest, hscan, hrest, rfl⟩ := scanMembers_cons_iff.mp h
    obtain ⟨rest', hrest', hperm⟩ := ih hrest
    exact ⟨kept ++ rest', scanMembers_cons_iff.mpr ⟨next, kept, rest', hscan, hrest', rfl⟩,
      hperm.append_left kept⟩
  | swap m n members =>
    obtain ⟨b, kept, _, hn, htail, rfl⟩ := scanMembers_cons_iff.mp h
    obtain ⟨c, kept', rest, hm, hrest, rfl⟩ := scanMembers_cons_iff.mp htail
    obtain ⟨b', hm', hn'⟩ := hn.swap hm
    refine ⟨kept' ++ (kept ++ rest), scanMembers_cons_iff.mpr ⟨b', kept', _, hm',
      scanMembers_cons_iff.mpr ⟨c, kept, rest, hn', hrest, rfl⟩, rfl⟩, ?_⟩
    rw [← List.append_assoc, ← List.append_assoc]
    exact List.perm_append_comm.append_right rest
  | trans _ _ ih ih' =>
    obtain ⟨rest, hrest, hperm⟩ := ih h
    obtain ⟨rest', hrest', hperm'⟩ := ih' hrest
    exact ⟨rest', hrest', hperm.trans hperm'⟩

theorem scanMembers_append {members extra others : List (Quoted × Node)}
    {found found' : Option (Variant α)}
    (other : ∀ m ∈ extra, t.Scans depth m.1 m.2 found' found' [m])
    (h : t.scanMembers depth members found = .ok (found', others)) :
    t.scanMembers depth (members ++ extra) found = .ok (found', others ++ extra) := by
  induction members generalizing found others with
  | nil =>
    obtain ⟨rfl, rfl⟩ := Prod.mk.inj (Except.ok.inj h)
    induction extra with
    | nil => rfl
    | cons m extra ih =>
      obtain ⟨hm, hextra⟩ := List.forall_mem_cons.mp other
      exact scanMembers_cons_iff.mpr ⟨found, [m], extra, hm, ih hextra, rfl⟩
  | cons m members ih =>
    obtain ⟨next, kept, rest, hscan, hrest, rfl⟩ := scanMembers_cons_iff.mp h
    exact scanMembers_cons_iff.mpr
      ⟨next, kept, rest ++ extra, hscan, ih hrest, List.append_assoc _ _ _⟩

theorem mem_variants_of_tag {n : Node} {v : Variant α} (h : t.tag n = .ok v) : v ∈ t.variants := by
  obtain ⟨_, _, _, _, hfind⟩ := tag_eq_ok.mp h
  exact List.mem_of_find?_eq_some hfind

theorem mem_variants_of_scanMembers {members others : List (Quoted × Node)}
    {found : Option (Variant α)} {v : Variant α} (hfound : ∀ w ∈ found, w ∈ t.variants)
    (h : t.scanMembers depth members found = .ok (some v, others)) : v ∈ t.variants := by
  induction members generalizing found others with
  | nil =>
    obtain ⟨rfl, -⟩ := Prod.mk.inj (Except.ok.inj h)
    exact hfound v rfl
  | cons m members ih =>
    obtain ⟨next, _, _, hscan, h, -⟩ := scanMembers_cons_iff.mp h
    cases hscan with
    | tag _ hv => exact ih (by simpa using mem_variants_of_tag hv) h
    | other => exact ih hfound h

/-- The tags are told from the values. -/
def Tells (t : Tagged α) (kind : α → String) : Prop := ∀ v ∈ t.variants, v.Tells kind

theorem Tells.kind_of_ofMembers {kind : α → String} (tells : t.Tells kind) {v : Variant α}
    (hv : v ∈ t.variants) {members : List (Quoted × Node)} {ending : ObjectEnd} {x : α}
    (h : v.body.ofMembers depth members ending = .ok x) : kind x = v.tag := by
  obtain ⟨⟨given, y⟩, hput, h⟩ := bind_eq_ok.mp h
  obtain ⟨_, -, h⟩ := bind_eq_ok.mp h
  obtain ⟨_, -, h⟩ := bind_eq_ok.mp h
  exact Except.ok.inj h ▸ holds_of_putMembers (P := fun z => kind z = v.tag)
    (fun f hf => (tells v hv).put f hf depth) (tells v hv).initial hput

/-- The keys that mean something beside a tag. -/
def keys (t : Tagged α) (tag : String) : List String :=
  tagField :: (t.variants.filter (·.tag = tag)).flatMap fun v => v.body.fields.map (·.name)

/-- A member that means nothing beside a tag, with a value that can be read. -/
structure Foreign (t : Tagged α) (tag : String) (depth : Nat) (m : Quoted × Node) : Prop where
  key : ∃ key, m.1.read = .ok key ∧ key ∉ t.keys tag
  value : ∃ v, value depth m.2 = .ok v

theorem Foreign.scans {tag : String} {m : Quoted × Node} (h : t.Foreign tag depth m)
    (found : Option (Variant α)) : t.Scans depth m.1 m.2 found found [m] := by
  obtain ⟨key, hkey, hnot⟩ := h.key
  obtain ⟨v, hv⟩ := h.value
  exact .other hkey (List.ne_of_not_mem_cons hnot) hv

theorem Foreign.puts {v : Variant α} (hv : v ∈ t.variants) {m : Quoted × Node}
    (h : t.Foreign v.tag depth m) (s : List String × α) : v.body.Puts depth m.1 m.2 s s := by
  obtain ⟨key, hkey, hnot⟩ := h.key
  obtain ⟨u, hu⟩ := h.value
  refine .skipped hkey (List.find?_eq_none.mpr fun f hf hname => ?_) (skip_of_value hu)
  refine hnot (List.mem_cons_of_mem _ (List.mem_flatMap.mpr ⟨v, ?_, ?_⟩))
  · exact List.mem_filter.mpr ⟨hv, by simp⟩
  · exact List.mem_map.mpr ⟨f, hf, by simpa using hname⟩

def Unordered (t : Tagged α) : Prop := ∀ v ∈ t.variants, v.body.Unordered

theorem ofMembers_rearranged (unordered : t.Unordered) {kind : α → String} (tells : t.Tells kind)
    {members members' extra : List (Quoted × Node)} (order : members'.Perm (members ++ extra))
    {x : α} (foreign : ∀ m ∈ extra, t.Foreign (kind x) depth m)
    (h : t.ofMembers depth members .closed = .ok x) :
    t.ofMembers depth members' .closed = .ok x := by
  obtain ⟨⟨found, others⟩, hscan, h⟩ := bind_eq_ok.mp h
  obtain ⟨_, -, h⟩ := bind_eq_ok.mp h
  cases found with
  | none => cases h
  | some v =>
    have hv := mem_variants_of_scanMembers (by simp) hscan
    have hkind := tells.kind_of_ofMembers hv h
    obtain ⟨others', hscan', horder⟩ := scanMembers_perm order.symm
      (scanMembers_append (fun m hm => (foreign m hm).scans (some v)) hscan)
    have hread := Record.ofMembers_rearranged (unordered v hv) horder.symm
      (fun m hm s => (hkind ▸ foreign m hm).puts hv s) h
    exact bind_eq_ok.mpr ⟨(some v, others'), hscan', bind_eq_ok.mpr ⟨(), rfl, hread⟩⟩

end Tagged

end Dialogue.Json
