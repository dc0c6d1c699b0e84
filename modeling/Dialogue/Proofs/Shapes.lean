import Mathlib.Data.List.Perm.Basic
import Mathlib.Data.List.Nodup
import Dialogue.Json.Record
import Dialogue.Proofs.Decoding
import Dialogue.Table

/-!
# The shape of a record

A record looks up its fields by name in an object and by place in a list, whatever else there is and
in whatever order it is written. Its decoder, which puts the fields in the order of the text, comes
to the same, since fields of different names do not get in the way of one another.
-/
namespace Dialogue.Json

variable {α β : Type}

/-- Two lists whose elements agree in their names have an element of one name at the same place. -/
theorem find?_forall₂ {R : α → β → Prop} {name : α → String} {name' : β → String}
    (same : ∀ {a b}, R a b → name a = name' b) {as : List α} {bs : List β}
    (h : List.Forall₂ R as bs) (key : String) :
    (as.find? (name · = key) = none ∧ bs.find? (name' · = key) = none) ∨
      ∃ a b, as.find? (name · = key) = some a ∧ bs.find? (name' · = key) = some b ∧ R a b := by
  induction h with
  | nil => exact .inl ⟨rfl, rfl⟩
  | @cons a b as bs hab _ ih =>
    rw [List.find?_cons, List.find?_cons, same hab]
    by_cases hname : name' b = key
    · exact .inr ⟨a, b, by simp [hname], by simp [hname], hab⟩
    · simpa [hname] using ih

/-- What a field of a record makes of the value given for it: a change of the record, if the value
will do. -/
structure Shape.Field (α : Type) where
  name : String
  required : Bool
  read : Value → Option (α → α)

/-- What can be told of a record without looking at how its fields are decoded. -/
structure Shape (α : Type) where
  fields : List (Shape.Field α)
  initial : α

namespace Shape

namespace Field

def needed (name : String) (f : Value → Option β) (set : β → α → α) : Field α :=
  ⟨name, true, fun v => (f v).map set⟩

def withDefault (name : String) (f : Value → Option β) (set : β → α → α) : Field α :=
  ⟨name, false, fun v => (f v).map set⟩

def put (f : Field α) (v : Value) (x : Option α) : Option α :=
  x.bind fun x => (f.read v).map (· x)

/-- A field that is left out is no change, unless it is required. -/
def fill (f : Field α) (x : Option α) : Option Value → Option α
  | none => if f.required then none else x
  | some v => f.put v x

def Follows (f : Record.Field α) (g : Field α) : Prop :=
  f.name = g.name ∧ f.required = g.required ∧
    ∀ x, Json.Follows (fun depth n => f.put depth n x) fun v => (g.read v).map (· x)

/-- It does not matter which of the fields is put first. -/
def Independent (f g : Field α) : Prop := ∀ v w x, g.put w (f.put v x) = f.put v (g.put w x)

instance : Std.Symm (@Independent α) := ⟨fun _ _ h v w x => (h w v x).symm⟩

end Field

def names (s : Shape α) : List String := s.fields.map (·.name)

def field? (s : Shape α) (key : String) : Option (Field α) := s.fields.find? (·.name = key)

end Shape

namespace Value

/-- The value given for a field: under its name in an object, at its place in a list. -/
def field? (names : List String) (name : String) : Value → Option Value
  | .object members => members.lookup name
  | .list items => items[names.idxOf name]?
  | _ => none

/-- An object, or a list with no more items than there are fields. -/
def isRecord (names : List String) : Value → Bool
  | .object _ => true
  | .list items => items.length ≤ names.length
  | _ => false

end Value

namespace Shape

/-- The record that a value stands for. -/
def read? (s : Shape α) (v : Value) : Option α :=
  if v.isRecord s.names then
    s.fields.foldl (fun x f => f.fill x (v.field? s.names f.name)) (some s.initial)
  else none

/-- A record whose fields have different names and do not get in the way of one another. -/
structure Describes (s : Shape α) (r : Record α) : Prop where
  initial : r.initial = s.initial
  fields : List.Forall₂ Field.Follows r.fields s.fields
  distinct : s.names.Nodup
  independent : s.fields.Pairwise Field.Independent

theorem put_some (f : Field α) (v : Value) (x : α) : f.put v (some x) = (f.read v).map (· x) := rfl

theorem put_none (f : Field α) (v : Value) : f.put v none = none := rfl

theorem fill_some (f : Field α) (v : Value) (x : Option α) : f.fill x (some v) = f.put v x := rfl

theorem fill_none (f : Field α) (v : Option Value) : f.fill none v = none := by
  cases v with
  | none => simp only [Field.fill, ite_self]
  | some v => rfl

namespace Field

theorem follows_needed {d : Decoder β} {f : Value → Option β} (h : Json.Follows d f) (name : String)
    (set : β → α → α) : Follows (.needed name d set) (.needed name f set) := by
  refine ⟨rfl, rfl, fun x k n v hn distinct within => ?_⟩
  simp only [Record.Field.needed, needed, toOption_map, h hn distinct within, Option.map_map]
  rfl

theorem follows_withDefault {d : Decoder β} {f : Value → Option β} (h : Json.Follows d f)
    (name : String) (set : β → α → α) :
    Follows (.withDefault name d set) (.withDefault name f set) := by
  refine ⟨rfl, rfl, fun x k n v hn distinct within => ?_⟩
  simp only [Record.Field.withDefault, withDefault, toOption_map, h hn distinct within,
    Option.map_map]
  rfl

/-- Fields that set different things do not get in the way of each other. -/
theorem independent_of_commute {γ : Type} {name₁ name₂ : String} {required₁ required₂ : Bool}
    {f : Value → Option β} {g : Value → Option γ} {set₁ : β → α → α} {set₂ : γ → α → α}
    (h : ∀ a b x, set₂ b (set₁ a x) = set₁ a (set₂ b x)) :
    Independent ⟨name₁, required₁, fun v => (f v).map set₁⟩
      ⟨name₂, required₂, fun v => (g v).map set₂⟩ := by
  intro v w x
  cases x with
  | none => rfl
  | some x =>
    cases hf : f v <;> cases hg : g w <;> simp [put, hf, hg, h]

end Field

theorem foldl_put_none (given : List (Field α × Value)) :
    given.foldl (fun x p => p.1.put p.2 x) none = none := by
  induction given with
  | nil => rfl
  | cons p given ih => rw [List.foldl_cons, put_none, ih]

theorem foldl_fill_none (fields : List (Field α)) (given : Field α → Option Value) :
    fields.foldl (fun x f => f.fill x (given f)) none = none := by
  induction fields with
  | nil => rfl
  | cons f fields ih => rw [List.foldl_cons, fill_none, ih]

/-- Filling in the fields puts what is given, if nothing required is left out. -/
theorem foldl_fill (fields : List (Field α)) (given : Field α → Option Value) (x : Option α) :
    fields.foldl (fun x f => f.fill x (given f)) x =
      if fields.all (fun f => !f.required || (given f).isSome) then
        (fields.filterMap fun f => (given f).map (f, ·)).foldl (fun x p => p.1.put p.2 x) x
      else none := by
  induction fields generalizing x with
  | nil => rfl
  | cons f fields ih =>
    rw [List.foldl_cons, ih, List.all_cons, List.filterMap_cons]
    cases given f with
    | some v => simp [Field.fill]
    | none =>
      cases hf : f.required with
      | false => simp [Field.fill, hf]
      | true => simp [Field.fill, hf, foldl_put_none]

@[simp] theorem lookup_cons (k key : String) (v : Value) (members : List (String × Value)) :
    ((k, v) :: members).lookup key = if key = k then some v else members.lookup key := by
  rw [List.lookup_cons]
  by_cases hk : key = k
  · simp [hk]
  · rw [beq_eq_false_iff_ne.mpr hk, if_neg hk]

theorem isSome_lookup {members : List (String × Value)} {key : String} :
    (members.lookup key).isSome ↔ key ∈ members.map (·.1) := by
  induction members with
  | nil => simp
  | cons m members ih =>
    rw [lookup_cons, List.map_cons, List.mem_cons]
    by_cases hk : key = m.1
    · simp [hk]
    · simp only [hk, if_false, false_or]
      exact ih

theorem find?_eq_some {fields : List (Field α)} (h : (fields.map (·.name)).Nodup) {key : String}
    {f : Field α} : fields.find? (·.name = key) = some f ↔ f ∈ fields ∧ f.name = key := by
  induction fields with
  | nil => simp
  | cons g fields ih =>
    obtain ⟨hg, hfields⟩ := List.nodup_cons.mp h
    rw [List.find?_cons, List.mem_cons]
    by_cases hname : g.name = key
    · have hnot : ∀ f ∈ fields, f.name ≠ key := fun f hf hkey =>
        hg (List.mem_map.mpr ⟨f, hf, hkey.trans hname.symm⟩)
      simp only [hname, decide_true, Option.some.injEq]
      constructor
      · rintro rfl
        exact ⟨.inl rfl, hname⟩
      · rintro ⟨rfl | hf, hkey⟩
        · rfl
        · exact absurd hkey (hnot f hf)
    · simp only [hname, decide_false]
      rw [ih hfields]
      constructor
      · rintro ⟨hf, hkey⟩
        exact ⟨.inr hf, hkey⟩
      · rintro ⟨rfl | hf, hkey⟩
        · exact absurd hkey hname
        · exact ⟨hf, hkey⟩

theorem field?_eq_some {s : Shape α} (h : s.names.Nodup) {key : String} {f : Field α} :
    s.field? key = some f ↔ f ∈ s.fields ∧ f.name = key := find?_eq_some h

/-- The fields among the members of an object, in the order of the members. -/
def known (s : Shape α) (members : List (String × Value)) : List (Field α × Value) :=
  members.filterMap fun m => (s.field? m.1).map (·, m.2)

/-- The fields among the members of an object, in the order of their declaration. -/
def entries (s : Shape α) (members : List (String × Value)) : List (Field α × Value) :=
  s.fields.filterMap fun f => (members.lookup f.name).map (f, ·)

theorem mem_known {s : Shape α} (h : s.names.Nodup) {members : List (String × Value)}
    {p : Field α × Value} :
    p ∈ s.known members ↔ p.1 ∈ s.fields ∧ (p.1.name, p.2) ∈ members := by
  obtain ⟨f, v⟩ := p
  simp only [known, List.mem_filterMap, Option.map_eq_some_iff, field?_eq_some h, Prod.mk.injEq]
  constructor
  · rintro ⟨m, hm, g, ⟨hg, hname⟩, rfl, rfl⟩
    rw [hname]
    exact ⟨hg, hm⟩
  · rintro ⟨hf, hm⟩
    exact ⟨_, hm, f, ⟨hf, rfl⟩, rfl, rfl⟩

theorem mem_entries {s : Shape α} {members : List (String × Value)}
    (hkeys : (members.map (·.1)).Nodup) {p : Field α × Value} :
    p ∈ s.entries members ↔ p.1 ∈ s.fields ∧ (p.1.name, p.2) ∈ members := by
  obtain ⟨f, v⟩ := p
  simp only [entries, List.mem_filterMap, Option.map_eq_some_iff, Table.lookup_eq_some hkeys,
    Prod.mk.injEq]
  constructor
  · rintro ⟨g, hg, w, hw, rfl, rfl⟩
    exact ⟨hg, hw⟩
  · rintro ⟨hf, hv⟩
    exact ⟨f, hf, v, hv, rfl, rfl⟩

/-- The same fields are found in either order. -/
theorem known_perm_entries {s : Shape α} (h : s.names.Nodup) {members : List (String × Value)}
    (hkeys : (members.map (·.1)).Nodup) : (s.known members).Perm (s.entries members) := by
  have hknown : (s.known members).Nodup := by
    refine List.Nodup.filterMap (fun m n p hm hn => ?_) (List.Nodup.of_map _ hkeys)
    simp only [Option.mem_def, Option.map_eq_some_iff, field?_eq_some h] at hm hn
    obtain ⟨f, ⟨_, hf⟩, rfl⟩ := hm
    obtain ⟨g, ⟨_, hg⟩, hp⟩ := hn
    obtain ⟨rfl, hv⟩ := Prod.mk.inj hp
    exact Prod.ext (hf.symm.trans hg) hv.symm
  have hentries : (s.entries members).Nodup := by
    refine List.Nodup.filterMap (fun f g p hf hg => ?_) (List.Nodup.of_map _ h)
    simp only [Option.mem_def, Option.map_eq_some_iff] at hf hg
    obtain ⟨v, _, rfl⟩ := hf
    obtain ⟨w, _, hp⟩ := hg
    exact (Prod.mk.inj hp).1.symm
  rw [List.perm_ext_iff_of_nodup hknown hentries]
  exact fun p => (mem_known h).trans (mem_entries hkeys).symm

/-- Putting the fields in the order of the text or of their declaration is all the same. -/
theorem foldl_known_eq_entries {s : Shape α} {r : Record α} (h : s.Describes r)
    {written members : List (String × Value)} (order : written.Perm members)
    (hkeys : (members.map (·.1)).Nodup) (x : Option α) :
    (s.known written).foldl (fun x p => p.1.put p.2 x) x =
      (s.entries members).foldl (fun x p => p.1.put p.2 x) x := by
  have hperm : (s.known written).Perm (s.entries members) :=
    (order.filterMap _).trans (known_perm_entries h.distinct hkeys)
  refine hperm.foldl_eq' (fun p hp q hq x => ?_) x
  rw [hperm.mem_iff, mem_entries hkeys] at hp hq
  obtain ⟨hpf, hpm⟩ := hp
  obtain ⟨hqf, hqm⟩ := hq
  by_cases hname : p.1.name = q.1.name
  · have hfield : p.1 = q.1 := List.inj_on_of_nodup_map h.distinct hpf hqf hname
    have hvalue : p.2 = q.2 := by
      rw [hname] at hpm
      exact Option.some.inj
        (((Table.lookup_eq_some hkeys).mpr hpm).symm.trans ((Table.lookup_eq_some hkeys).mpr hqm))
    rw [hfield, hvalue]
  · have hne : p.1 ≠ q.1 := fun heq => hname (congrArg Field.name heq)
    exact h.independent.forall hpf hqf hne p.2 q.2 x

/-- What the members of an object must be for its fields to be read. -/
structure Members (k : Nat) (written : List ((Quoted × Node) × (String × Value))) : Prop where
  keys : ∀ m ∈ written, m.1.1.read = .ok m.2.1
  means : ∀ m ∈ written, Means m.1.2 m.2.2
  distinct : ∀ m ∈ written, m.2.2.Throughout Value.DistinctKeys
  within : ∀ m ∈ written, m.2.2.Within k
  nodup : (written.map (·.2.1)).Nodup

theorem Members.tail {k : Nat} {m : (Quoted × Node) × (String × Value)}
    {written : List ((Quoted × Node) × (String × Value))} (h : Members k (m :: written)) :
    Members k written where
  keys := (List.forall_mem_cons.mp h.keys).2
  means := (List.forall_mem_cons.mp h.means).2
  distinct := (List.forall_mem_cons.mp h.distinct).2
  within := (List.forall_mem_cons.mp h.within).2
  nodup := (List.nodup_cons.mp h.nodup).2

theorem members_of_object {k : Nat} {written : List ((Quoted × Node) × (String × Value))}
    {members : List (String × Value)} (keys : ∀ m ∈ written, m.1.1.read = .ok m.2.1)
    (means : ∀ m ∈ written, Means m.1.2 m.2.2) (order : (written.map (·.2)).Perm members)
    (distinct : (Value.object members).Throughout Value.DistinctKeys)
    (within : ∀ w ∈ (Value.object members).children, w.Within k) : Members k written := by
  have hchild : ∀ m ∈ written, m.2.2 ∈ (Value.object members).children := fun m hm =>
    List.mem_map_of_mem (order.mem_iff.mp (List.mem_map_of_mem hm))
  have hmembers : (members.map (·.1)).Nodup := distinct.holds
  rw [← (order.map _).nodup_iff, List.map_map] at hmembers
  exact ⟨keys, means, fun m hm => distinct.child (hchild m hm), fun m hm => within _ (hchild m hm),
    hmembers⟩

/-- The members are put in the order of the text, and their keys are noted. -/
theorem toOption_putMembers {s : Shape α} {r : Record α} (h : s.Describes r) {k : Nat}
    {written : List ((Quoted × Node) × (String × Value))} (hm : Members k written)
    {given : List String} (fresh : ∀ m ∈ written, m.2.1 ∉ given) (x : α) :
    (r.putMembers (k + 1) (written.map (·.1)) given x).toOption =
      ((s.known (written.map (·.2))).foldl (fun x p => p.1.put p.2 x) (some x)).map fun y =>
        (((s.known (written.map (·.2))).map (·.1.name)).reverse ++ given, y) := by
  induction written generalizing given x with
  | nil => rfl
  | cons m written ih =>
    have hkey := hm.keys m List.mem_cons_self
    have hmeans := hm.means m List.mem_cons_self
    obtain ⟨hfresh, hrest⟩ := List.forall_mem_cons.mp fresh
    rw [List.map_cons, List.map_cons, Record.putMembers, hkey, toOption_bind, toOption_ok,
      Option.bind_some]
    rcases find?_forall₂ (fun hfg => hfg.1) h.fields m.2.1 with ⟨hr, hs⟩ | ⟨f, g, hr, hs, _, _, hput⟩
    · have hknown : s.known (m.2 :: written.map (·.2)) = s.known (written.map (·.2)) := by
        simp [known, field?, hs]
      simp only [Record.field?, hr, hknown]
      rw [toOption_bind, skip_of_means hmeans, toOption_ok, Option.bind_some]
      exact ih hm.tail hrest x
    · have hknown : s.known (m.2 :: written.map (·.2)) =
          (g, m.2.2) :: s.known (written.map (·.2)) := by
        simp [known, field?, hs]
      have hname : g.name = m.2.1 := ((field?_eq_some h.distinct).mp hs).2
      have hstep : (f.put (k + 1) m.1.2 x).toOption = (g.read m.2.2).map (· x) :=
        hput x hmeans (hm.distinct m List.mem_cons_self) (hm.within m List.mem_cons_self)
      have hnext : ∀ n ∈ written, n.2.1 ∉ m.2.1 :: given := by
        intro n hn
        refine fun hmem => (List.mem_cons.mp hmem).elim (fun heq => ?_) (hrest n hn)
        exact (List.nodup_cons.mp hm.nodup).1 (List.mem_map.mpr ⟨n, hn, heq⟩)
      simp only [Record.field?, hr, hfresh, if_false, hknown, List.foldl_cons, put_some]
      rw [toOption_bind, hstep]
      cases g.read m.2.2 with
      | none => simp [foldl_put_none]
      | some u =>
        simp only [Option.map_some, Option.bind_some]
        rw [ih hm.tail hnext]
        simp [hname]

theorem isNone_missing? {s : Shape α} {r : Record α} (h : s.Describes r) (given : List String) :
    (r.missing? given).isNone = s.fields.all fun f => !f.required || f.name ∈ given := by
  have hfields := h.fields
  unfold Record.missing?
  generalize r.fields = fs at hfields ⊢
  generalize s.fields = gs at hfields ⊢
  induction hfields with
  | nil => rfl
  | @cons f g fs gs hfg _ ih =>
    obtain ⟨hname, hrequired, _⟩ := hfg
    rw [List.find?_cons, List.all_cons, hname, hrequired, ← ih]
    cases g.required with
    | false => simp
    | true =>
      by_cases hgiven : g.name ∈ given <;> simp [hgiven]

/-- A field is noted if its name is among the keys. -/
theorem name_mem_known {s : Shape α} (h : s.names.Nodup) {members : List (String × Value)}
    {f : Field α} (hf : f ∈ s.fields) :
    f.name ∈ (s.known members).map (·.1.name) ↔ (members.lookup f.name).isSome := by
  rw [isSome_lookup]
  constructor
  · intro hname
    obtain ⟨p, hp, hpname⟩ := List.mem_map.mp hname
    rw [← hpname]
    exact List.mem_map_of_mem ((mem_known h).mp hp).2
  · intro hkey
    obtain ⟨m, hm, hname⟩ := List.mem_map.mp hkey
    have hp : (f, m.2) ∈ s.known members := (mem_known h).mpr ⟨hf, hname ▸ hm⟩
    exact List.mem_map_of_mem hp

theorem read_closed (accept : String → Except Fault Unit) : ObjectEnd.closed.read accept = .ok () :=
  rfl

/-- The record that an object stands for, whatever the order of its members. -/
theorem toOption_ofMembers {s : Shape α} {r : Record α} (h : s.Describes r) {k : Nat}
    {written : List ((Quoted × Node) × (String × Value))} (hm : Members k written)
    {members : List (String × Value)} (order : (written.map (·.2)).Perm members) :
    (r.ofMembers (k + 1) (written.map (·.1)) .closed).toOption = s.read? (.object members) := by
  have hkeys : ((written.map (·.2)).map (·.1)).Nodup := by
    rw [List.map_map]
    exact hm.nodup
  have hmembers : (members.map (·.1)).Nodup := (order.map _).nodup_iff.mp hkeys
  have hgiven : (s.fields.all fun f => !f.required ||
      f.name ∈ ((s.known (written.map (·.2))).map (·.1.name)).reverse ++ []) =
        s.fields.all fun f => !f.required || (members.lookup f.name).isSome := by
    rw [Bool.eq_iff_iff, List.all_eq_true, List.all_eq_true]
    refine forall₂_congr fun f hf => ?_
    have hname : f.name ∈ (s.known (written.map (·.2))).map (·.1.name) ↔
        (members.lookup f.name).isSome := by
      rw [name_mem_known h.distinct hf, isSome_lookup, isSome_lookup]
      exact (order.map _).mem_iff
    simp [hname]
  have hread : s.read? (.object members) =
      if s.fields.all fun f => !f.required || (members.lookup f.name).isSome then
        (s.entries members).foldl (fun x p => p.1.put p.2 x) (some s.initial)
      else none := by
    simp only [read?, Value.isRecord, if_true, Value.field?, foldl_fill, entries]
  rw [Record.ofMembers, toOption_bind, toOption_putMembers h hm (by simp), h.initial,
    foldl_known_eq_entries h order hmembers, hread, ← hgiven, ← isNone_missing? h]
  cases (s.entries members).foldl (fun x p => p.1.put p.2 x) (some s.initial) with
  | none => simp
  | some y =>
    simp only [Option.map_some, Option.bind_some, toOption_bind, read_closed, toOption_ok,
      toOption_check, Option.isNone_map]
    split <;> rfl

/-- The fields that are left out are at the end, so they are those that the items do not reach. -/
theorem isNone_tooFew (r : Record α) (length : Nat) :
    (r.tooFew length).isNone = (r.fields.drop length).all (!·.required) := by
  rw [Record.tooFew, Option.isNone_map]
  generalize r.fields.drop length = fs
  induction fs with
  | nil => rfl
  | cons f fs ih =>
    rw [List.findIdx?_cons, List.all_cons]
    cases f.required with
    | true => rfl
    | false => simp [ih]

theorem all_required {fs : List (Record.Field α)} {gs : List (Field α)}
    (h : List.Forall₂ Field.Follows fs gs) : fs.all (!·.required) = gs.all (!·.required) := by
  induction h with
  | nil => rfl
  | cons hfg _ ih => rw [List.all_cons, List.all_cons, hfg.2.1, ih]

/-- The items are put one by one; a field has the item at its own place. -/
theorem toOption_putItems {fs : List (Record.Field α)} {gs : List (Field α)}
    (h : List.Forall₂ Field.Follows fs gs) (hdistinct : (gs.map (·.name)).Nodup) {k : Nat}
    {items : List (Node × Value)} (hmeans : ∀ i ∈ items, Means i.1 i.2)
    (hkeys : ∀ i ∈ items, i.2.Throughout Value.DistinctKeys) (hwithin : ∀ i ∈ items, i.2.Within k)
    (hlength : items.length ≤ fs.length) (x : α) :
    ((Record.putItems (k + 1) fs (items.map (·.1)) x).toOption.bind fun y =>
      if (fs.drop items.length).all (!·.required) then some y else none) =
      gs.foldl (fun x g => g.fill x (items.map (·.2))[(gs.map (·.name)).idxOf g.name]?)
        (some x) := by
  induction h generalizing items x with
  | nil =>
    obtain rfl : items = [] := List.length_eq_zero_iff.mp (by simpa using hlength)
    rfl
  | @cons f g fs gs hfg hfs ih =>
    obtain ⟨hg, hgs⟩ := List.nodup_cons.mp hdistinct
    cases items with
    | nil =>
      have hall := all_required (List.Forall₂.cons hfg hfs)
      simp only [Record.putItems, toOption_ok, Option.bind_some, List.map_nil, List.length_nil,
        List.drop_zero, List.getElem?_nil, foldl_fill, Option.map_none, Option.isSome_none,
        Bool.or_false, List.filterMap_none, List.foldl_nil, hall]
    | cons i items =>
      obtain ⟨hmean, hmeans⟩ := List.forall_mem_cons.mp hmeans
      obtain ⟨hkey, hkeys⟩ := List.forall_mem_cons.mp hkeys
      obtain ⟨hdepth, hwithin⟩ := List.forall_mem_cons.mp hwithin
      have hstep : (f.put (k + 1) i.1 x).toOption = (g.read i.2).map (· x) :=
        hfg.2.2 x hmean hkey hdepth
      have hshift : ∀ x, ∀ g' ∈ gs, g'.fill x
          (i.2 :: items.map (·.2))[(g.name :: gs.map (·.name)).idxOf g'.name]? =
          g'.fill x (items.map (·.2))[(gs.map (·.name)).idxOf g'.name]? := by
        intro x g' hg'
        have hne : g.name ≠ g'.name := fun heq =>
          hg (List.mem_map.mpr ⟨g', hg', heq.symm⟩)
        rw [List.idxOf_cons_ne _ hne, List.getElem?_cons_succ]
      rw [List.map_cons, List.map_cons, List.map_cons, List.foldl_cons, List.idxOf_cons_self,
        List.getElem?_cons_zero, List.foldl_ext _ _ _ hshift, Record.putItems, toOption_bind, hstep]
      rw [fill_some, put_some]
      cases g.read i.2 with
      | none => exact (foldl_fill_none gs _).symm
      | some u => exact ih hgs hmeans hkeys hwithin (by simpa using hlength) (u x)

/-- A list stands for a record if it reaches all required fields and is not too long. -/
theorem toOption_putItems_bind {s : Shape α} {r : Record α} (h : s.Describes r) {k : Nat}
    {items : List (Node × Value)} (hmeans : ∀ i ∈ items, Means i.1 i.2)
    (hkeys : ∀ i ∈ items, i.2.Throughout Value.DistinctKeys)
    (hwithin : ∀ i ∈ items, i.2.Within k) :
    ((Record.putItems (k + 1) r.fields (items.map (·.1)) r.initial).toOption.bind fun y =>
      if items.length ≤ r.fields.length ∧ (r.tooFew items.length).isNone then some y else none) =
      s.read? (.list (items.map (·.2))) := by
  have hlengths : s.names.length = r.fields.length := by
    rw [names, List.length_map, h.fields.length_eq]
  have hrecord : (Value.list (items.map (·.2))).isRecord s.names =
      decide (items.length ≤ r.fields.length) := by
    rw [Value.isRecord, List.length_map, hlengths]
  by_cases hlong : items.length ≤ r.fields.length
  · have hput := toOption_putItems h.fields h.distinct hmeans hkeys hwithin hlong s.initial
    rw [read?, hrecord, if_pos (by simpa using hlong)]
    simp only [hlong, true_and, isNone_tooFew, h.initial]
    exact hput
  · rw [read?, hrecord, if_neg (by simpa using hlong)]
    simp only [hlong, false_and, if_false]
    cases (Record.putItems (k + 1) r.fields (items.map (·.1)) r.initial).toOption <;> rfl

theorem toOption_ofItems {s : Shape α} {r : Record α} (h : s.Describes r) {k : Nat}
    {items : List (Node × Value)} (hmeans : ∀ i ∈ items, Means i.1 i.2)
    (hkeys : ∀ i ∈ items, i.2.Throughout Value.DistinctKeys)
    (hwithin : ∀ i ∈ items, i.2.Within k) :
    (r.ofItems (k + 1) (items.map (·.1)) .closed).toOption =
      s.read? (.list (items.map (·.2))) := by
  rw [← toOption_putItems_bind h hmeans hkeys hwithin, Record.ofItems, toOption_bind,
    List.length_map]
  congr 1
  funext y
  by_cases hshort : items.length < r.fields.length
  · have hle : items.length ≤ r.fields.length := Nat.le_of_lt hshort
    simp only [hshort, if_true, hle, true_and, ListEnd.fault?]
    cases r.tooFew items.length <;> rfl
  · have hfew : r.tooFew items.length = none := by
      rw [← Option.isNone_iff_eq_none, isNone_tooFew, List.drop_eq_nil_of_le (by omega)]
      rfl
    simp only [hshort, if_false, hfew, Option.isNone_none, and_true]
    by_cases hle : items.length ≤ r.fields.length
    · have hdrop : (items.map (·.1)).drop r.fields.length = [] :=
        List.drop_eq_nil_of_le (by rwa [List.length_map])
      rw [if_pos hle, hdrop]
      rfl
    · have hmany : Record.tooMany ((items.map (·.1)).drop r.fields.length) .closed =
          some .trailingCharacters := by
        rw [Record.tooMany, if_neg]
        simpa using hle
      rw [if_neg hle, hmany]
      rfl

/-- What follows the tag of a list is read in the same way. -/
theorem toOption_ofTail {s : Shape α} {r : Record α} (h : s.Describes r) {k : Nat}
    {items : List (Node × Value)} (hmeans : ∀ i ∈ items, Means i.1 i.2)
    (hkeys : ∀ i ∈ items, i.2.Throughout Value.DistinctKeys)
    (hwithin : ∀ i ∈ items, i.2.Within k) :
    (r.ofTail (k + 1) (items.map (·.1))).toOption = s.read? (.list (items.map (·.2))) := by
  rw [← toOption_putItems_bind h hmeans hkeys hwithin, Record.ofTail, toOption_bind,
    List.length_map]
  congr 1
  funext y
  by_cases hle : items.length ≤ r.fields.length
  · simp only [hle, if_true, true_and]
    cases r.tooFew items.length <;> rfl
  · simp only [hle, if_false, false_and]
    cases r.tooFew items.length <;> rfl

/-- A record is decoded to what its shape says. -/
theorem follows_decoder {s : Shape α} {r : Record α} (h : s.Describes r) :
    Json.Follows r.decoder s.read? := by
  intro k n v hn distinct within
  cases hn with
  | list items each =>
    obtain ⟨j, rfl, hbelow⟩ := within.exists_of_container rfl
    have hchild : ∀ i ∈ items, i.2 ∈ (Value.list (items.map (·.2))).children := fun i hi =>
      List.mem_map_of_mem hi
    rw [Record.decoder, descend_succ]
    exact toOption_ofItems h each (fun i hi => distinct.child (hchild i hi)) fun i hi =>
      hbelow _ (hchild i hi)
  | object written keys each order =>
    obtain ⟨j, rfl, hbelow⟩ := within.exists_of_container rfl
    rw [Record.decoder, descend_succ]
    exact toOption_ofMembers h (members_of_object keys each order distinct hbelow) order
  | _ => exact toOption_mismatch _ _

end Shape

end Dialogue.Json
