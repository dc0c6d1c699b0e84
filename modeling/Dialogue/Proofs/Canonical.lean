import Mathlib.Data.List.Pairwise
import Dialogue.Proofs.Reading

/-!
# Values as they are read

Reading a value sorts the members of each object by key and changes nothing else. So the order in
which members are written does not show, and a value whose members are sorted is read as it is.
-/
namespace Dialogue.Json

namespace Value

theorem mem_insert {key : String} {v : Value} {m : String × Value} {ms : List (String × Value)}
    (h : m ∈ insert key v ms) : m = (key, v) ∨ m ∈ ms := by
  induction ms with
  | nil => simpa [insert] using h
  | cons n ms ih =>
    simp only [insert] at h
    split at h
    · simpa using h
    · split at h
      · rcases List.mem_cons.mp h with rfl | h
        · exact .inl rfl
        · exact .inr (List.mem_cons_of_mem n h)
      · rcases List.mem_cons.mp h with rfl | h
        · exact .inr List.mem_cons_self
        · exact (ih h).imp_right (List.mem_cons_of_mem n)

theorem sortedKeys_cons {m : String × Value} {ms : List (String × Value)} :
    (object (m :: ms)).SortedKeys ↔ (∀ n ∈ ms, m.1 < n.1) ∧ (object ms).SortedKeys := by
  simp only [SortedKeys, List.map_cons, List.pairwise_cons, List.forall_mem_map]

theorem sortedKeys_insert {ms : List (String × Value)} (h : (object ms).SortedKeys)
    (key : String) (v : Value) : (object (insert key v ms)).SortedKeys := by
  induction ms with
  | nil => exact List.pairwise_singleton _ _
  | cons m ms ih =>
    obtain ⟨hm, hms⟩ := sortedKeys_cons.mp h
    simp only [insert]
    split
    · next hlt =>
      refine sortedKeys_cons.mpr ⟨fun n hn => ?_, h⟩
      rcases List.mem_cons.mp hn with rfl | hn
      · exact hlt
      · exact String.lt_trans hlt (hm n hn)
    · next hle =>
      split
      · next heq =>
        rw [sortedKeys_cons, heq]
        exact ⟨hm, hms⟩
      · next hne =>
        have hlt : m.1 < key := by
          refine Decidable.byContradiction fun hnlt => hne ?_
          exact String.le_antisymm (String.not_lt.mp hnlt) (String.not_lt.mp hle)
        refine sortedKeys_cons.mpr ⟨fun n hn => ?_, ih hms⟩
        rcases mem_insert hn with rfl | hn
        · exact hlt
        · exact hm n hn

theorem perm_insert {key : String} {ms : List (String × Value)} (h : key ∉ ms.map (·.1))
    (v : Value) : (insert key v ms).Perm ((key, v) :: ms) := by
  induction ms with
  | nil => exact .refl _
  | cons m ms ih =>
    obtain ⟨hne, hms⟩ := List.ne_and_not_mem_of_not_mem_cons h
    simp only [insert]
    split
    · exact .refl _
    · exact ((ih hms).cons m).trans (.swap _ _ _)

theorem sortedKeys_foldl {ms acc : List (String × Value)} (h : (object acc).SortedKeys) :
    (object (ms.foldl (fun ms m => insert m.1 m.2 ms) acc)).SortedKeys := by
  induction ms generalizing acc with
  | nil => exact h
  | cons m ms ih => exact ih (sortedKeys_insert h m.1 m.2)

/-- Whatever the members, they are sorted. -/
theorem sortedKeys_sorted (ms : List (String × Value)) : (sorted ms).SortedKeys :=
  sortedKeys_foldl List.Pairwise.nil

theorem mem_foldl_insert {ms acc : List (String × Value)} {m : String × Value}
    (h : m ∈ ms.foldl (fun ms m => insert m.1 m.2 ms) acc) : m ∈ acc ∨ m ∈ ms := by
  induction ms generalizing acc with
  | nil => exact .inl h
  | cons n ms ih =>
    rcases ih h with h | h
    · rcases mem_insert h with rfl | h
      · exact .inr List.mem_cons_self
      · exact .inl h
    · exact .inr (List.mem_cons_of_mem n h)

theorem mem_children_sorted {ms : List (String × Value)} {w : Value}
    (h : w ∈ (sorted ms).children) : ∃ m ∈ ms, m.2 = w := by
  obtain ⟨m, hm, rfl⟩ := mem_children_object.mp h
  rcases mem_foldl_insert hm with hm | hm
  · cases hm
  · exact ⟨m, hm, rfl⟩

theorem perm_foldl_insert {ms acc : List (String × Value)}
    (h : ((acc ++ ms).map (·.1)).Nodup) :
    (ms.foldl (fun ms m => insert m.1 m.2 ms) acc).Perm (acc ++ ms) := by
  induction ms generalizing acc with
  | nil => simp
  | cons m ms ih =>
    have hmiddle : (acc ++ m :: ms).Perm ((m :: acc) ++ ms) := List.perm_middle
    have hm : m.1 ∉ acc.map (·.1) := by
      rw [(hmiddle.map _).nodup_iff] at h
      simp only [List.cons_append, List.map_cons, List.nodup_cons, List.map_append,
        List.mem_append, not_or] at h
      exact h.1.1
    have hinsert := (perm_insert hm m.2).append_right ms
    refine (ih ?_).trans (hinsert.trans hmiddle.symm)
    rw [((hinsert.trans hmiddle.symm).map _).nodup_iff]
    exact h

/-- Members with distinct keys are all kept. -/
theorem exists_sorted {ms : List (String × Value)} (h : (object ms).DistinctKeys) :
    ∃ ns, sorted ms = .object ns ∧ ns.Perm ms ∧ (object ns).SortedKeys :=
  ⟨_, rfl, @perm_foldl_insert ms [] h, sortedKeys_sorted ms⟩

theorem eq_of_sortedKeys {ms ns : List (String × Value)} (h : ms.Perm ns)
    (hms : (object ms).SortedKeys) (hns : (object ns).SortedKeys) : ms = ns := by
  refine h.eq_of_pairwise (fun a b _ _ hab hba => ?_) (List.pairwise_map.mp hms)
    (List.pairwise_map.mp hns)
  exact absurd hba (String.lt_asymm hab)

/-- The order of the members does not show. -/
theorem sorted_congr {ms ns : List (String × Value)} (h : ms.Perm ns)
    (hms : (object ms).DistinctKeys) : sorted ms = sorted ns := by
  have hns : (object ns).DistinctKeys := (h.map _).nodup_iff.mp hms
  obtain ⟨ms', hms', hperm, hsorted⟩ := exists_sorted hms
  obtain ⟨ns', hns', hperm', hsorted'⟩ := exists_sorted hns
  rw [hms', hns', eq_of_sortedKeys (hperm.trans (h.trans hperm'.symm)) hsorted hsorted']

theorem sorted_eq_self {ms : List (String × Value)} (h : (object ms).SortedKeys) :
    sorted ms = .object ms := by
  obtain ⟨ns, hns, hperm, hsorted⟩ := exists_sorted h.distinct
  rw [hns, eq_of_sortedKeys hperm hsorted h]

end Value

mutual

/-- The value with the members of its objects sorted by key. -/
def canonical : Value → Value
  | .null => .null
  | .bool b => .bool b
  | .number n => .number n
  | .text s => .text s
  | .list items => .list (canonicalItems items)
  | .object members => .sorted (canonicalMembers members)
termination_by structural v => v

def canonicalItems : List Value → List Value
  | [] => []
  | v :: rest => canonical v :: canonicalItems rest
termination_by structural items => items

def canonicalMembers : List (String × Value) → List (String × Value)
  | [] => []
  | (k, v) :: rest => (k, canonical v) :: canonicalMembers rest
termination_by structural members => members

end

theorem canonicalItems_eq_map (items : List Value) :
    canonicalItems items = items.map canonical := by
  induction items with
  | nil => rfl
  | cons v rest ih => simp [canonicalItems, ih]

theorem canonicalMembers_eq_map (members : List (String × Value)) :
    canonicalMembers members = members.map fun m => (m.1, canonical m.2) := by
  induction members with
  | nil => rfl
  | cons m rest ih => simp [canonicalMembers, ih]

/-- What is sorted already is left as it is. -/
theorem canonical_eq_self {v : Value} (h : v.Throughout Value.SortedKeys) : canonical v = v := by
  induction h with
  | @intro v here _ ih =>
    cases v with
    | list items =>
      have hitems : items.map canonical = items.map id := List.map_congr_left ih
      rw [canonical, canonicalItems_eq_map, hitems, List.map_id]
    | object members =>
      have hmembers : members.map (fun m => (m.1, canonical m.2)) = members.map id := by
        refine List.map_congr_left fun m hm => ?_
        rw [ih m.2 (List.mem_map_of_mem hm)]
        rfl
      rw [canonical, canonicalMembers_eq_map, hmembers, List.map_id, Value.sorted_eq_self here]
    | _ => rfl

theorem descend_succ (k : Nat) : descend (k + 2) = .ok (k + 1) := rfl

theorem mapM_eq_ok {α β γ : Type} {f : α → Except Fault γ} {g : α × β → γ}
    {items : List (α × β)} (h : ∀ i ∈ items, f i.1 = .ok (g i)) :
    (items.map (·.1)).mapM f = .ok (items.map g) := by
  induction items with
  | nil => rfl
  | cons i items ih =>
    obtain ⟨hi, hitems⟩ := List.forall_mem_cons.mp h
    simp only [List.map_cons, List.mapM_cons, hi, ih hitems]
    rfl

theorem values_eq_mapM (depth : Nat) (items : List Node) :
    values depth items = items.mapM (value depth) := by
  induction items with
  | nil => rfl
  | cons n items ih => simp only [values, List.mapM_cons, ih]

def memberValue (depth : Nat) (m : Quoted × Node) : Except Fault (String × Value) := do
  return (← m.1.read, ← value depth m.2)

theorem memberValue_eq_ok {depth : Nat} {m : Quoted × Node} {key : String} {v : Value}
    (hkey : m.1.read = .ok key) (hv : value depth m.2 = .ok v) :
    memberValue depth m = .ok (key, v) := by
  simp only [memberValue, hkey, hv, bind, Except.bind, pure, Except.pure]

theorem memberValues_eq_mapM (depth : Nat) (members : List (Quoted × Node)) :
    memberValues depth members = members.mapM (memberValue depth) := by
  induction members with
  | nil => rfl
  | cons m members ih =>
    simp only [memberValues, List.mapM_cons, ih, memberValue]
    cases m.1.read with
    | error f => rfl
    | ok key => cases value depth m.2 <;> rfl

/-- The value that is read is the canonical one, unless too many containers are open. -/
theorem value_of_means {n : Node} {v : Value} (h : Means n v) {k : Nat}
    (distinct : v.Throughout Value.DistinctKeys) (within : v.Within k) :
    value (k + 1) n = .ok (canonical v) := by
  induction h generalizing k with
  | null => rfl
  | bool b => rfl
  | integer hn => simp only [value, Numeral.read, hn, Except.map, canonical]
  | text _ hread => simp only [value, hread, Except.map, canonical]
  | list items each ih =>
    obtain ⟨j, rfl, hbelow⟩ := within.exists_of_container rfl
    have hitems : ∀ i ∈ items, value (j + 1) i.1 = .ok (canonical i.2) := by
      intro i hi
      have hchild : i.2 ∈ (Value.list (items.map (·.2))).children := List.mem_map_of_mem hi
      exact ih i hi (distinct.child hchild) (hbelow _ hchild)
    simp only [value, descend_succ, values_eq_mapM, mapM_eq_ok hitems, bind, Except.bind,
      ListEnd.fault?, check, pure, Except.pure, canonical, canonicalItems_eq_map, List.map_map,
      Function.comp_def]
  | @object written members keys each order ih =>
    obtain ⟨j, rfl, hbelow⟩ := within.exists_of_container rfl
    have hmembers : ∀ m ∈ written,
        memberValue (j + 1) m.1 = .ok (m.2.1, canonical m.2.2) := by
      intro m hm
      have hchild : m.2.2 ∈ (Value.object members).children :=
        List.mem_map_of_mem (order.mem_iff.mp (List.mem_map_of_mem hm))
      exact memberValue_eq_ok (keys m hm) (ih m hm (distinct.child hchild) (hbelow _ hchild))
    have hsorted : Value.sorted (written.map fun m => (m.2.1, canonical m.2.2)) =
        Value.sorted (members.map fun m => (m.1, canonical m.2)) := by
      have hperm := order.map fun m : String × Value => (m.1, canonical m.2)
      rw [List.map_map] at hperm
      refine (Value.sorted_congr hperm.symm ?_).symm
      have hkeys : (members.map (·.1)).Nodup := distinct.holds
      simpa [Value.DistinctKeys, Function.comp_def] using hkeys
    simp only [value, descend_succ, memberValues_eq_mapM, mapM_eq_ok hmembers, bind, Except.bind,
      ObjectEnd.read, ObjectEnd.key?, ObjectEnd.fault?, check, pure, Except.pure, canonical,
      canonicalMembers_eq_map, hsorted]

theorem skipItems_eq_ok {items : List Node} (h : ∀ n ∈ items, skip n = .ok ()) :
    skipItems items = .ok () := by
  induction items with
  | nil => rfl
  | cons n items ih =>
    obtain ⟨hn, hitems⟩ := List.forall_mem_cons.mp h
    simp only [skipItems, hn, ih hitems, bind, Except.bind]

theorem skipMembers_eq_ok {members : List (Quoted × Node)} (h : ∀ m ∈ members, skip m.2 = .ok ()) :
    skipMembers members = .ok () := by
  induction members with
  | nil => rfl
  | cons m members ih =>
    obtain ⟨hm, hmembers⟩ := List.forall_mem_cons.mp h
    simp only [skipMembers, hm, ih hmembers, bind, Except.bind]

/-- Nothing is wrong with a spelled value that nobody asks for. -/
theorem skip_of_means {n : Node} {v : Value} (h : Means n v) : skip n = .ok () := by
  induction h with
  | text closed _ => simp only [skip, closed, Ending.fault?, check]
  | list items _ ih =>
    rw [skip, skipItems_eq_ok (List.forall_mem_map.mpr ih)]
    rfl
  | object written _ _ _ ih =>
    rw [skip, skipMembers_eq_ok (List.forall_mem_map.mpr ih)]
    rfl
  | _ => rfl

theorem bind_eq_ok {ε α β : Type} {x : Except ε α} {f : α → Except ε β} {b : β} :
    x >>= f = .ok b ↔ ∃ a, x = .ok a ∧ f a = .ok b := by
  cases x <;> simp [bind, Except.bind]

theorem map_eq_ok {ε α β : Type} {x : Except ε α} {f : α → β} {b : β} :
    x.map f = .ok b ↔ ∃ a, x = .ok a ∧ f a = b := by
  cases x <;> simp [Except.map]

theorem exists_of_descend {depth inner : Nat} (h : descend depth = .ok inner) :
    depth = inner + 1 ∧ 0 < inner := by
  unfold descend at h
  split at h
  · cases h
  · obtain rfl := Except.ok.inj h
    omega

/-- A value as it comes out of a reader that may open so many containers less one. -/
structure Readable (depth : Nat) (v : Value) : Prop where
  sorted : v.Throughout Value.SortedKeys
  within : v.Within (depth - 1)

theorem Readable.plain {depth : Nat} {v : Value} (h : v.isContainer = false) :
    Readable depth v := by
  cases v with
  | list items => cases h
  | object members => cases h
  | _ => exact ⟨.intro trivial nofun, .plain rfl⟩

theorem Readable.container {depth inner : Nat} {v : Value} (hd : descend depth = .ok inner)
    (here : v.SortedKeys) (below : ∀ w ∈ v.children, Readable inner w) : Readable depth v := by
  obtain ⟨rfl, hpos⟩ := exists_of_descend hd
  obtain ⟨k, rfl⟩ : ∃ k, inner = k + 1 := ⟨inner - 1, by omega⟩
  exact ⟨.intro here fun w hw => (below w hw).sorted, .deeper fun w hw => (below w hw).within⟩

mutual

theorem readable_of_value {depth : Nat} {v : Value} : ∀ {n : Node}, value depth n = .ok v →
    Readable depth v
  | .null, h => by
    obtain rfl := Except.ok.inj h
    exact .plain rfl
  | .bool b, h => by
    obtain rfl := Except.ok.inj h
    exact .plain rfl
  | .number n, h => by
    obtain ⟨x, _, rfl⟩ := map_eq_ok.mp h
    exact .plain rfl
  | .text q, h => by
    obtain ⟨s, _, rfl⟩ := map_eq_ok.mp h
    exact .plain rfl
  | .list items ending, h => by
    obtain ⟨inner, hinner, h⟩ := bind_eq_ok.mp h
    obtain ⟨vs, hvs, h⟩ := bind_eq_ok.mp h
    obtain ⟨_, _, h⟩ := bind_eq_ok.mp h
    obtain rfl := Except.ok.inj h
    exact .container hinner trivial (readable_of_values hvs)
  | .object members ending, h => by
    obtain ⟨inner, hinner, h⟩ := bind_eq_ok.mp h
    obtain ⟨ms, hms, h⟩ := bind_eq_ok.mp h
    obtain ⟨_, _, h⟩ := bind_eq_ok.mp h
    obtain rfl := Except.ok.inj h
    refine .container hinner (Value.sortedKeys_sorted ms) fun w hw => ?_
    obtain ⟨m, hm, rfl⟩ := Value.mem_children_sorted hw
    exact readable_of_memberValues hms m hm
  | .absent, h => by cases h
  | .stray, h => by cases h
  | .brokenWord atEnd, h => by cases h
  | .brokenNumber atEnd, h => by cases h
termination_by structural n => n

theorem readable_of_values {depth : Nat} {vs : List Value} : ∀ {items : List Node},
    values depth items = .ok vs → ∀ v ∈ vs, Readable depth v
  | [], h => by
    obtain rfl := Except.ok.inj h
    nofun
  | n :: rest, h => by
    obtain ⟨v, hv, h⟩ := bind_eq_ok.mp h
    obtain ⟨ws, hws, h⟩ := bind_eq_ok.mp h
    obtain rfl := Except.ok.inj h
    exact List.forall_mem_cons.mpr ⟨readable_of_value hv, readable_of_values hws⟩
termination_by structural items => items

theorem readable_of_memberValues {depth : Nat} {ms : List (String × Value)} :
    ∀ {members : List (Quoted × Node)}, memberValues depth members = .ok ms →
      ∀ m ∈ ms, Readable depth m.2
  | [], h => by
    obtain rfl := Except.ok.inj h
    nofun
  | (q, n) :: rest, h => by
    obtain ⟨key, _, h⟩ := bind_eq_ok.mp h
    obtain ⟨v, hv, h⟩ := bind_eq_ok.mp h
    obtain ⟨ns, hns, h⟩ := bind_eq_ok.mp h
    obtain rfl := Except.ok.inj h
    exact List.forall_mem_cons.mpr ⟨readable_of_value hv, readable_of_memberValues hns⟩
termination_by structural members => members

end

end Dialogue.Json
