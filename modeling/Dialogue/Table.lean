/-!
# Finite maps

A key keeps the latest value given to it.
-/
namespace Dialogue

structure Table (κ β : Type) where
  entries : List (κ × β) := []
  deriving DecidableEq, Repr

namespace Table

/-- Where no key stands twice, every entry is found under its key. -/
theorem lookup_eq_some {κ β : Type} [BEq κ] [LawfulBEq κ] {entries : List (κ × β)}
    (distinct : (entries.map (·.1)).Nodup) {k : κ} {b : β} :
    entries.lookup k = some b ↔ (k, b) ∈ entries := by
  induction entries with
  | nil => simp
  | cons e rest ih =>
    obtain ⟨first, c⟩ := e
    obtain ⟨hfirst, hrest⟩ := List.nodup_cons.mp distinct
    rw [List.lookup_cons, List.mem_cons, Prod.mk.injEq]
    by_cases hk : k = first
    · subst hk
      have hnot : (k, b) ∉ rest := fun h => hfirst (List.mem_map.mpr ⟨_, h, rfl⟩)
      simp [hnot, eq_comm]
    · rw [beq_eq_false_iff_ne.mpr hk, ih hrest]
      simp only [hk, false_and, false_or]

variable {κ β : Type} [DecidableEq κ]

def find? (t : Table κ β) (k : κ) : Option β := t.entries.lookup k

def insert (t : Table κ β) (k : κ) (b : β) : Table κ β := ⟨(k, b) :: t.entries.filter (·.1 ≠ k)⟩

theorem lookup_filter_ne {k l : κ} (h : l ≠ k) (xs : List (κ × β)) :
    (xs.filter (·.1 ≠ k)).lookup l = xs.lookup l := by
  induction xs with
  | nil => rfl
  | cons x xs ih =>
    obtain ⟨m, b⟩ := x
    by_cases hm : m = k
    · rw [List.filter_cons_of_neg (by simpa using hm), ih, List.lookup_cons,
        beq_eq_false_iff_ne.mpr (by rwa [hm])]
    · rw [List.filter_cons_of_pos (by simpa using hm), List.lookup_cons, List.lookup_cons, ih]

theorem find?_insert (t : Table κ β) (k l : κ) (b : β) :
    (t.insert k b).find? l = if l = k then some b else t.find? l := by
  by_cases h : l = k
  · subst h
    simp [find?, insert]
  · rw [if_neg h, find?, insert, List.lookup_cons, beq_eq_false_iff_ne.mpr h]
    exact lookup_filter_ne h t.entries

@[simp] theorem find?_insert_self (t : Table κ β) (k : κ) (b : β) :
    (t.insert k b).find? k = some b := by simp [find?_insert]

theorem find?_insert_of_ne {t : Table κ β} {k l : κ} {b : β} (h : l ≠ k) :
    (t.insert k b).find? l = t.find? l := by simp [find?_insert, h]

end Table

end Dialogue
