import Dialogue.Labels

/-!
# What a label stands for

The table of a script answers for the reserved label and for the labels of the lines, and for
nothing else.
-/
namespace Dialogue.LabelTable

/-- The table knows the reserved label, the labels of the lines, and no others. As it gives one
answer only, no two lines bear one label and none bears the reserved one. -/
def Describes (t : LabelTable) (s : Script) : Prop :=
  ∀ label n, t.find? label = some n ↔
    label = endLabel ∧ n = s.lineCount ∨ ∃ l, s.line? n = some l ∧ l.label? = some label

/-- Line `n`, counted from `i` on, bears the label. -/
def Bears (ls : List Line) (i : Nat) (label : String) (n : Nat) : Prop :=
  ∃ k l, ls[k]? = some l ∧ l.label? = some label ∧ n = i + k

theorem bears_cons {m : Line} {ls : List Line} {i : Nat} {label : String} {n : Nat} :
    Bears (m :: ls) i label n ↔ m.label? = some label ∧ n = i ∨ Bears ls (i + 1) label n := by
  constructor
  · rintro ⟨_ | k, l, hl, hlabel, rfl⟩
    · exact .inl ⟨by rw [← hlabel, Option.some.inj hl], rfl⟩
    · exact .inr ⟨k, l, hl, hlabel, by omega⟩
  · rintro (⟨hlabel, rfl⟩ | ⟨k, l, hl, hlabel, rfl⟩)
    · exact ⟨0, m, rfl, hlabel, rfl⟩
    · exact ⟨k + 1, l, hl, hlabel, by omega⟩

theorem find?_addLines {t u : LabelTable} {i : Nat} {ls : List Line} (h : addLines t i ls = .ok u)
    (label : String) (n : Nat) :
    u.find? label = some n ↔ t.find? label = some n ∨ Bears ls i label n := by
  induction ls generalizing t i with
  | nil => cases h; simp [Bears]
  | cons m ls ih =>
    rw [bears_cons]
    unfold addLines at h
    split at h
    · next hm => simp [ih h, hm]
    · next taken hm =>
      split at h
      · cases h
      · next hfree =>
        rw [ih h, Table.find?_insert, hm]
        -- A label met for the first time is not in the table yet, so no entry is covered up.
        by_cases he : label = taken
        · subst he
          have hnone : t.find? label = none := by simpa using hfree
          simp [hnone, eq_comm]
        · simp [he, Ne.symm he]

theorem ofScript_describes {s : Script} {t : LabelTable} (h : ofScript s = .ok t) :
    t.Describes s := by
  intro label n
  have hend : Table.find? (⟨[(endLabel, s.lineCount)]⟩ : LabelTable) label = some n ↔
      label = endLabel ∧ n = s.lineCount := by
    by_cases he : label = endLabel
    · simp [Table.find?, he, eq_comm]
    · simp [Table.find?, List.lookup_cons, beq_eq_false_iff_ne.mpr he, he]
  have hline : Bears s.lines 0 label n ↔ ∃ l, s.line? n = some l ∧ l.label? = some label := by
    constructor
    · rintro ⟨k, l, hl, hlabel, rfl⟩
      exact ⟨l, by rwa [Nat.zero_add], hlabel⟩
    · rintro ⟨l, hl, hlabel⟩
      exact ⟨n, l, hl, hlabel, (Nat.zero_add n).symm⟩
  rw [find?_addLines h, hend, hline]

end Dialogue.LabelTable
