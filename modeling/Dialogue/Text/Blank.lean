/-!
# White space and blank text

A character is blank if it has the property White_Space, and a text is blank if all its characters
are. Optional texts of a script count as absent when they are blank.
-/
namespace Dialogue.Text

/-- The code points with the property White_Space, as closed ranges in increasing order. -/
def blankRanges : List (Nat × Nat) :=
  [(0x9, 0xD), (0x20, 0x20), (0x85, 0x85), (0xA0, 0xA0), (0x1680, 0x1680), (0x2000, 0x200A),
    (0x2028, 0x2029), (0x202F, 0x202F), (0x205F, 0x205F), (0x3000, 0x3000)]

def inRanges (ranges : List (Nat × Nat)) (n : Nat) : Bool :=
  ranges.any fun r => r.1 ≤ n && n ≤ r.2

def isBlank (c : Char) : Bool := inRanges blankRanges c.toNat

def blank (s : String) : Bool := s.toList.all isBlank

/-- The list without the elements satisfying `p` at either end. -/
def strip {α : Type} (p : α → Bool) (xs : List α) : List α :=
  ((xs.dropWhile p).reverse.dropWhile p).reverse

def trim (s : String) : String := String.ofList (strip isBlank s.toList)

/-- The text, untrimmed, unless it is absent or blank. -/
def present? (s : Option String) : Option String := s.filter (!blank ·)

theorem isBlank_of_isWhitespace {c : Char} (h : c.isWhitespace) : isBlank c := by
  simp only [Char.isWhitespace, Bool.or_eq_true, decide_eq_true_eq] at h
  rcases h with ((rfl | rfl) | rfl) | rfl <;> decide

theorem present?_eq_some {s : Option String} {t : String} :
    present? s = some t ↔ s = some t ∧ blank t = false := by
  cases s <;> simp [present?, Option.filter_eq_some_iff]

@[simp] theorem present?_none : present? none = none := rfl

@[simp] theorem present?_idem (s : Option String) : present? (present? s) = present? s := by
  cases h : present? s with
  | none => rfl
  | some t => exact present?_eq_some.mpr ⟨rfl, (present?_eq_some.mp h).2⟩

theorem strip_eq_self {α : Type} {p : α → Bool} {xs : List α} (h : xs.all (!p ·)) :
    strip p xs = xs := by
  have hd : ∀ ys : List α, ys.all (!p ·) → ys.dropWhile p = ys := by
    intro ys hy
    cases ys with
    | nil => rfl
    | cons y ys =>
      simp only [List.all_cons, Bool.and_eq_true, Bool.not_eq_true'] at hy
      simp [hy.1]
  rw [strip, hd xs h, hd xs.reverse (by simpa using h), List.reverse_reverse]

end Dialogue.Text
