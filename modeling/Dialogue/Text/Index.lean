/-!
# Indices as text

An index is written in decimal. It is read from one or more ASCII digits after at most one plus
sign, with any number of leading zeros, if its value is below two to the sixty-fourth.
-/
namespace Dialogue.Text

/-- The value of an ASCII digit. -/
def digit? (c : Char) : Option Nat :=
  if '0' ≤ c ∧ c ≤ '9' then some (c.toNat - '0'.toNat) else none

/-- The value of the digits appended to the number `n`. -/
def appendDigits (n : Nat) : List Char → Option Nat
  | [] => some n
  | c :: cs => (digit? c).bind fun d => appendDigits (10 * n + d) cs

def natural? : List Char → Option Nat
  | [] => none
  | cs => appendDigits 0 cs

def dropPlus : List Char → List Char
  | '+' :: cs => cs
  | cs => cs

def index? (s : String) : Option UInt64 :=
  (natural? (dropPlus s.toList)).bind fun n =>
    if n < UInt64.size then some (UInt64.ofNat n) else none

theorem natural?_nil : natural? [] = none := rfl

theorem appendDigits_append (n : Nat) (xs ys : List Char) :
    appendDigits n (xs ++ ys) = (appendDigits n xs).bind (appendDigits · ys) := by
  induction xs generalizing n with
  | nil => rfl
  | cons x xs ih =>
    simp only [List.cons_append, appendDigits]
    cases digit? x <;> simp [ih]

theorem index?_lt {s : String} {n : UInt64} (h : index? s = some n) :
    natural? (dropPlus s.toList) = some n.toNat := by
  obtain ⟨m, hm, hn⟩ := Option.bind_eq_some_iff.mp h
  split at hn
  · obtain rfl := Option.some.inj hn
    rw [hm, UInt64.toNat_ofNat_of_lt' ‹m < UInt64.size›]
  · cases hn

end Dialogue.Text
