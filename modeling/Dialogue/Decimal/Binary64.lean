/-!
# Binary floating-point numbers of sixty-four bits

A finite number is a sign, a mantissa below two to the fifty-third and a power of two between
-1074 and 971. Every operation is the exact one followed by one rounding to the nearest number, a
tie going to the even mantissa.
-/
namespace Dialogue.Decimal

/-- The quotient rounded to the nearest integer, a tie to the even one. -/
def roundQuotient (num den : Nat) : Nat :=
  let q := num / den
  let r := num % den
  if 2 * r < den ∨ (2 * r = den ∧ q % 2 = 0) then q else q + 1

theorem roundQuotient_mul (q : Nat) {den : Nat} (h : 0 < den) :
    roundQuotient (q * den) den = q := by
  simp [roundQuotient, Nat.mul_div_cancel _ h, h]

theorem div_le_roundQuotient (num den : Nat) : num / den ≤ roundQuotient num den := by
  simp only [roundQuotient]
  split <;> omega

theorem roundQuotient_le (num den : Nat) : roundQuotient num den ≤ num / den + 1 := by
  simp only [roundQuotient]
  split <;> omega

/-- The magnitude `mantissa * 2 ^ exponent`. -/
structure Magnitude where
  mantissa : Nat
  exponent : Int
  deriving DecidableEq, Repr

structure Binary64 where
  negative : Bool
  magnitude : Magnitude
  deriving DecidableEq, Repr

namespace Magnitude

def hidden : Nat := 0x10000000000000
def minExponent : Int := -1074
def maxExponent : Int := 971

def zero : Magnitude := ⟨0, minExponent⟩

def isZero (x : Magnitude) : Bool := x.mantissa = 0

/-- The unique form of each number: full mantissas, except at the least exponent. -/
def Canonical (x : Magnitude) : Prop :=
  x.mantissa < 2 * hidden ∧ minExponent ≤ x.exponent ∧ x.exponent ≤ maxExponent ∧
    (x.mantissa < hidden → x.exponent = minExponent)

theorem canonical_zero : zero.Canonical := by unfold Canonical; decide

/-- A nonnegative rational as a fraction. -/
def fraction (x : Magnitude) : Nat × Nat :=
  (x.mantissa * Nat.pow 2 x.exponent.toNat, Nat.pow 2 (-x.exponent).toNat)

/-- The number nearest to `num / den` among the multiples of `2 ^ e`, as that multiple. -/
def roundAt (num den : Nat) (e : Int) : Nat :=
  roundQuotient (num * Nat.pow 2 (-e).toNat) (den * Nat.pow 2 e.toNat)

/-- The exponent at which the mantissa of `num / den` is full, if it is not below the least. -/
def exponentOf (num den : Nat) : Int :=
  let guess : Int := (num.log2 : Int) - (den.log2 : Int) - 52
  let full := hidden * (den * Nat.pow 2 guess.toNat)
  let e := if num * Nat.pow 2 (-guess).toNat < full then guess - 1 else guess
  max e minExponent

/-- The number nearest to `num / den`, or nothing if that is too large. -/
def ofFraction? (num den : Nat) : Option Magnitude :=
  if num = 0 then some zero
  else
    let e := exponentOf num den
    let m := roundAt num den e
    let x : Magnitude := if m < 2 * hidden then ⟨m, e⟩ else ⟨hidden, e + 1⟩
    if x.exponent ≤ maxExponent then some x else none

def ofNat? (n : Nat) : Option Magnitude := ofFraction? n 1

def mul? (x y : Magnitude) : Option Magnitude :=
  ofFraction? (x.fraction.1 * y.fraction.1) (x.fraction.2 * y.fraction.2)

def div? (x y : Magnitude) : Option Magnitude :=
  ofFraction? (x.fraction.1 * y.fraction.2) (x.fraction.2 * y.fraction.1)

theorem ofFraction?_zero (den : Nat) : ofFraction? 0 den = some zero := rfl

example : ofNat? 1 = some ⟨hidden, -52⟩ := by decide +kernel
example : ofFraction? 1 10 = some ⟨7205759403792794, -56⟩ := by decide +kernel

end Magnitude

end Dialogue.Decimal
