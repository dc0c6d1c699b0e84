import Dialogue.Decimal.Binary64

/-!
# The shortest decimal that reads back

A number is written with the fewest digits for which some decimal rounds to it, and of the decimals
with that many digits with the nearest one, a tie going to the even last digit. Each decimal grid
needs two tests only: its points directly below and directly above the number.
-/
namespace Dialogue.Decimal

/-- The decimal `digits * 10 ^ exponent`. -/
structure Expansion where
  digits : Nat
  exponent : Int
  deriving DecidableEq, Repr

namespace Expansion

def fraction (d : Expansion) : Nat × Nat :=
  (d.digits * Nat.pow 10 d.exponent.toNat, Nat.pow 10 (-d.exponent).toNat)

/-- Moves the zeros at the end of the digits into the exponent. -/
def strip : Nat → Expansion → Expansion
  | 0, d => d
  | n + 1, d =>
    if d.digits ≠ 0 ∧ d.digits % 10 = 0 then strip n ⟨d.digits / 10, d.exponent + 1⟩ else d

end Expansion

namespace Magnitude

/-- Four times the mantissas of the two ends of the interval that rounds to the number. -/
def ends (x : Magnitude) : Nat × Nat :=
  (4 * x.mantissa - (if x.mantissa = hidden ∧ minExponent < x.exponent then 1 else 2),
    4 * x.mantissa + 2)

/-- Whether reading the decimal gives back the number: the ends count for even mantissas. -/
def accepts (x : Magnitude) (d : Expansion) : Bool :=
  let e := x.exponent - 2
  let value := d.fraction.1 * Nat.pow 2 (-e).toNat
  let unit := d.fraction.2 * Nat.pow 2 e.toNat
  let low := x.ends.1 * unit
  let high := x.ends.2 * unit
  if x.mantissa % 2 = 0 then low ≤ value && value ≤ high else low < value && value < high

/-- The number divided by `10 ^ e`, as a fraction. -/
def scaled (x : Magnitude) (e : Int) : Nat × Nat :=
  (x.fraction.1 * Nat.pow 10 (-e).toNat, x.fraction.2 * Nat.pow 10 e.toNat)

/-- The decimal to write on the grid of multiples of `10 ^ e`, if one rounds to the number. -/
def onGrid? (x : Magnitude) (e : Int) : Option Expansion :=
  let s := x.scaled e
  let below : Expansion := ⟨s.1 / s.2, e⟩
  let above : Expansion := ⟨s.1 / s.2 + 1, e⟩
  match x.accepts below, x.accepts above with
  | true, true => some ⟨roundQuotient s.1 s.2, e⟩
  | true, false => some below
  | false, true => some above
  | false, false => none

/-- The exponent of the leading decimal digit, found from an estimate by logarithms to base two. -/
def leading (x : Magnitude) : Int :=
  let log2 : Int := (x.mantissa.log2 : Int) + x.exponent
  let guess : Int := Int.fdiv (log2 * 30103) 100000
  let fits (e : Int) : Bool := let s := x.scaled e; s.2 ≤ s.1
  if fits (guess + 1) then guess + 1 else if fits guess then guess else guess - 1

def shortest (x : Magnitude) : Expansion :=
  match (List.range 17).findSome? fun n : Nat => x.onGrid? (x.leading - n) with
  | some d => d.strip 17
  | none => ⟨0, 0⟩

end Magnitude

/-- How a decimal is laid out: between which leading exponents it is written without one. -/
structure Layout where
  minPositional : Int
  maxPositional : Int

def padLeft (n : Nat) (c : Char) (cs : List Char) : List Char :=
  List.replicate (n - cs.length) c ++ cs

def naturalChars (n : Nat) : List Char := Nat.toDigits 10 n

namespace Layout

/-- Digits around a point, with at least one digit on either side. -/
def positional (d : Expansion) : List Char :=
  let ds := naturalChars d.digits
  if 0 ≤ d.exponent then ds ++ List.replicate d.exponent.toNat '0' ++ ['.', '0']
  else
    let places := (-d.exponent).toNat
    let padded := padLeft (places + 1) '0' ds
    padded.take (padded.length - places) ++ '.' :: padded.drop (padded.length - places)

/-- One digit before the point, and an exponent that always has a sign. -/
def scientific (d : Expansion) (leading : Int) : List Char :=
  let exponent := (if leading < 0 then '-' else '+') :: naturalChars leading.natAbs
  match naturalChars d.digits with
  | [] => 'e' :: exponent
  | [c] => c :: 'e' :: exponent
  | c :: cs => c :: '.' :: cs ++ 'e' :: exponent

def decimal (l : Layout) (d : Expansion) : List Char :=
  let leading := d.exponent + ((naturalChars d.digits).length : Int) - 1
  if l.minPositional ≤ leading ∧ leading ≤ l.maxPositional then positional d
  else scientific d leading

def number (l : Layout) (x : Binary64) : List Char :=
  (if x.negative then ['-'] else []) ++
    (if x.magnitude.isZero then ['0', '.', '0'] else l.decimal x.magnitude.shortest)

end Layout

end Dialogue.Decimal
