import Dialogue.Decimal.Shortest
import Dialogue.Text.Index

/-!
# Numbers of a document

An integer of sixty-four bits, signed or unsigned, is kept exactly. Every other number becomes a
floating-point one: as many leading digits as fit into sixty-four bits are taken as an integer, and
this is multiplied or divided by a power of ten, each step with its own rounding.
-/
namespace Dialogue.Json
open Decimal

/-- An integer between the least signed and the greatest unsigned one of sixty-four bits. -/
structure Integer where
  val : Int
  lower : -0x8000000000000000 ≤ val
  upper : val < 0x10000000000000000
  deriving DecidableEq, Repr

inductive Number where
  | integer (n : Integer)
  | real (x : Binary64)
  deriving DecidableEq, Repr

def Integer.ofUInt64 (n : UInt64) : Integer :=
  ⟨n.toNat, by omega, by have := n.toNat_lt; omega⟩

def Integer.chars (n : Integer) : List Char :=
  (if n.val < 0 then ['-'] else []) ++ naturalChars n.val.natAbs

/-- Numbers are positional up to sixteen digits before and four zeros after the point. -/
def numberLayout : Layout := ⟨-5, 15⟩

def Number.chars : Number → List Char
  | .integer n => n.chars
  | .real x => numberLayout.number x

example : (Magnitude.ofFraction? 1 (10 ^ 5)).map (numberLayout.number ⟨true, ·⟩) =
    some "-0.00001".toList := by decide +kernel

example : (Magnitude.ofFraction? 1 (10 ^ 6)).map (numberLayout.number ⟨false, ·⟩) =
    some "1e-6".toList := by decide +kernel

example : (Magnitude.ofNat? (10 ^ 16)).map (numberLayout.number ⟨false, ·⟩) =
    some "1e+16".toList := by decide +kernel

/-- A number as it is written: sign, digits, digits after a point, sign and digits of an
exponent. -/
structure Numeral where
  negative : Bool
  whole : List Char
  fraction : Option (List Char)
  exponent : Option (Bool × List Char)
  deriving DecidableEq, Repr

namespace Numeral

def digitValue (c : Char) : Nat := (Text.digit? c).getD 0

def digitsValue (cs : List Char) : Nat := cs.foldl (fun n c => 10 * n + digitValue c) 0

/-- Appends digits while the number stays below two to the sixty-fourth; the rest is left over. -/
def absorb (n : Nat) : List Char → Nat × List Char
  | [] => (n, [])
  | c :: cs =>
    let m := 10 * n + digitValue c
    if m < UInt64.size then absorb m cs else (n, c :: cs)

theorem absorb_lt {n : Nat} (h : n < UInt64.size) (cs : List Char) :
    (absorb n cs).1 < UInt64.size := by
  induction cs generalizing n with
  | nil => exact h
  | cons c cs ih =>
    simp only [absorb]
    split
    · exact ih ‹_›
    · exact h

theorem absorb_length_le (n : Nat) (cs : List Char) : (absorb n cs).2.length ≤ cs.length := by
  induction cs generalizing n with
  | nil => simp [absorb]
  | cons c cs ih =>
    simp only [absorb]
    split
    · exact Nat.le_succ_of_le (ih _)
    · exact Nat.le_refl _

def powerOfTen (k : Nat) : Magnitude := (Magnitude.ofNat? (Nat.pow 10 k)).getD .zero

/-- The magnitude times `10 ^ e`, or nothing if that is too large. -/
def shift? (x : Magnitude) (e : Int) : Option Magnitude :=
  if 308 < e then if x.isZero then some x else none
  else if 0 ≤ e then x.mul? (powerOfTen e.toNat)
  else if -308 ≤ e then x.div? (powerOfTen (-e).toNat)
  else if x.isZero then some x
  else (x.div? (powerOfTen 308)).bind fun y => shift? y (e + 308)
termination_by (-e).toNat

/-- The significand and the power of ten that goes with it. -/
def parts (n : Numeral) : Nat × Int :=
  let whole := absorb 0 n.whole
  let digits := n.fraction.getD []
  let fraction := absorb whole.1 digits
  let exponent : Int := match n.exponent with
    | none => 0
    | some (true, ds) => -(digitsValue ds : Int)
    | some (false, ds) => digitsValue ds
  (fraction.1, whole.2.length - (digits.length - fraction.2.length : Nat) + exponent)

def real? (n : Numeral) : Option Number :=
  ((Magnitude.ofNat? n.parts.1).bind (shift? · n.parts.2)).map fun x => .real ⟨n.negative, x⟩

/-- The number if it is written as an integer and fits; a negative zero does not. -/
def integer? (n : Numeral) : Option Integer :=
  if n.fraction.isSome ∨ n.exponent.isSome then none
  else
    let m := digitsValue n.whole
    if n.negative then
      if h : 0 < m ∧ m ≤ 0x8000000000000000 then some ⟨-m, by omega, by omega⟩ else none
    else if h : m < 0x10000000000000000 then some ⟨m, by omega, by omega⟩ else none

def number? (n : Numeral) : Option Number :=
  match n.integer? with
  | some i => some (.integer i)
  | none => n.real?

theorem number?_of_integer? {n : Numeral} {i : Integer} (h : n.integer? = some i) :
    n.number? = some (.integer i) := by
  simp [number?, h]

end Numeral

end Dialogue.Json
