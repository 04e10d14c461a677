/-!
# Exact quotients on decimal grids

A non-negative rational number as a numerator over a denominator, and its place
between the multiples of a power of ten: the multiple below it, the nearest one
with halves going to the even neighbour, and the power of its leading digit.
All printing of binary floating-point numbers rests on these three.
-/

namespace Calculator.Decimal

/-- The number of decimal digits of a natural number; one for zero. -/
def digitCount (n : Nat) : Nat := (Nat.toDigits 10 n).length

/-- The quotient rounded to the nearest integer, halves to the even one. -/
def roundHalfEven (num den : Nat) : Nat :=
  let q := num / den
  let r := num % den
  if 2 * r < den then q
  else if den < 2 * r then q + 1
  else if q % 2 = 0 then q else q + 1

/-- A numerator over a denominator. -/
structure Quotient where
  num : Nat
  den : Nat
deriving DecidableEq, Repr

namespace Quotient

/-- The quotient divided by the power of ten `10 ^ k`. -/
def shift (q : Quotient) : Int → Quotient
  | .ofNat k => ⟨q.num, q.den * Nat.pow 10 k⟩
  | .negSucc k => ⟨q.num * Nat.pow 10 (k + 1), q.den⟩

/-- How many times `10 ^ k` goes into the quotient. -/
def floorAt (q : Quotient) (k : Int) : Nat := (q.shift k).num / (q.shift k).den

/-- The multiple of `10 ^ k` nearest to the quotient, halves to the even one. -/
def roundAt (q : Quotient) (k : Int) : Nat := roundHalfEven (q.shift k).num (q.shift k).den

/-- The exponent of the largest power of ten that is not above a positive
quotient. -/
def magnitude (q : Quotient) : Int :=
  if q.den ≤ q.num then (digitCount (q.num / q.den) : Int) - 1
  else - (digitCount ((q.den - 1) / q.num) : Int)

end Quotient

/-- A decimal number: an integer and the power of ten that it counts. -/
structure Scaled where
  digits : Nat
  exponent : Int
deriving DecidableEq, Repr

/-- Removes zeros at the end of a digit string given by fuel many steps. -/
def Scaled.trimFrom : Nat → Scaled → Scaled
  | 0, s => s
  | fuel + 1, s =>
    if s.digits % 10 = 0 then trimFrom fuel ⟨s.digits / 10, s.exponent + 1⟩ else s

/-- The same number with no zero at the end of its digits. -/
def Scaled.trim (s : Scaled) : Scaled :=
  if s.digits = 0 then ⟨0, 0⟩ else trimFrom (digitCount s.digits) s

/-- The place of the decimal point counted from the left of the digits. -/
def Scaled.point (s : Scaled) : Int := digitCount s.digits + s.exponent

/-- The nearest decimal number with `count` digits. -/
def Quotient.significant (q : Quotient) (count : Nat) : Scaled :=
  let k := q.magnitude + 1 - count
  let d := q.roundAt k
  if digitCount d ≤ count then ⟨d, k⟩ else ⟨d / 10, k + 1⟩

end Calculator.Decimal
