import Calculator.Failure
import Calculator.Number.FloatText

/-!
# Numbers

A number is an exact integer, a double, or an exact fraction. A fraction stays
one even when it is integral. `Number.toFloat` gives the nearest double, and
fails for a finite number beyond the range of doubles.
-/

namespace Calculator

/-- A number of one of three kinds. -/
inductive Number where
  | int (n : Int)
  | float (x : Float)
  | ratio (q : Rat)
deriving Repr

namespace Number

/-- The fraction as numerator and denominator, the denominator left out if it is
one. -/
def ratioText (q : Rat) : String :=
  if q.den = 1 then toString q.num else s!"{q.num}/{q.den}"

/-- The text of a number. -/
def text : Number → String
  | int n => toString n
  | float x => floatText x
  | ratio q => ratioText q

/-! ## Integers as text -/

/-- The least natural number with more digits than are written. -/
def leastUnwritable : Nat := Nat.pow 10 mostDigits

/-- Whether the integers of a number have few enough digits to be written. -/
def isWritable : Number → Bool
  | int n => n.natAbs < leastUnwritable
  | float _ => true
  | ratio q => q.num.natAbs < leastUnwritable && q.den < leastUnwritable

/-! ## Doubles of numbers -/

/-- The double nearest to a natural number. -/
def floatOfNat (n : Nat) : Float := Float.ofScientific n false 0

/-- A double with a sign put on it. -/
def withSign (negative : Bool) (x : Float) : Float := if negative then -x else x

/-- The double nearest to an integer, if the integer is in range. -/
def floatOfInt (n : Int) : Except Failure Float :=
  let x := floatOfNat n.natAbs
  if x.isFinite then .ok (withSign (n < 0) x) else .error .intTooLarge

/-- The double nearest to a quotient of positive integers, infinite beyond the
range. -/
def floatOfQuotient (p q : Nat) : Float :=
  if hp : 0 < p then
    if hq : 0 < q then
      Float.ofModel (Float.Model.pack (Float.Model.UnpackedFloat.div Float.Model.Format.binary64
        (.finite .positive p 0 hp) (.finite .positive q 0 hq)))
    else 0.0
  else 0.0

/-- The double nearest to a quotient of integers whose denominator is not zero.
A zero quotient has the sign of its denominator. -/
def divideInts (p q : Int) : Except Failure Float :=
  let x := floatOfQuotient p.natAbs q.natAbs
  if x.isFinite then .ok (withSign ((p < 0) != (q < 0)) x) else .error .quotientTooLarge

/-- The double nearest to a number, if the number is in range. -/
def toFloat : Number → Except Failure Float
  | int n => floatOfInt n
  | float x => .ok x
  | ratio q => divideInts q.num q.den

/-- The negative of a number. -/
def negate : Number → Number
  | int n => int (-n)
  | float x => float (-x)
  | ratio q => ratio (-q)

end Number

end Calculator
