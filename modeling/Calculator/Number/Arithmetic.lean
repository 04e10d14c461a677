import Calculator.Number.Basic

/-!
# Arithmetic

The five operations on numbers of mixed kinds. Integers and fractions are
computed exactly, except that a quotient of integers and a power with a negative
exponent are doubles; with a double the other operand becomes one. Powers of
doubles follow the cases of IEEE 754 at zeros, infinities and NaN, and fail
where the result is not real or out of range.
-/

namespace Calculator

/-- The binary operations of expressions. -/
inductive Operation where
  | add
  | subtract
  | multiply
  | divide
  | power
deriving DecidableEq, Repr

/-- Why a step of an evaluation has no number as its result. -/
inductive Mishap where
  /-- The operation failed arithmetically. -/
  | failure (cause : Failure)
  /-- The result is a complex number. -/
  | complexResult
  /-- Finite operands gave an infinite result or NaN. -/
  | overflow
  /-- A failure that is not about the operation. -/
  | escaped (cause : Failure)
deriving DecidableEq, Repr

namespace Mishap

/-- A failure is reported at the operation if it is of a contained kind. -/
def ofFailure (f : Failure) : Mishap := if f.isContained then .failure f else .escaped f

end Mishap

namespace Number

/-! ## Powers of doubles -/

/-- A double without a fractional part. -/
def isWhole (x : Float) : Bool := x.floor == x

/-- An odd integer. -/
def isOddWhole (x : Float) : Bool := isWhole x && !isWhole (x / 2)

/-- A power of a positive finite double other than one, if it is in range. -/
def finitePower (negative : Bool) (x y : Float) : Except Mishap Float :=
  let z := Float.pow x y
  if z.isInf then .error (.failure .powerRange) else .ok (withSign negative z)

/-- A power of doubles. A negative base with an exponent that is not whole gives a
complex number, whose magnitude must be in range. -/
def floatPower (x y : Float) : Except Mishap Float :=
  if y == 0 then .ok 1
  else if x.isNaN then .ok x
  else if y.isNaN then .ok (if x == 1 then 1 else y)
  else if y.isInf then
    let a := x.abs
    if a == 1 then .ok 1
    else if (y > 0) == (a > 1) then .ok y.abs
    else .ok 0
  else if x.isInf then
    let odd := isOddWhole y
    if y > 0 then .ok (if odd then x else x.abs)
    else .ok (if odd then withSign (x < 0) 0 else 0)
  else if x == 0 then
    if y < 0 then .error (.failure .zeroPower)
    else .ok (if isOddWhole y then x else 0)
  else if x < 0 then
    if !isWhole y then
      if (Float.pow (-x) y).isInf then .error (.failure .complexPowerRange)
      else .error .complexResult
    else if x == -1 then .ok (withSign (isOddWhole y) 1)
    else finitePower (isOddWhole y) (-x) y
  else if x == 1 then .ok 1
  else finitePower false x y

/-! ## Exact powers -/

/-- An integer to a natural power. Those that are never large are not multiplied
out. -/
def intPower (a : Int) (n : Nat) : Int :=
  if a = 1 ∨ n = 0 then 1
  else if a = 0 then 0
  else if a = -1 then (if n % 2 = 0 then 1 else -1)
  else a.pow n

/-- A fraction to a natural power. -/
def ratioNatPower (q : Rat) (n : Nat) : Rat := if q.den = 1 then intPower q.num n else q ^ n

/-- A fraction to a whole power. Zero has no negative powers. -/
def ratioPower (q : Rat) (n : Int) : Except Failure Rat :=
  match n with
  | .ofNat k => .ok (ratioNatPower q k)
  | .negSucc k => if q = 0 then .error (.ratioDivision 1) else .ok (ratioNatPower q⁻¹ (k + 1))

/-! ## Operations on numbers -/

/-- Sums, differences and products, exact on integers and fractions. -/
def combine (onInt : Int → Int → Int) (onRatio : Rat → Rat → Rat)
    (onFloat : Float → Float → Float) : Number → Number → Except Failure Number
  | int a, int b => .ok (int (onInt a b))
  | int a, ratio b => .ok (ratio (onRatio a b))
  | ratio a, int b => .ok (ratio (onRatio a b))
  | ratio a, ratio b => .ok (ratio (onRatio a b))
  | a, b => do
    let x ← a.toFloat
    let y ← b.toFloat
    pure (float (onFloat x y))

/-- The sum of numbers. -/
def add : Number → Number → Except Failure Number := combine (· + ·) (· + ·) (· + ·)

/-- The difference of numbers. -/
def subtract : Number → Number → Except Failure Number := combine (· - ·) (· - ·) (· - ·)

/-- The product of numbers. -/
def multiply : Number → Number → Except Failure Number := combine (· * ·) (· * ·) (· * ·)

/-- The quotient of fractions. -/
def divideRatios (a b : Rat) : Except Failure Number :=
  if b = 0 then .error (.ratioDivision a.num.sign) else .ok (ratio (a / b))

/-- The quotient of numbers: a double for integers, exact for fractions. -/
def divide : Number → Number → Except Failure Number
  | int a, int b => if b = 0 then .error .intDivision else float <$> divideInts a b
  | int a, ratio b => divideRatios a b
  | ratio a, int b => divideRatios a b
  | ratio a, ratio b => divideRatios a b
  | a, b => do
    let x ← a.toFloat
    let y ← b.toFloat
    if y == 0 then throw .floatDivision else pure (float (x / y))

/-- The power of two numbers as doubles. -/
def powerAsFloats (a b : Number) : Except Mishap Number := do
  let x ← a.toFloat.mapError .failure
  let y ← b.toFloat.mapError .failure
  float <$> floatPower x y

/-- The power of numbers: exact for a base and an exponent without a double if the
exponent is whole, and not negative where the base is an integer and the exponent
too. A whole fraction as exponent counts as an integer. -/
def power : Number → Number → Except Mishap Number
  | int a, int b => if 0 ≤ b then .ok (int (intPower a b.toNat)) else powerAsFloats (int a) (int b)
  | int a, ratio b =>
    if b.den = 1 then
      if 0 ≤ b.num then .ok (int (intPower a b.num.toNat))
      else ratio <$> (ratioPower a b.num).mapError .failure
    else powerAsFloats (ratio a) (ratio b)
  | ratio a, int b => ratio <$> (ratioPower a b).mapError .failure
  | ratio a, ratio b =>
    if b.den = 1 then ratio <$> (ratioPower a b.num).mapError .failure
    else powerAsFloats (ratio a) (ratio b)
  | float a, ratio b =>
    if b.den = 1 then powerAsFloats (float a) (int b.num) else powerAsFloats (float a) (ratio b)
  | a, b => powerAsFloats a b

end Number

end Calculator
