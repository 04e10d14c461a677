import Calculator.Decimal.Quotient

/-!
# The exact value of a floating-point number

`decode` takes a double apart into its sign and magnitude. A finite magnitude is
a significand times a power of two, hence an exact quotient of integers.
-/

namespace Calculator.Decimal

/-- A double: a sign and a finite magnitude `significand * 2 ^ exponent`, a sign
and an infinite one, or not a number. -/
inductive Decoded where
  | notANumber
  | infinite (negative : Bool)
  | finite (negative : Bool) (significand : Nat) (exponent : Int)
deriving DecidableEq, Repr

/-- The parts of a double, read off its bits. -/
def decode (x : Float) : Decoded :=
  let bits := x.toBits.toNat
  let negative := bits / Nat.pow 2 63 = 1
  let biased : Nat := bits / Nat.pow 2 52 % 2048
  let fraction : Nat := bits % Nat.pow 2 52
  if biased = 2047 then
    if fraction = 0 then .infinite negative else .notANumber
  else if biased = 0 then .finite negative fraction (-1074)
  else .finite negative (Nat.pow 2 52 + fraction) ((biased : Int) - 1075)

/-- The quotient `m * 2 ^ e`. -/
def quotientOfBinary (m : Nat) : Int → Quotient
  | .ofNat e => ⟨m * Nat.pow 2 e, 1⟩
  | .negSucc e => ⟨m, Nat.pow 2 (e + 1)⟩

end Calculator.Decimal
