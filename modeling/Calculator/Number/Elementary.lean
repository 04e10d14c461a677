import Calculator.Number.Basic

/-!
# Elementary functions

Logarithms, the exponential, and the trigonometric functions with their
inverses. A function that gives NaN for another argument, or an infinite value
for a finite one, fails. Logarithms accept integers of any size.
-/

namespace Calculator

namespace Number

/-- The value of a function at a double, which fails outside its domain and
range. -/
def checked (infinite : Failure) (f : Float → Float) (x : Float) : Except Failure Float :=
  let y := f x
  if y.isNaN && !x.isNaN then .error .functionDomain
  else if y.isInf && x.isFinite then .error infinite
  else .ok y

/-- A logarithm of a double: finite numbers up to zero have none. -/
def checkedLog (f : Float → Float) (x : Float) : Except Failure Float :=
  if x.isNaN || x > 0 then .ok (f x) else .error .functionDomain

/-- A positive natural number as `m * 2 ^ e` with the double `m` between one half
and one, rounded to nearest. -/
def splitExponent (n : Nat) : Float × Nat :=
  let bits := n.log2 + 1
  let m := floatOfQuotient n (Nat.pow 2 bits)
  if m == 1 then (0.5, bits + 1) else (m, bits)

/-- A logarithm of a number. An integer beyond the range of doubles is split into
a double and a power of two. -/
def logarithm (f : Float → Float) : Number → Except Failure Float
  | int n =>
    if n ≤ 0 then .error .functionDomain
    else match floatOfInt n with
      | .ok x => checkedLog f x
      | .error _ =>
        let (m, e) := splitExponent n.toNat
        .ok (f m + f 2 * floatOfNat e)
  | x => x.toFloat >>= checkedLog f

/-- The elementary functions. -/
inductive Elementary where
  | log
  | log10
  | exp
  | sin
  | cos
  | tan
  | arcsin
  | arccos
  | arctan
deriving DecidableEq, Repr

namespace Elementary

/-- All elementary functions. -/
def all : List Elementary := [log, log10, exp, sin, cos, tan, arcsin, arccos, arctan]

/-- The name of a function. -/
def name : Elementary → String
  | log => "log"
  | log10 => "log10"
  | exp => "exp"
  | sin => "sin"
  | cos => "cos"
  | tan => "tan"
  | arcsin => "arcsin"
  | arccos => "arccos"
  | arctan => "arctan"

/-- The value of a function at a number. -/
def value : Elementary → Number → Except Failure Float
  | log, x => logarithm Float.log x
  | log10, x => logarithm Float.log10 x
  | exp, x => x.toFloat >>= checked .functionRange Float.exp
  | sin, x => x.toFloat >>= checked .functionDomain Float.sin
  | cos, x => x.toFloat >>= checked .functionDomain Float.cos
  | tan, x => x.toFloat >>= checked .functionDomain Float.tan
  | arcsin, x => x.toFloat >>= checked .functionDomain Float.asin
  | arccos, x => x.toFloat >>= checked .functionDomain Float.acos
  | arctan, x => x.toFloat >>= checked .functionDomain Float.atan

end Elementary

end Number

end Calculator
