import Calculator.Decimal.Layout
import Calculator.Decimal.Shortest

/-!
# The text of a floating-point number

A double is shown with the fewest digits that read back: positional from
`1e-04` up to below `1e+16`, with a fraction always, and scientific outside.
-/

namespace Calculator

open Decimal

/-- The least and the greatest place of the point, counted from the left of the
digits, at which a double is shown in positional form. -/
def positionalPoints : Int × Int := (-3, 16)

/-- The text of a finite magnitude from its shortest decimal number. -/
def shortestChars (s : Scaled) : List Char :=
  let ds := digitChars s.digits
  if positionalPoints.1 ≤ s.point ∧ s.point ≤ positionalPoints.2 then
    let (whole, fraction) := splitAtPoint ds s.point
    whole ++ '.' :: (if fraction.isEmpty then ['0'] else fraction)
  else
    let tail := ds.drop 1
    ds.take 1 ++ (if tail.isEmpty then [] else '.' :: tail) ++ 'e' :: exponentChars (s.point - 1)

/-- The text of a double. -/
def floatText (x : Float) : String :=
  let signed (negative : Bool) (body : List Char) :=
    String.ofList (if negative then '-' :: body else body)
  match decode x with
  | .notANumber => "nan"
  | .infinite negative => signed negative "inf".toList
  | .finite negative 0 _ => signed negative "0.0".toList
  | .finite negative m e => signed negative (shortestChars (shortest m e))

end Calculator
