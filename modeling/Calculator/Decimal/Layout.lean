import Calculator.Decimal.Quotient

/-!
# Digits and point

The text of a decimal number in positional and in scientific form.
-/

namespace Calculator.Decimal

/-- The decimal digits of a natural number. -/
def digitChars (n : Nat) : List Char := Nat.toDigits 10 n

/-- The digits of a natural number with zeros on the left up to a width. -/
def paddedDigits (width n : Nat) : List Char :=
  List.replicate (width - digitCount n) '0' ++ digitChars n

/-- The digits `ds` split by a point after the first `point` of them, with zeros
where there are too few: the integer part, never empty, and the fraction. -/
def splitAtPoint (ds : List Char) (point : Int) : List Char × List Char :=
  if point ≤ 0 then (['0'], List.replicate (-point).toNat '0' ++ ds)
  else
    let n := point.toNat
    (ds.take n ++ List.replicate (n - ds.length) '0', ds.drop n)

/-- A sign and at least two digits. -/
def exponentChars (e : Int) : List Char :=
  (if e < 0 then '-' else '+') :: paddedDigits 2 e.natAbs

end Calculator.Decimal
