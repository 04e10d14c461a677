import Calculator.Decimal.Binary

/-!
# Shortest decimal numbers

The decimal number with the fewest digits that reads back as a given double, and
among those the nearest. A double stands for an interval of reals, which
includes its ends iff the significand is even. On each decimal grid, from one
digit to seventeen, the two neighbours of the double are tried; the first grid
with a neighbour in the interval gives the digits.
-/

namespace Calculator.Decimal

/-- The reals that round to a double, as numerators over one denominator: the
ends, the double itself, and whether the ends belong to it. -/
structure Interval where
  low : Nat
  value : Nat
  high : Nat
  den : Nat
  closed : Bool

/-- The interval of `m * 2 ^ e`. Below a power of two the next double is half as
far away. -/
def Interval.ofBinary (m : Nat) (e : Int) : Interval :=
  let below := if m = Nat.pow 2 52 ∧ -1074 < e then 1 else 2
  let scale : Nat × Nat := match e - 2 with
    | .ofNat k => (Nat.pow 2 k, 1)
    | .negSucc k => (1, Nat.pow 2 (k + 1))
  ⟨(4 * m - below) * scale.1, 4 * m * scale.1, (4 * m + 2) * scale.1, scale.2, m % 2 = 0⟩

/-- The interval in units of `10 ^ k`. -/
def Interval.shift (i : Interval) : Int → Interval
  | .ofNat k => { i with den := i.den * Nat.pow 10 k }
  | .negSucc k =>
    { i with low := i.low * Nat.pow 10 (k + 1), value := i.value * Nat.pow 10 (k + 1),
             high := i.high * Nat.pow 10 (k + 1) }

/-- Whether an integer lies in the interval. -/
def Interval.holds (i : Interval) (n : Nat) : Bool :=
  if i.closed then i.low ≤ n * i.den && n * i.den ≤ i.high
  else i.low < n * i.den && n * i.den < i.high

/-- An integer in the interval next to its double, the nearer of two, the even
one of two equally near. -/
def Interval.neighbour? (i : Interval) : Option Nat :=
  let n := i.value / i.den
  match i.holds n, i.holds (n + 1) with
  | true, true => some (roundHalfEven i.value i.den)
  | true, false => some n
  | false, true => some (n + 1)
  | false, false => none

/-- The shortest decimal number for the positive double `m * 2 ^ e`. -/
def shortest (m : Nat) (e : Int) : Scaled :=
  let i := Interval.ofBinary m e
  let top := (Quotient.mk i.value i.den).magnitude
  let tryDigits (count : Nat) : Option Scaled :=
    let k := top + 1 - count
    (i.shift k).neighbour?.map fun n => ⟨n, k⟩
  match (List.range' 1 17).findSome? tryDigits with
  | some s => s.trim
  | none => (Quotient.mk i.value i.den).significant 17

end Calculator.Decimal
