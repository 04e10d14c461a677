import Calculator.Decimal.Layout
import Calculator.Template.Spec

/-!
# Layout

Padding of texts, and the layout of numerals: sign, base mark, digits in groups,
the rest, and the padding at the place that the alignment says. Zeros as padding
behind the sign are digits, so they are grouped too.
-/

namespace Calculator.Template

/-- A numeral in parts: its sign, the mark of its base, the digits before the
point, and what follows them. -/
structure Numeral where
  negative : Bool
  baseMark : List Char
  digits : List Char
  tail : List Char
deriving DecidableEq, Repr

/-- A text with `count` fill characters at the side or sides of an alignment. -/
def padded (fill : Char) (align : Alignment) (count : Nat) (s : List Char) : List Char :=
  match align with
  | .left => s ++ List.replicate count fill
  | .center =>
    List.replicate (count / 2) fill ++ s ++ List.replicate (count - count / 2) fill
  | .right | .afterSign => List.replicate count fill ++ s

/-- Digits in groups, all reversed, with zeros up to a width. The first argument
bounds the number of groups. -/
def groupFrom (size : Nat) (mark : Char) : Nat → List Char → Nat → List Char
  | 0, digits, _ => digits
  | fuel + 1, digits, width =>
    let n := min size (max digits.length (max width 1))
    let group := digits.take n ++ List.replicate (n - digits.length) '0'
    if digits.length ≤ n ∧ width ≤ n then group
    else group ++ mark :: groupFrom size mark fuel (digits.drop n) (width - n - 1)

/-- Digits in groups from the right, with zeros on the left up to a width. -/
def groupDigits (size : Nat) (mark : Char) (width : Nat) (digits : List Char) : List Char :=
  (groupFrom size mark (digits.length + width + 1) digits.reverse width).reverse

/-- How many digits a group has: four in the bases two, eight and sixteen, and
three otherwise. -/
def groupSize (type : Option Char) : Nat :=
  match type with
  | some t => if t ∈ "boxX".toList then 4 else 3
  | none => 3

/-- The sign that is written. -/
def signChars (sign : Option Char) (negative : Bool) : List Char :=
  if negative then ['-']
  else match sign with
    | some '+' => ['+']
    | some ' ' => [' ']
    | _ => []

/-- A numeral laid out. -/
def Numeral.layout (spec : Spec) (n : Numeral) : List Char :=
  let front := signChars spec.sign n.negative ++ n.baseMark
  let width := spec.width.getD 0
  let room := width - (front.length + n.tail.length)
  let least := if spec.fill = '0' ∧ spec.align = .afterSign then room else 0
  let digits :=
    if n.digits = [] then []
    else match spec.grouping with
      | some g => groupDigits (groupSize spec.type) g.mark least n.digits
      | none => List.replicate (least - n.digits.length) '0' ++ n.digits
  let body := digits ++ n.tail
  let padding := width - (front.length + body.length)
  match spec.align with
  | .afterSign => front ++ List.replicate padding spec.fill ++ body
  | align => padded spec.fill align padding (front ++ body)

/-- A text laid out: cut to the precision, then padded to the width. -/
def layoutText (spec : Spec) (s : List Char) : List Char :=
  let s := match spec.precision with
    | some n => s.take n
    | none => s
  padded spec.fill spec.align (spec.width.getD 0 - s.length) s

end Calculator.Template
