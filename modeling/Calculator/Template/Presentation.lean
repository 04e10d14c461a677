import Calculator.Data.Shown
import Calculator.Template.Layout

/-!
# Presentation

Values as a format specification presents them. Doubles are rounded exactly, a
half to the even digit: to a number of places (`f` and `%`), to a number of digits
in scientific form (`e`) or in the shorter form (`g`), or to the fewest digits
that read back if no type and no precision is given. Integers are written in the
base of their type, as a character, or as doubles. A specification that does not
fit its value is refused.
-/

namespace Calculator.Template

open Decimal

/-- Why a value has no presentation: its specification is refused, or
presenting it fails. -/
inductive Refusal where
  | unsuitable
  | failure (cause : Failure)
deriving DecidableEq, Repr

/-- Digits and a point at the given place; the point is kept without digits
behind it only on request. -/
def pointed (keepPoint : Bool) (whole fraction : List Char) : List Char :=
  if fraction = [] ∧ !keepPoint then whole else whole ++ '.' :: fraction

/-- Digits in scientific form, the point behind the first. -/
def scientific (keepPoint : Bool) (ds : List Char) (exponent : Int) : List Char :=
  pointed keepPoint (ds.take 1) (ds.drop 1) ++ 'e' :: exponentChars exponent

/-- Digits in positional form, with a zero behind the point on request where
nothing else would be. -/
def positional (keepPoint atLeastOne : Bool) (ds : List Char) (point : Int) : List Char :=
  let (whole, fraction) := splitAtPoint ds point
  pointed keepPoint whole (if fraction = [] ∧ atLeastOne then ['0'] else fraction)

/-- A magnitude with the given number of places behind the point. -/
def fixed (alternate : Bool) (places : Nat) (q : Quotient) : List Char :=
  let ds := paddedDigits (places + 1) (q.roundAt (-(places : Int)))
  pointed alternate (ds.take (ds.length - places)) (ds.drop (ds.length - places))

/-- A magnitude with one digit before the point and the given number behind
it. -/
def exponential (alternate : Bool) (places : Nat) (q : Quotient) : List Char :=
  if q.num = 0 then scientific alternate (List.replicate (places + 1) '0') 0
  else
    let s := q.significant (places + 1)
    scientific alternate (digitChars s.digits) (s.point - 1)

/-- The digits of a magnitude to the given number of digits, without zeros at the
end, and the place of the point. -/
def significantDigits (count : Nat) (q : Quotient) : List Char × Int :=
  if q.num = 0 then (['0'], 1)
  else
    let s := (q.significant count).trim
    (digitChars s.digits, s.point)

/-- A magnitude with the given number of digits in the shorter form: scientific
for small numbers and for those with more digits before the point. `decimalPoint`
asks for a digit behind the point, for which one digit less may stand before
it. -/
def general (alternate decimalPoint : Bool) (count : Nat) (q : Quotient) : List Char :=
  let count := max count 1
  let (ds, point) := significantDigits count q
  let ds := if alternate then ds ++ List.replicate (count - ds.length) '0' else ds
  if point ≤ -4 ∨ (count : Int) - (if decimalPoint then 1 else 0) < point then
    scientific alternate ds (point - 1)
  else positional alternate decimalPoint ds point

/-- A magnitude with the fewest digits that read back. -/
def fewest (alternate : Bool) (m : Nat) (e : Int) : List Char :=
  let (ds, point) :=
    if m = 0 then (['0'], (1 : Int))
    else
      let s := shortest m e
      (digitChars s.digits, s.point)
  if positionalPoints.1 ≤ point ∧ point ≤ positionalPoints.2 then
    positional alternate true ds point
  else scientific alternate ds (point - 1)

/-- The presentations of doubles. -/
inductive FloatStyle where
  | fewest
  | fixed
  | exponential
  | general (decimalPoint : Bool)
deriving DecidableEq, Repr

/-- The presentation that a type and a precision ask for. Without a type it is the
shorter form, if a precision is given. -/
def FloatStyle.of? (type : Option Char) (precision : Option Nat) : Option FloatStyle :=
  match type with
  | none => some (if precision.isSome then .general true else .fewest)
  | some t =>
    if t ∈ "fF%".toList then some .fixed
    else if t ∈ "eE".toList then some .exponential
    else if t ∈ "gGn".toList then some (.general false)
    else none

/-- The characters of a finite magnitude. -/
def FloatStyle.chars (style : FloatStyle) (alternate : Bool) (precision : Nat) (m : Nat)
    (e : Int) : List Char :=
  let q := quotientOfBinary m e
  match style with
  | fewest => Template.fewest alternate m e
  | fixed => Template.fixed alternate precision q
  | exponential => Template.exponential alternate precision q
  | general decimalPoint => Template.general alternate decimalPoint precision q

/-- Whether a presentation shows a zero: the magnitude is zero, or rounds to zero
at the places that are shown. -/
def FloatStyle.showsZero (style : FloatStyle) (precision : Nat) (m : Nat) (e : Int) : Bool :=
  match style with
  | fixed => (quotientOfBinary m e).roundAt (-(precision : Int)) = 0
  | _ => m = 0

/-- The precision that holds unless one is given. -/
def usualPrecision : Nat := 6

/-- The largest precision of a double. -/
def largestPrecision : Nat := Nat.pow 2 31 - 1

/-- A numeral from its characters, split behind the digits at the front. -/
def Numeral.ofChars (negative : Bool) (baseMark s : List Char) : Numeral :=
  ⟨negative, baseMark, s.takeWhile Char.isDigit, s.dropWhile Char.isDigit⟩

/-- The presentation of a double. -/
def presentFloat (spec : Spec) (x : Float) : Except Refusal (List Char) :=
  match FloatStyle.of? spec.type spec.precision with
  | none => .error .unsuitable
  | some style =>
    let precision := spec.precision.getD usualPrecision
    if largestPrecision < precision then .error .unsuitable
    else
      let percent := spec.type = some '%'
      let upper := match spec.type with
        | some t => t.isUpper
        | none => false
      let x := if percent then x * 100 else x
      let (negative, body) := match decode x with
        | .notANumber => (false, "nan".toList)
        | .infinite negative => (negative, "inf".toList)
        | .finite negative m e =>
          (negative && !(spec.noNegativeZero && style.showsZero precision m e),
            style.chars spec.alternate precision m e)
      let body := if upper then body.map Char.toUpper else body
      let body := if percent then body ++ ['%'] else body
      .ok ((Numeral.ofChars negative [] body).layout spec)

/-- The base of an integer type and the mark that stands for it. -/
def baseOf? : Char → Option (Nat × List Char)
  | 'd' | 'n' => some (10, [])
  | 'b' => some (2, ['0', 'b'])
  | 'o' => some (8, ['0', 'o'])
  | 'x' => some (16, ['0', 'x'])
  | 'X' => some (16, ['0', 'X'])
  | _ => none

/-- An integer as the character of its code point. -/
def presentCharacter (spec : Spec) (n : Int) : Except Refusal (List Char) :=
  if spec.sign.isSome || spec.alternate then .error .unsuitable
  else if n < -Int.pow 2 63 ∨ Int.pow 2 63 ≤ n then
    .error (.failure (.characterRange "Python int too large to convert to C long"))
  else if n < 0 ∨ 0x110000 ≤ n then
    .error (.failure (.characterRange "%c arg not in range(0x110000)"))
  else .ok ((Numeral.mk false [] [] [Char.ofNat n.toNat]).layout spec)

/-- The presentation of an integer. -/
def presentInt (spec : Spec) (n : Int) : Except Refusal (List Char) :=
  match spec.type with
  | none => .error .unsuitable
  | some t =>
    if t ∈ "eEfFgG%".toList then
      match Number.floatOfInt n with
      | .ok x => presentFloat spec x
      | .error cause => .error (.failure cause)
    else if spec.precision.isSome || spec.noNegativeZero then .error .unsuitable
    else if t = 'c' then presentCharacter spec n
    else match baseOf? t with
      | none => .error .unsuitable
      | some (base, mark) =>
        if base = 10 && !(Number.int n).isWritable then .error .unsuitable
        else
          let ds := Nat.toDigits base n.natAbs
          let ds := if t = 'X' then ds.map Char.toUpper else ds
          .ok ((Numeral.mk (n < 0) (if spec.alternate then mark else []) ds []).layout spec)

/-- The presentation of a text. -/
def presentText (spec : Spec) (s : List Char) : Except Refusal (List Char) :=
  if spec.sign.isSome || spec.noNegativeZero || spec.alternate || spec.align = .afterSign
      || spec.type ≠ some 's' then .error .unsuitable
  else .ok (layoutText spec s)

/-- The widest that a value is laid out. A wider text is too long to be kept. -/
def largestWidth : Nat := Nat.pow 2 36

/-- A specification that a presentation follows, or the refusal of one that is
malformed. A width beyond the largest makes a presentation fail that the rest of
the specification suits. -/
def withSpec (usual : Alignment) (usualType : Option Char) (s : List Char)
    (present : Spec → Except Refusal (List Char)) : Except Refusal (List Char) :=
  match Spec.ofChars? usual usualType s with
  | some spec =>
    if spec.width.getD 0 ≤ largestWidth then present spec
    else do
      let _ ← present { spec with width := none }
      .error (.failure .noMemory)
  | none => .error .unsuitable

/-- The presentation of a value by a specification, which without one is the text
that shows it. A truth value is presented as one or zero. Other values take no
specification. -/
def present (value : Datum) (s : List Char) : Except Refusal (List Char) :=
  if s = [] then
    match value.shownText with
    | .ok t => .ok t.toList
    | .error _ => .error .unsuitable
  else match value with
    | .number (.float x) => withSpec .right none s (presentFloat · x)
    | .number (.int n) => withSpec .right (some 'd') s (presentInt · n)
    | .bool b => withSpec .right (some 'd') s (presentInt · (if b then 1 else 0))
    | .text t => withSpec .left (some 's') s (presentText · t.toList)
    | _ => .error .unsuitable

end Calculator.Template
