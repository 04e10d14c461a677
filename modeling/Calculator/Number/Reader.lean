import Calculator.Number.Basic
import Calculator.Text.Blank
import Calculator.Text.Digit

/-!
# Reading numbers

Texts of integers, doubles and fractions. Blanks around a number and a sign
before it are allowed, digits may be of any script, and a single underscore may
stand between two digits. A double is the one nearest to the decimal number that
is written, and infinite beyond the range.
-/

namespace Calculator

/-- A character as the reader of numbers sees it: decimal digits of any script as
those of ASCII, other blanks outside ASCII as the space. -/
def plainChar (c : Char) : Char :=
  if c.toNat < 127 then c
  else if Text.isBlank c then ' '
  else match Text.decimalValue? c with
    | some d => Char.ofNat ('0'.toNat + d)
    | none => c

/-- A text without blanks at the ends, in plain characters. -/
def plainText (s : String) : List Char :=
  let cs := (s.toList.map plainChar).dropWhile Text.isAsciiBlank
  (cs.reverse.dropWhile Text.isAsciiBlank).reverse

/-- A sign, if one is there, as whether it is a minus; and the rest. -/
def takeSign : List Char → Bool × List Char
  | '-' :: s => (true, s)
  | '+' :: s => (false, s)
  | s => (false, s)

/-- The value of an ASCII digit. -/
def digitValue (c : Char) : Nat := c.toNat - '0'.toNat

/-- The number that decimal digits stand for. -/
def natOfDigits (ds : List Char) : Nat := ds.foldl (fun n c => n * 10 + digitValue c) 0

/-- A text whose underscores each stand between two digits, without them. The flag
says whether a digit stands before the text. -/
def dropUnderscores : Bool → List Char → Option (List Char)
  | _, [] => some []
  | true, '_' :: d :: s =>
    if d.isDigit then (dropUnderscores true s).map (d :: ·) else none
  | _, c :: s =>
    if c = '_' then none
    else (dropUnderscores c.isDigit s).map (c :: ·)

/-- A digit or an underscore. -/
def isNumeral (c : Char) : Bool := c.isDigit || c = '_'

/-- The digits of a text of digits with single underscores between them. -/
def digitsOf? (s : List Char) : Option (List Char) :=
  match dropUnderscores false s with
  | some ds => if ds ≠ [] ∧ ds.all Char.isDigit then some ds else none
  | none => none

/-- The integer that digits stand for, unless there are too many. -/
def readDigits (ds : List Char) : Except Failure Nat :=
  if mostDigits < ds.length then .error (.digitsRead ds.length) else .ok (natOfDigits ds)

/-- An integer with a sign put on it. -/
def signed (negative : Bool) (n : Nat) : Int := if negative then -n else n

/-- The integer that a text gives in base ten. The digits are counted before the
text behind them is looked at. -/
def readInt (s : String) : Except Failure Int :=
  let (negative, body) := takeSign (plainText s)
  match digitsOf? (body.takeWhile isNumeral) with
  | none => .error (.notInt 10 s)
  | some ds => do
    let n ← readDigits ds
    if body.dropWhile isNumeral = [] then pure (signed negative n) else throw (.notInt 10 s)

/-- A decimal number without a sign: its digits as an integer, and the power of
ten that they count. -/
structure DecimalText where
  whole : List Char
  fraction : List Char
  exponent : Int

/-- A decimal number: digits, a point and digits, with at least one digit, and an
exponent or none. -/
def decimalText? (s : List Char) : Option DecimalText :=
  let whole := s.takeWhile Char.isDigit
  let s := s.dropWhile Char.isDigit
  let (fraction, s) := match s with
    | '.' :: s => (s.takeWhile Char.isDigit, s.dropWhile Char.isDigit)
    | s => ([], s)
  if whole = [] ∧ fraction = [] then none
  else match s with
    | [] => some ⟨whole, fraction, 0⟩
    | mark :: s =>
      if mark = 'e' ∨ mark = 'E' then
        let (negative, ds) := takeSign s
        if ds ≠ [] ∧ ds.all Char.isDigit then
          let n : Int := natOfDigits ds
          some ⟨whole, fraction, if negative then -n else n⟩
        else none
      else none

/-- The double nearest to `m * 10 ^ e`. -/
def floatOfDecimal (m : Nat) (e : Int) : Float :=
  if m = 0 then 0
  else match e with
    | .ofNat e => Float.ofScientific m false e
    | .negSucc e => Float.ofScientific m true (e + 1)

/-- The double nearest to a decimal number. -/
def DecimalText.toFloat (d : DecimalText) : Float :=
  floatOfDecimal (natOfDigits (d.whole ++ d.fraction)) (d.exponent - d.fraction.length)

/-- The double that a text gives, without a sign: a decimal number, or a word for
infinity or NaN in any case of its letters. -/
def floatValue? (s : List Char) : Option Float :=
  let word := String.ofList (s.map Char.toLower)
  if word = "inf" ∨ word = "infinity" then some (1.0 / 0.0)
  else if word = "nan" then some (0.0 / 0.0)
  else match dropUnderscores false s with
    | some s => (decimalText? s).map DecimalText.toFloat
    | none => none

/-- The double that a text gives. -/
def readFloat (s : String) : Except Failure Float :=
  let (negative, body) := takeSign (plainText s)
  match floatValue? body with
  | some x => .ok (Number.withSign negative x)
  | none => .error (.notFloat s)

/-! ## Fractions -/

/-- A fraction as it is written: a numerator, and either a denominator or decimal
places and an exponent. Each part is kept as its characters. -/
structure RatioText where
  negative : Bool
  numerator : List Char
  denominator : List Char
  decimal : List Char
  exponent : List Char
deriving DecidableEq, Repr

/-- The letter that may stand for decimal places. -/
def isPlaceLetter (c : Char) : Bool := c = 'd' || c = 'D'

/-- A numeral without a sign or with one. -/
def isSignedNumeral (s : List Char) : Bool := (digitsOf? (takeSign s).2).isSome

/-- The exponent behind its mark, or nothing at the end of a text. -/
def exponentText? : List Char → Option (List Char)
  | [] => some []
  | mark :: s =>
    if (mark = 'e' || mark = 'E') && isSignedNumeral s then some s else none

/-- The parts of a fraction behind its sign. -/
def RatioText.ofUnsigned? (negative : Bool) (s : List Char) : Option RatioText := do
  let numerator := s.takeWhile isNumeral
  let isStarted := (digitsOf? numerator).isSome
  if !isStarted && numerator ≠ [] then none
  match s.dropWhile isNumeral with
  | '/' :: s =>
    if isStarted && (digitsOf? s).isSome then some ⟨negative, numerator, s, [], []⟩ else none
  | '.' :: s =>
    let places := s.takeWhile isNumeral
    if (digitsOf? places).isSome then
      let exponent ← exponentText? (s.dropWhile isNumeral)
      some ⟨negative, numerator, [], places, exponent⟩
    else if places = [] && isStarted then
      let exponent ← exponentText? (s.dropWhile isPlaceLetter)
      some ⟨negative, numerator, [], s.takeWhile isPlaceLetter, exponent⟩
    else none
  | s =>
    let exponent ← exponentText? s
    if isStarted then some ⟨negative, numerator, [], [], exponent⟩ else none

/-- The parts of a fraction, with any blanks around it. -/
def RatioText.ofString? (s : String) : Option RatioText :=
  let (negative, body) := takeSign ((Text.trim s.toList).map plainChar)
  ofUnsigned? negative body

/-- A part of a fraction as an integer. One that is left out is `absent`. -/
def partValue (absent : Int) (s : List Char) : Except Failure Int :=
  if s = [] then .ok absent else readInt (String.ofList s)

/-- The numerator and denominator that the parts of a fraction give. -/
def RatioText.quotient (t : RatioText) : Except Failure (Int × Int) := do
  let numerator ← partValue 0 t.numerator
  let denominator ← partValue 1 t.denominator
  let places := t.decimal.filter (· ≠ '_')
  let decimal ← partValue 0 places
  let exponent ← partValue 0 t.exponent
  let scale := Nat.pow 10 places.length
  let numerator := numerator * scale + decimal
  let denominator := denominator * scale
  let sign := if t.negative then -1 else 1
  match exponent with
  | .ofNat e => pure (sign * numerator * Int.pow 10 e, denominator)
  | .negSucc e => pure (sign * numerator, denominator * Int.pow 10 (e + 1))

/-- The fraction that a text gives. -/
def readRatio (s : String) : Except Failure Rat :=
  match RatioText.ofString? s with
  | none => .error (.notRatio s)
  | some t => do
    let (numerator, denominator) ← t.quotient
    if denominator = 0 then throw (.ratioDivision numerator)
    else pure (mkRat numerator denominator.toNat)

end Calculator
