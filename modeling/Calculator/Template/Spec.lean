import Calculator.Text.Digit

/-!
# Format specifications

How a value is to be laid out: fill and alignment, sign, width, grouping,
precision and presentation, in this order:

    [[fill]align][sign][z][#][0][width][grouping][.precision][type]
-/

namespace Calculator.Template

/-- Where the padding of a value goes. -/
inductive Alignment where
  | left
  | right
  | center
  | afterSign
deriving DecidableEq, Repr

/-- The alignment that a character asks for. -/
def Alignment.ofChar? : Char → Option Alignment
  | '<' => some left
  | '>' => some right
  | '^' => some center
  | '=' => some afterSign
  | _ => none

/-- The mark between groups of digits. -/
inductive Grouping where
  | comma
  | underscore
deriving DecidableEq, Repr

/-- The character of a grouping. -/
def Grouping.mark : Grouping → Char
  | comma => ','
  | underscore => '_'

/-- A format specification. -/
structure Spec where
  fill : Char
  align : Alignment
  sign : Option Char
  noNegativeZero : Bool
  alternate : Bool
  width : Option Nat
  grouping : Option Grouping
  precision : Option Nat
  type : Option Char
deriving DecidableEq, Repr

namespace Spec

/-- The largest number that a specification may hold. -/
def largestNumber : Nat := Nat.pow 2 63 - 1

/-- A number at the front of a text, none if there is no digit; fails beyond the
largest. -/
def takeNumber (s : List Char) : Option (Option Nat × List Char) :=
  let ds := s.takeWhile Text.isDecimal
  let n := ds.foldl (fun n c => n * 10 + (Text.decimalValue? c).getD 0) 0
  if ds = [] then some (none, s)
  else if n ≤ largestNumber then some (some n, s.dropWhile Text.isDecimal)
  else none

/-- The fill and alignment at the front of a text, if they are there. -/
def takeAlignment : List Char → Option Char × Option Alignment × List Char
  | [] => (none, none, [])
  | [c] =>
    match Alignment.ofChar? c with
    | some a => (none, some a, [])
    | none => (none, none, [c])
  | c :: d :: s =>
    match Alignment.ofChar? d with
    | some a => (some c, some a, s)
    | none =>
      match Alignment.ofChar? c with
      | some a => (none, some a, d :: s)
      | none => (none, none, c :: d :: s)

/-- A sign character at the front of a text, if there is one. -/
def takeSign : List Char → Option Char × List Char
  | c :: s => if c = '+' ∨ c = '-' ∨ c = ' ' then (some c, s) else (none, c :: s)
  | [] => (none, [])

/-- Whether a text starts with the given character, and what follows it then. -/
def takeFlag (flag : Char) : List Char → Bool × List Char
  | c :: s => if c = flag then (true, s) else (false, c :: s)
  | [] => (false, [])

/-- A grouping at the front of a text, if there is one. Two marks are refused. -/
def takeGrouping : List Char → Option (Option Grouping × List Char)
  | ',' :: '_' :: _ => none
  | ',' :: s => some (some .comma, s)
  | '_' :: ',' :: _ => none
  | '_' :: s => some (some .underscore, s)
  | s => some (none, s)

/-- A point and a number at the front of a text, if there is a point. -/
def takePrecision : List Char → Option (Option Nat × List Char)
  | '.' :: s =>
    match takeNumber s with
    | some (some n, s) => some (some n, s)
    | _ => none
  | s => some (none, s)

/-- A presentation type, which ends a specification. -/
def takeType : List Char → Option (Option Char)
  | [] => some none
  | [c] => some (some c)
  | _ => none

/-- The presentation types for which digits can be grouped. A comma is not for
those of bases other than ten. -/
def allowsGrouping (type : Char) : Grouping → Bool
  | .comma => type ∈ "defgEG%F".toList
  | .underscore => type ∈ "defgEG%FboxX".toList

/-- Reads a specification for values that are aligned as `usual` and presented as
`usualType` unless it says otherwise. A zero before the width fills with zeros,
behind the sign if values are usually aligned to the right. -/
def ofChars? (usual : Alignment) (usualType : Option Char) (s : List Char) : Option Spec := do
  let (fill, align, s) := takeAlignment s
  let (sign, s) := takeSign s
  let (noNegativeZero, s) := takeFlag 'z' s
  let (alternate, s) := takeFlag '#' s
  let (zeroFill, s) := if fill.isSome then (false, s) else takeFlag '0' s
  let align := align.getD (if zeroFill && usual = .right then .afterSign else usual)
  let (width, s) ← takeNumber s
  let (grouping, s) ← takeGrouping s
  let (precision, s) ← takePrecision s
  let type ← takeType s
  let type := type <|> usualType
  let grouped := match grouping, type with
    | some g, some t => allowsGrouping t g
    | _, _ => true
  if grouped then
    some ⟨fill.getD (if zeroFill then '0' else ' '), align, sign, noNegativeZero, alternate, width,
      grouping, precision, type⟩
  else none

end Spec

end Calculator.Template
