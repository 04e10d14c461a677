import Calculator.Text.Quoted

/-!
# Code points

Escapes can name halves of pairs of code units, which stand for no character. A text
with such halves is a list of points. `wholeText?` gives the characters of a
text without them, and `quotedPoints` shows a text with them in quotation marks.
-/

namespace Calculator.Text

/-- A character, or half of a pair of code units. -/
inductive Point where
  | char (c : Char)
  | half (unit : Nat)
deriving DecidableEq, Repr

namespace Point

/-- Whether a number is half of a pair. -/
def isHalf (n : Nat) : Bool := 0xD800 ≤ n && n < 0xE000

/-- The point of a number below the end of the code points. -/
def ofCode (n : Nat) : Point := if isHalf n then half n else char (Char.ofNat n)

/-- The number of a point. -/
def code : Point → Nat
  | char c => c.toNat
  | half n => n

/-- The character of a point that is one. -/
def char? : Point → Option Char
  | char c => some c
  | half _ => none

/-- The character of a point, the replacement character for a half. -/
def shown (p : Point) : Char := p.char?.getD '\uFFFD'

end Point

/-- The points of a text. -/
def points (s : List Char) : List Point := s.map .char

/-- The characters of a text, if no half is among them. -/
def wholeText? (ps : List Point) : Option (List Char) := ps.mapM Point.char?

/-- The characters of a text, with a replacement character for each half. -/
def mendedText (ps : List Point) : String := String.ofList (ps.map Point.shown)

/-- A text with halves in quotation marks. -/
def quotedPoints (ps : List Point) : String :=
  let mark := enclosingMark (ps.filterMap Point.char?)
  let inner := ps.flatMap fun
    | .char c => quotedChar mark c
    | .half n => '\\' :: 'u' :: hexPadded 4 n
  String.ofList (mark :: inner ++ [mark])

/-- A text without halves is its characters. -/
theorem wholeText?_points (s : List Char) : wholeText? (points s) = some s := by
  simp [wholeText?, points]
  induction s with
  | nil => rfl
  | cons c s ih => simp [Point.char?, ih]

end Calculator.Text
