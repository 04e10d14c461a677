import Calculator.Data.Kind

/-!
# Data shown to people

Two texts for data: `Datum.written`, in which texts are quoted, and
`Datum.shown`, in which a text stands for itself. They name null, the truth
values and the kinds of data as messages do. `writtenText` and `shownText` refuse
integers with more digits than are written.
-/

namespace Calculator.Datum

/-- A number inside other data: a fraction names its kind. -/
def numberNotation : Number → String
  | .ratio q => s!"Fraction({q.num}, {q.den})"
  | n => n.text

mutual

/-- Data in full notation. -/
def written : Datum → String
  | null => "None"
  | bool true => "True"
  | bool false => "False"
  | number n => numberNotation n
  | text s => Text.quoted s
  | torn s => Text.quotedPoints s
  | list items => "[" ++ writtenItems items ++ "]"
  | record fields => "\x7b" ++ writtenFields fields ++ "\x7d"

/-- Items with a comma and a space between them. -/
def writtenItems : List Datum → String
  | [] => ""
  | [d] => d.written
  | d :: rest => d.written ++ ", " ++ writtenItems rest

/-- Fields with a comma and a space between them. -/
def writtenFields : List (String × Datum) → String
  | [] => ""
  | [(name, d)] => Text.quoted name ++ ": " ++ d.written
  | (name, d) :: rest => Text.quoted name ++ ": " ++ d.written ++ ", " ++ writtenFields rest

end

/-- Data as a message shows it. -/
def shown : Datum → String
  | text s => s
  | torn s => Text.mendedText s
  | number n => n.text
  | d => d.written

/-! ## Integers too long to be written -/

mutual

/-- Whether all integers in data have few enough digits to be written. -/
def isWritable : Datum → Bool
  | number n => n.isWritable
  | list items => areWritable items
  | record fields => areWritableFields fields
  | _ => true

/-- `isWritable` for all items. -/
def areWritable : List Datum → Bool
  | [] => true
  | d :: rest => d.isWritable && areWritable rest

/-- `isWritable` for all values. -/
def areWritableFields : List (String × Datum) → Bool
  | [] => true
  | (_, d) :: rest => d.isWritable && areWritableFields rest

end

/-- A text of data, unless an integer in them has too many digits. -/
def ifWritable (d : Datum) (s : Datum → String) : Except Failure String :=
  if d.isWritable then .ok (s d) else .error .digitsWritten

/-- Data in full notation, if they can be written. -/
def writtenText (d : Datum) : Except Failure String := d.ifWritable written

/-- Data as a message shows them, if they can be written. -/
def shownText (d : Datum) : Except Failure String := d.ifWritable shown

end Calculator.Datum
