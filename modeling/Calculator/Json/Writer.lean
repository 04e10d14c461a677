import Calculator.Data.Datum
import Calculator.Text.Hex

/-!
# Writing JSON

Data as JSON text in ASCII. `compact` writes one line, `indented` one line for
each item and field with two spaces for each level. Characters outside the
printable ASCII range are escaped by UTF-16 code units. An exact fraction, which
JSON has no number for, is written as a text; infinite values and NaN are
written by name.
-/

namespace Calculator.Json

/-- A code unit of UTF-16 as an escape. -/
def unitEscape (n : Nat) : List Char := '\\' :: 'u' :: Text.hexPadded 4 n

/-- One character of a JSON string. -/
def charEscape (c : Char) : List Char :=
  if c = '"' then ['\\', '"']
  else if c = '\\' then ['\\', '\\']
  else if c = '\n' then ['\\', 'n']
  else if c = '\r' then ['\\', 'r']
  else if c = '\t' then ['\\', 't']
  else if c = '\x08' then ['\\', 'b']
  else if c = '\x0c' then ['\\', 'f']
  else if ' ' ≤ c ∧ c ≤ '~' then [c]
  else if c.toNat < 0x10000 then unitEscape c.toNat
  else
    let n := c.toNat - 0x10000
    unitEscape (0xD800 + n / 0x400) ++ unitEscape (0xDC00 + n % 0x400)

/-- A JSON string. -/
def stringChars (s : String) : List Char := '"' :: s.toList.flatMap charEscape ++ ['"']

/-- A JSON string of points. -/
def pointsChars (ps : List Text.Point) : List Char :=
  let inner := ps.flatMap fun
    | .char c => charEscape c
    | .half n => unitEscape n
  '"' :: inner ++ ['"']

/-- A double: its text, or the name of a value that has no digits. -/
def floatChars (x : Float) : List Char :=
  if x.isNaN then "NaN".toList
  else if x.isInf then (if x < 0 then "-Infinity" else "Infinity").toList
  else (floatText x).toList

/-- A number. -/
def numberChars : Number → List Char
  | .int n => (toString n).toList
  | .float x => floatChars x
  | .ratio q => stringChars (Number.ratioText q)

/-- Data without inner structure. -/
def scalarChars : Datum → List Char
  | .bool true => "true".toList
  | .bool false => "false".toList
  | .number n => numberChars n
  | .text s => stringChars s
  | .torn s => pointsChars s
  | _ => "null".toList

mutual

/-- Data on one line. -/
def compact : Datum → List Char
  | .list items => '[' :: compactItems items ++ [']']
  | .record fields => '{' :: compactFields fields ++ ['}']
  | d => scalarChars d

/-- Items with a comma and a space between them. -/
def compactItems : List Datum → List Char
  | [] => []
  | [d] => compact d
  | d :: rest => compact d ++ ',' :: ' ' :: compactItems rest

/-- Fields with a comma and a space between them. -/
def compactFields : List (String × Datum) → List Char
  | [] => []
  | [(name, d)] => stringChars name ++ ':' :: ' ' :: compact d
  | (name, d) :: rest =>
    stringChars name ++ ':' :: ' ' :: compact d ++ ',' :: ' ' :: compactFields rest

end

/-- A line break and the indentation of a level. -/
def newline (level : Nat) : List Char := '\n' :: List.replicate (2 * level) ' '

mutual

/-- Data over several lines. -/
def indentedAt (level : Nat) : Datum → List Char
  | .list [] => ['[', ']']
  | .list items => '[' :: indentedItems (level + 1) items ++ newline level ++ [']']
  | .record [] => ['{', '}']
  | .record fields => '{' :: indentedFields (level + 1) fields ++ newline level ++ ['}']
  | d => scalarChars d

/-- Items on lines of their own. -/
def indentedItems (level : Nat) : List Datum → List Char
  | [] => []
  | [d] => newline level ++ indentedAt level d
  | d :: rest => newline level ++ indentedAt level d ++ ',' :: indentedItems level rest

/-- Fields on lines of their own. -/
def indentedFields (level : Nat) : List (String × Datum) → List Char
  | [] => []
  | [(name, d)] => newline level ++ stringChars name ++ ':' :: ' ' :: indentedAt level d
  | (name, d) :: rest =>
    newline level ++ stringChars name ++ ':' :: ' ' :: indentedAt level d ++
      ',' :: indentedFields level rest

end

/-- Data on one line, as a string. -/
def render (d : Datum) : String := String.ofList (compact d)

/-- Data over several lines, as a string. -/
def renderIndented (d : Datum) : String := String.ofList (indentedAt 0 d)

end Calculator.Json
