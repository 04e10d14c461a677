import Calculator.Text.Hex
import Calculator.Text.Printable

/-!
# Quoted texts

A text between quotation marks, as diagnostics show names and source labels.
Apostrophes enclose it, unless it holds an apostrophe and no double quote. A
backslash, the enclosing mark and the line breaks and tab have two-character
escapes; other characters that do not print are given by code point.
-/

namespace Calculator.Text

/-- The mark that encloses a quoted text. -/
def enclosingMark (s : List Char) : Char :=
  if '\'' ∈ s ∧ '"' ∉ s then '"' else '\''

/-- A character by its code point. -/
def codeEscape (c : Char) : List Char :=
  if c.toNat < 0x100 then '\\' :: 'x' :: hexPadded 2 c.toNat
  else if c.toNat < 0x10000 then '\\' :: 'u' :: hexPadded 4 c.toNat
  else '\\' :: 'U' :: hexPadded 8 c.toNat

/-- One character between the marks `mark`. -/
def quotedChar (mark c : Char) : List Char :=
  if c = mark ∨ c = '\\' then ['\\', c]
  else if c = '\n' then ['\\', 'n']
  else if c = '\r' then ['\\', 'r']
  else if c = '\t' then ['\\', 't']
  else if isPrintable c then [c]
  else codeEscape c

/-- A text in quotation marks. -/
def quoted (s : String) : String :=
  let mark := enclosingMark s.toList
  String.ofList (mark :: s.toList.flatMap (quotedChar mark) ++ [mark])

/-- A text in which characters outside ASCII are given by code point. -/
def asciiText (s : String) : String :=
  String.ofList (s.toList.flatMap fun c => if c.toNat < 128 then [c] else codeEscape c)

end Calculator.Text
