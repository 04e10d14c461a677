import Calculator.Text.CodeSet

/-!
# Blank characters

White space as Unicode 14 has it: the characters whose bidirectional class is
white space or a separator, or whose category is a space separator. A no-break
space is blank, a zero-width space and a byte-order mark are not.
-/

namespace Calculator.Text

/-- The intervals of blank characters. -/
def blanks : CodeSet :=
  [(0x9, 0xD), (0x1C, 0x20), (0x85, 0x85), (0xA0, 0xA0), (0x1680, 0x1680), (0x2000, 0x200A),
   (0x2028, 0x2029), (0x202F, 0x202F), (0x205F, 0x205F), (0x3000, 0x3000)]

/-- White space, line breaks included. -/
def isBlank (c : Char) : Bool := blanks.holds c

/-- The white space of ASCII: tab to carriage return, and the space. -/
def isAsciiBlank (c : Char) : Bool := c = ' ' || ('\t' ≤ c && c ≤ '\r')

/-- A text without the blanks at both ends. -/
def trim (s : List Char) : List Char :=
  ((s.dropWhile isBlank).reverse.dropWhile isBlank).reverse

/-- `trim` on strings. -/
def trimString (s : String) : String := String.ofList (trim s.toList)

end Calculator.Text
