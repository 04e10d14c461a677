import Calculator.Text.CodeSet

/-!
# Lines

Two ways to read line structure. `splitLines` cuts a text at every line
boundary of Unicode, with a carriage return and line feed as one boundary.
`unifyBreaks` turns each of the three line ends of plain text files into a line
feed, and `feedLines` cuts a text at line feeds alone.
-/

namespace Calculator.Text

/-- The characters that end a line. -/
def lineBoundaries : CodeSet :=
  [(0xA, 0xD), (0x1C, 0x1E), (0x85, 0x85), (0x2028, 0x2029)]

/-- A character that ends a line. -/
def isLineBoundary (c : Char) : Bool := lineBoundaries.holds c

/-- The lines of a text whose current line starts with `current`, reversed. -/
def splitLinesFrom (current : List Char) : List Char → List (List Char)
  | [] => if current.isEmpty then [] else [current.reverse]
  | '\r' :: '\n' :: rest => current.reverse :: splitLinesFrom [] rest
  | c :: rest =>
    if isLineBoundary c then current.reverse :: splitLinesFrom [] rest
    else splitLinesFrom (c :: current) rest

/-- The lines of a text without their ends. A boundary at the very end starts no
further line. -/
def splitLines (s : List Char) : List (List Char) := splitLinesFrom [] s

/-- Carriage returns, alone or before a line feed, become line feeds. -/
def unifyBreaks : List Char → List Char
  | [] => []
  | '\r' :: '\n' :: rest => '\n' :: unifyBreaks rest
  | '\r' :: rest => '\n' :: unifyBreaks rest
  | c :: rest => c :: unifyBreaks rest

/-- The lines between line feeds of a text whose current line starts with
`current`, reversed. -/
def feedLinesFrom (current : List Char) : List Char → List (List Char)
  | [] => if current.isEmpty then [] else [current.reverse]
  | c :: rest =>
    if c = '\n' then current.reverse :: feedLinesFrom [] rest
    else feedLinesFrom (c :: current) rest

/-- The lines of a text between line feeds. A line feed at the very end starts no
further line. -/
def feedLines (s : List Char) : List (List Char) := feedLinesFrom [] s

end Calculator.Text
