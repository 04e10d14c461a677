import Calculator.Diagnostic
import Calculator.Source.Reading

/-!
# Cursors

A cursor stands in a source: it keeps the text that it has passed, by lines, and
the text ahead. Positions and line texts are read off the passed text, so that a
diagnostic can show its line without going back to the source. `Cursor.scan`
returns the next token or a diagnostic, and can be called again after either.
-/

namespace Calculator

/-- Text already passed: the finished lines, last line first, and the characters
of the current line, last character first. The numbers of the current line and of
its next column are kept beside them. -/
structure Passed where
  lines : List (List Char)
  current : List Char
  lineNumber : Nat
  column : Nat
  lineNumber_eq : lineNumber = lines.length + 1
  column_eq : column = current.length + 1
deriving DecidableEq, Repr

namespace Passed

/-- Nothing passed. -/
def start : Passed := ⟨[], [], 1, 1, rfl, rfl⟩

/-- Passes one character. A line feed finishes the line, which loses the carriage
returns at its end. -/
def pass (p : Passed) (c : Char) : Passed :=
  if c = '\n' then
    { lines := (p.current.dropWhile (· = '\r')).reverse :: p.lines, current := []
      lineNumber := p.lineNumber + 1, column := 1
      lineNumber_eq := by simp [p.lineNumber_eq], column_eq := rfl }
  else
    { lines := p.lines, current := c :: p.current
      lineNumber := p.lineNumber, column := p.column + 1
      lineNumber_eq := p.lineNumber_eq, column_eq := by simp [p.column_eq] }

/-- Passes the characters of a text in order. -/
def passAll (p : Passed) (s : List Char) : Passed := s.foldl pass p

/-- The position of the next character. -/
def position (p : Passed) : Position := ⟨p.lineNumber, p.column⟩

/-- The passed characters of the current line. -/
def currentLine (p : Passed) : String := String.ofList p.current.reverse

/-- The text of a line: of the current one what has been passed, of an earlier
one all of it, of any other number nothing. -/
def lineText (p : Passed) (n : Int) : String :=
  if n = p.lineNumber then p.currentLine
  else if 1 ≤ n ∧ n < p.lineNumber then
    String.ofList (p.lines.reverse.getD (n - 1).toNat [])
  else ""

end Passed

/-- A place in a source between the text passed and the text ahead. -/
structure Cursor where
  passed : Passed
  ahead : List Char
deriving DecidableEq, Repr

namespace Cursor

/-- The cursor at the start of a source. -/
def ofText (s : List Char) : Cursor := ⟨.start, s⟩

/-- The position of the next character. -/
def position (c : Cursor) : Position := c.passed.position

/-- The token or diagnostic for a reading that starts after `passed`. -/
def report (passed : Passed) (r : Reading) : Except Diagnostic Token :=
  let start := passed.passAll r.blanks
  match r.item with
  | .finished => .ok ⟨⟨.endOfInput, ""⟩, start.position⟩
  | .lineFeed => .ok ⟨⟨.endOfLine, ""⟩, (start.pass '\n').position⟩
  | .lexeme kind text => .ok ⟨⟨kind, String.ofList text⟩, start.position⟩
  | .fault cause before offender =>
    let atOffender := start.passAll before
    .error (.ofScan cause.name (atOffender.pass offender).currentLine atOffender.position)

/-- The cursor behind a reading. -/
def behind (passed : Passed) (r : Reading) : Cursor :=
  ⟨(passed.passAll r.blanks).passAll r.item.chars, r.rest⟩

/-- The next token, or the diagnostic of a character that fits no token, and the
cursor behind it. The end of a line is a token that stands at the start of the
next line. -/
def scan (c : Cursor) : Except Diagnostic Token × Cursor :=
  let r := read c.ahead
  (report c.passed r, behind c.passed r)

/-- A result of `scan` after which there is more to come. -/
def goesOn : Except Diagnostic Token → Bool
  | .ok t => t.kind ≠ .endOfInput
  | .error _ => false

theorem item_ne_finished_of_goesOn {passed : Passed} {r : Reading}
    (h : goesOn (report passed r)) : r.item ≠ .finished := by
  intro hr
  simp [report, hr, goesOn] at h

/-- A token that does not end the input takes characters from the text ahead. -/
theorem length_ahead_scan_lt {c : Cursor} (h : goesOn c.scan.1) :
    c.scan.2.ahead.length < c.ahead.length :=
  length_rest_read_lt (item_ne_finished_of_goesOn h)

/-- The results of scanning on until the end of the input or a diagnostic, which
is the last of them, each with the cursor behind it. -/
def results (c : Cursor) : List (Except Diagnostic Token × Cursor) :=
  if _h : goesOn c.scan.1 then c.scan :: c.scan.2.results else [c.scan]
termination_by c.ahead.length
decreasing_by exact length_ahead_scan_lt _h

end Cursor

end Calculator
