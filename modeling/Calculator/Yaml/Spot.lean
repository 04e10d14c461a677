import Calculator.Failure

/-!
# Places in a document

A place in a YAML document: the text ahead, and its index, line and column. The
end of the document is seen as a zero character, which no document contains.
-/

namespace Calculator.Yaml

/-- A failure of the document itself. -/
def refuse {α : Type} : Except Failure α := .error .malformedDocument

/-- Characters that end a line. -/
def isBreak (c : Char) : Bool :=
  c = '\r' || c = '\n' || c = '\u0085' || c = '\u2028' || c = '\u2029'

/-- The end of a line or of the document. -/
def isBreakOrEnd (c : Char) : Bool := c = '\x00' || isBreak c

/-- A space, or the end of a line or of the document. -/
def isSpaceOrEnd (c : Char) : Bool := c = ' ' || isBreakOrEnd c

/-- A space or tab, or the end of a line or of the document. -/
def isBlankOrEnd (c : Char) : Bool := c = '\t' || isSpaceOrEnd c

/-- Letters, digits, the hyphen and the underscore: the characters of names. -/
def isNameChar (c : Char) : Bool := c.isAlphanum || c = '-' || c = '_'

/-- Characters that a document may contain. -/
def isAllowed (c : Char) : Bool :=
  c = '\t' || c = '\n' || c = '\r' || (' ' ≤ c && c ≤ '~') || c = '\u0085'
    || (0xA0 ≤ c.toNat && c.toNat ≤ 0xFFFD) || 0x10000 ≤ c.toNat

/-- A place in a document. -/
structure Spot where
  rest : List Char
  index : Nat
  line : Nat
  column : Nat
deriving DecidableEq, Repr

namespace Spot

/-- The start of a document. -/
def start (s : List Char) : Spot := ⟨s, 0, 0, 0⟩

/-- The character some places ahead. -/
def peek (s : Spot) (n : Nat := 0) : Char := s.rest.getD n '\x00'

/-- The place one character on. A byte-order mark has no column. -/
def next (s : Spot) : Spot :=
  match s.rest with
  | [] => s
  | c :: rest =>
    if isBreak c && !(c = '\r' && rest.head? = some '\n') then
      ⟨rest, s.index + 1, s.line + 1, 0⟩
    else ⟨rest, s.index + 1, s.line, if c = '\uFEFF' then s.column else s.column + 1⟩

/-- The place `n` characters on. -/
def advance : Nat → Spot → Spot
  | 0, s => s
  | n + 1, s => advance n s.next

/-- The characters ahead that satisfy `p`, and the place behind them. -/
def takeWhile (p : Char → Bool) (s : Spot) : List Char × Spot :=
  let cs := s.rest.takeWhile p
  (cs, s.advance cs.length)

/-- The place behind the characters ahead that satisfy `p`. -/
def skipWhile (p : Char → Bool) (s : Spot) : Spot := (s.takeWhile p).2

/-- The place behind the spaces ahead. -/
def skipSpaces (s : Spot) : Spot := s.skipWhile (· = ' ')

/-- The place at the end of the line. -/
def skipLine (s : Spot) : Spot := s.skipWhile fun c => !isBreak c

/-- The end of a line as it is read, a line feed for most, and the place behind
it. -/
def lineBreak (s : Spot) : Option (Char × Spot) :=
  match s.rest with
  | '\r' :: '\n' :: _ => some ('\n', s.advance 2)
  | c :: _ =>
    if c = '\u2028' ∨ c = '\u2029' then some (c, s.next)
    else if isBreak c then some ('\n', s.next)
    else none
  | [] => none

/-- Whether a line of three marks that separates documents is ahead. -/
def atSeparator (s : Spot) : Bool :=
  (s.rest.take 3 = "---".toList || s.rest.take 3 = "...".toList) && isBlankOrEnd (s.peek 3)

/-- A comment or nothing, and the end of the line. -/
def endLine (s : Spot) : Except Failure Spot :=
  let s := s.skipSpaces
  let s := if s.peek = '#' then s.skipLine else s
  if isBreakOrEnd s.peek then .ok (((s.lineBreak).map (·.2)).getD s) else refuse

end Spot

end Calculator.Yaml
