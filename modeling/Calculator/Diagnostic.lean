import Calculator.Failure
import Calculator.Token

/-!
# Diagnostics

What is reported about a faulty expression: the stage that found the fault, what
was found, the source line with a caret below the fault, and what would have
been valid, where that is known.
-/

namespace Calculator

/-- The stage of evaluation that reports a fault, with the token at fault and,
for an arithmetic step, the reason why it has no result. -/
inductive Stage where
  | general
  | scan
  | parse (token : Token)
  | eval (token : Token) (reason : String)
deriving DecidableEq, Repr

/-- The name of a stage. -/
def Stage.name : Stage → String
  | general => "error"
  | scan => "scan"
  | parse _ => "parse"
  | eval _ _ => "eval"

/-- The token at fault. -/
def Stage.token? : Stage → Option Token
  | parse t => some t
  | eval t _ => some t
  | _ => none

/-- A located fault in an expression. -/
structure Diagnostic where
  stage : Stage
  unexpected : String
  line : String
  position : Position
  expected : Option String
deriving DecidableEq, Repr

namespace Diagnostic

/-- A source line, and below it a caret under the given column. -/
def caret (line : String) (column : Int) : String :=
  line ++ "\n" ++ String.ofList (List.replicate (column - 1).toNat '-') ++ "^"

/-- The farthest column that a caret can stand at. -/
def farthestColumn : Int := Int.pow 2 36

/-- Refuses a column that is too far to the right for a caret. -/
def checkColumn (column : Int) : Except Failure Unit :=
  if Int.pow 2 63 < column then .error .repeatCount
  else if farthestColumn < column then .error .noMemory
  else .ok ()

/-- The text of a diagnostic: headline, source line, caret, and the expectation
unless it is absent or empty. -/
def render (unexpected line : String) (position : Position) (expected : Option String) : String :=
  let head := s!"Unexpected {unexpected} at line {position.render}\n" ++ caret line position.column
  match expected with
  | none => head
  | some e => if e.isEmpty then head else head ++ "\nExpected " ++ e

/-- The text of a diagnostic. -/
def message (d : Diagnostic) : String := render d.unexpected d.line d.position d.expected

/-- A character that no token can start or go on with. -/
def ofScan (unexpected line : String) (position : Position) (expected : Option String := none) :
    Diagnostic :=
  ⟨.scan, unexpected, line, position, expected⟩

/-- A token that does not fit, reported at its own position unless another one
is given. -/
def ofParse (token : Token) (line : String) (expected : Option String)
    (position : Position := token.position) : Diagnostic :=
  ⟨.parse token, s!"token of \"{token.kind.display}\"", line, position, expected⟩

/-- An operation without a result, reported at its token. -/
def ofEval (token : Token) (line reason : String) : Diagnostic :=
  ⟨.eval token reason, s!"result of \"{token.text}\" ({reason})", line, token.position, none⟩

end Diagnostic

end Calculator
