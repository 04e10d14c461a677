import Calculator.Expression.Domain
import Calculator.Token

/-!
# Faults

Why the evaluation of a sequence of lexemes has no value. A fault says where it
is by the lexemes that had not been used up: those from the lexeme at fault on,
and those from the next unread one on. Positions and line texts play no part.
-/

namespace Calculator

/-- What would have been valid at a misplaced lexeme. -/
inductive Expectation where
  | operand
  | closing
  | operatorOrEnd
  | argument (name : String)
  | constant (name : String)
  | operatorAfter (name : String)
  | function (name : String)
  | depth
deriving DecidableEq, Repr

/-- The wording of an expectation under a nesting limit. -/
def Expectation.text (limit : Nat) : Expectation → String
  | operand => "'(', identifier, or number"
  | closing => "')'"
  | operatorOrEnd => "operator or end of input"
  | argument name => s!"'(' after function \"{name}\""
  | constant name => s!"a known constant, \"{name}\" is not defined"
  | operatorAfter name => s!"an operator after constant \"{name}\""
  | function name => s!"a known function, \"{name}\" is not defined"
  | depth => s!"at most {limit} levels of nesting"

/-- Why there is no value. `site` holds the lexemes from the one at fault on,
`ahead` those from the next unread one on. -/
inductive Fault where
  /-- The lexemes end in a lexical fault that has been reached. -/
  | lexical
  /-- A lexeme, or the end of the input, does not fit. -/
  | misplaced (site ahead : List Lexeme) (expected : Expectation)
  /-- The step of an operator or function has no result. -/
  | step (site ahead : List Lexeme) (reason : String)
  /-- A failure that no diagnostic reports. -/
  | escaped (cause : Failure)
deriving DecidableEq, Repr

/-- The fault of a step at the first lexeme of `site`. -/
def Fault.ofMishap (site ahead : List Lexeme) (m : Mishap) : Fault :=
  match m with
  | .escaped cause => .escaped cause
  | .failure cause => .step site ahead cause.message
  | .complexResult => .step site ahead "complex result"
  | .overflow => .step site ahead "overflow"

end Calculator
