import Calculator.Expression.Rules
import Calculator.Source.Transcript

/-!
# Evaluation

Evaluating the text of an expression: its lexemes are evaluated by the rules, and
a fault is located in the text. The nesting limit is a number from one to
`DepthLimit.largest`.
-/

namespace Calculator

/-- A limit on the nesting of groups and powers. -/
structure DepthLimit where
  levels : Nat
  positive : 1 ≤ levels
  atMost : levels ≤ 125
deriving DecidableEq, Repr

namespace DepthLimit

/-- The largest limit. -/
def largest : Nat := 125

/-- The limit that holds unless another one is chosen. -/
def standard : DepthLimit := ⟨100, by decide, by decide⟩

/-- An integer as a limit, if it is in range. -/
def ofInt (n : Int) : Except Failure DepthLimit :=
  if hl : n < 1 then .error (.depthNotPositive n)
  else if hh : largest < n then .error (.depthTooLarge largest n)
  else .ok ⟨n.toNat, by omega, by simp only [largest] at hh; omega⟩

end DepthLimit

namespace Transcript

/-- How the lexemes end. -/
def endingKind (t : Transcript) : Ending :=
  match t.ending with
  | .ok _ => .complete
  | .error _ => .broken

/-- The end of the input after nothing. -/
def emptyEntry : Entry := ⟨⟨⟨.endOfInput, ""⟩, Passed.start.position⟩, .start⟩

/-- The token from which on the given lexemes were left, and the text of its line
as far as it had been passed when the lexemes `ahead` were left unread. -/
def located (t : Transcript) (site ahead : List Lexeme) : Token × String :=
  let token := ((t.entryAt? site.length).getD emptyEntry).token
  let passed := ((t.entryAt? ahead.length).getD emptyEntry).passed
  (token, passed.lineText token.position.line)

/-- The report on a fault. -/
def report (t : Transcript) (limit : Nat) : Fault → Trouble
  | .lexical =>
    match t.ending with
    | .error trouble => trouble
    | .ok e => .diagnosed (.ofParse e.token (e.passed.lineText e.token.position.line) none)
  | .misplaced site ahead expected =>
    let (token, line) := t.located site ahead
    .diagnosed (.ofParse token line (some (expected.text limit)))
  | .step site ahead reason =>
    let (token, line) := t.located site ahead
    .diagnosed (.ofEval token line reason)
  | .escaped cause => .escaped cause

/-- The value of the expression in a transcript. -/
def evaluate {V : Type} (d : Domain V) (limit : DepthLimit) (t : Transcript) : Except Trouble V :=
  (evaluateLexemes d t.endingKind limit.levels t.lexemes).mapError (t.report limit.levels)

end Transcript

/-- The value of the text of an expression. -/
def evaluate {V : Type} (d : Domain V) (limit : DepthLimit) (s : List Char) :
    Except Trouble V :=
  (Transcript.ofText s).evaluate d limit

/-- The value of the expression that a source delivers. -/
def evaluateSupply {V : Type} (d : Domain V) (limit : DepthLimit) (s : Supply) :
    Except Trouble V :=
  (Transcript.ofSupply s).evaluate d limit

/-- A supply that is a whole text has the value of the text. -/
theorem evaluateSupply_ofText {V : Type} (d : Domain V) (limit : DepthLimit) (s : List Char) :
    evaluateSupply d limit (.ofText s) = evaluate d limit s := rfl

end Calculator
