import Calculator.Expression.Fault

/-!
# Rules of evaluation

Expressions are evaluated in one pass over their lexemes:

    expression := term (('+' | '-') term)*
    term       := factor (('*' | '/') factor)*
    factor     := ['-'] operand powers
    powers     := ('^' ['-'] operand powers)?
    operand    := '(' expression ')' | constant | function group | number

Sums and products associate to the left, powers to the right, and a minus in
front of a factor negates its whole chain of powers. Each group and each power
takes one level of nesting; `operand` and `powers` recurse on the levels left,
and the other rules are built from these two.
-/

namespace Calculator

/-- How the lexemes of a source end: at the end of the input, or at a lexical
fault. -/
inductive Ending where
  | complete
  | broken
deriving DecidableEq, Repr

variable {V : Type}

/-- A rule turns unread lexemes into a value and the lexemes after it. -/
abbrev Rule (V : Type) := List Lexeme → Except Fault (V × List Lexeme)

/-- Moves on to the given lexemes. If there are none left, the ending is
reached. -/
def advance (ending : Ending) (rest : List Lexeme) : Except Fault (List Lexeme) :=
  match rest, ending with
  | [], .broken => .error .lexical
  | rest, _ => .ok rest

/-- The value of a step whose operator or function is the first lexeme of
`site`. -/
def applied (site ahead : List Lexeme) : Except Mishap V → Except Fault (V × List Lexeme)
  | .ok v => .ok (v, ahead)
  | .error m => .error (.ofMishap site ahead m)

/-- The operator of a sum. -/
def additive? : TokenKind → Option Operation
  | .plus => some .add
  | .minus => some .subtract
  | _ => none

/-- The operator of a product. -/
def multiplicative? : TokenKind → Option Operation
  | .multiply => some .multiply
  | .divide => some .divide
  | _ => none

/-- Moves past a minus, if there is one, and says whether there was. -/
def signAt (ending : Ending) (lexemes : List Lexeme) : Except Fault (Bool × List Lexeme) :=
  match lexemes with
  | l :: rest =>
    if l.kind = .minus then (true, ·) <$> advance ending rest else .ok (false, lexemes)
  | [] => .ok (false, [])

section Rules

variable (d : Domain V) (ending : Ending)

/-- Goes on with operators of one precedence after the value `v`, from left to
right. The first argument bounds the number of operators and holds at least as
many lexemes as are unread. -/
def chainFrom (operator? : TokenKind → Option Operation) (rule : Rule V) :
    List Lexeme → V → Rule V
  | [], v, lexemes => .ok (v, lexemes)
  | _ :: bound, v, lexemes =>
    match lexemes with
    | [] => .ok (v, [])
    | l :: rest =>
      match operator? l.kind with
      | none => .ok (v, l :: rest)
      | some op => do
        let rest ← advance ending rest
        let (w, ahead) ← rule rest
        let (v, ahead) ← applied lexemes ahead (d.operate op v w)
        chainFrom operator? rule bound v ahead

/-- Operands of one precedence with operators between them. -/
def chain (operator? : TokenKind → Option Operation) (rule : Rule V) : Rule V := fun lexemes => do
  let (v, ahead) ← rule lexemes
  chainFrom d ending operator? rule ahead v ahead

/-- A value, negated if a minus stands before it. -/
def negatedIf (negated : Bool) (v : V) : Except Fault V :=
  if negated then (d.negate v).mapError .escaped else .ok v

/-- An operand with its chain of powers, negated if a minus stands before it. -/
def factor (operand : Rule V) (powers : V → Rule V) : Rule V := fun lexemes => do
  let (negated, lexemes) ← signAt ending lexemes
  let (v, ahead) ← operand lexemes
  let (v, ahead) ← powers v ahead
  let v ← negatedIf d negated v
  pure (v, ahead)

/-- A product of factors. -/
def term (operand : Rule V) (powers : V → Rule V) : Rule V :=
  chain d ending multiplicative? (factor d ending operand powers)

/-- A sum of terms. -/
def expression (operand : Rule V) (powers : V → Rule V) : Rule V :=
  chain d ending additive? (term d ending operand powers)

/-- The inside of a group and its closing parenthesis. -/
def groupBody (inner : Rule V) : Rule V := fun lexemes => do
  let (v, ahead) ← inner lexemes
  match ahead with
  | l :: rest =>
    if l.kind = .rightParen then (v, ·) <$> advance ending rest
    else .error (.misplaced ahead ahead .closing)
  | [] => .error (.misplaced [] [] .closing)

/-- A name that no parenthesis follows: it must be a constant. -/
def constantAt (site ahead : List Lexeme) (name : String) : Except Fault (V × List Lexeme) :=
  match d.constant? name with
  | some v => .ok (v, ahead)
  | none =>
    if (d.function? name).isSome then .error (.misplaced ahead ahead (.argument name))
    else .error (.misplaced site ahead (.constant name))

/-- A name before a parenthesis: it must be a function, and is applied to the
group. -/
def callAt (group : Rule V) (site ahead : List Lexeme) (name : String) :
    Except Fault (V × List Lexeme) :=
  match d.function? name with
  | some f => do
    let (v, rest) ← group ahead
    applied site rest (f v)
  | none =>
    if (d.constant? name).isSome then .error (.misplaced ahead ahead (.operatorAfter name))
    else .error (.misplaced site ahead (.function name))

/-- Whether the next lexeme opens a group. -/
def opensGroup : List Lexeme → Bool
  | l :: _ => l.kind = .leftParen
  | [] => false

/-- An operand, given the rule for groups, which starts at the opening
parenthesis. -/
def operandWith (group : Rule V) : Rule V := fun lexemes =>
  match lexemes with
  | [] => .error (.misplaced [] [] .operand)
  | l :: rest =>
    match l.kind with
    | .leftParen => group lexemes
    | .identifier => do
      let ahead ← advance ending rest
      if opensGroup ahead then callAt d group lexemes ahead l.text
      else constantAt d lexemes ahead l.text
    | .number =>
      match d.literal l.text with
      | .ok v => (v, ·) <$> advance ending rest
      | .error cause => .error (.escaped cause)
    | _ => .error (.misplaced lexemes lexemes .operand)

/-- A group or power that would take a level where none is left. -/
def tooDeep : Rule V := fun lexemes => .error (.misplaced lexemes lexemes .depth)

/-- A group within the levels that `inner` has, starting at its parenthesis. -/
def groupWith (inner : Rule V) : Rule V := fun lexemes => do
  let rest ← advance ending (lexemes.drop 1)
  groupBody ending inner rest

/-- Powers of `base`, given the rule for a power, which starts at its operator. -/
def powersWith (power : V → Rule V) (base : V) : Rule V := fun lexemes =>
  match lexemes with
  | l :: _ => if l.kind = .power then power base lexemes else .ok (base, lexemes)
  | [] => .ok (base, [])

/-- A power of `base` whose exponent has the levels of the given rules. -/
def powerWith (operand : Rule V) (powers : V → Rule V) (base : V) : Rule V := fun lexemes => do
  let rest ← advance ending (lexemes.drop 1)
  let (negated, rest) ← signAt ending rest
  let (v, ahead) ← operand rest
  let (v, ahead) ← powers v ahead
  let v ← negatedIf d negated v
  applied lexemes ahead (d.operate .power base v)

mutual

/-- An operand with some levels of nesting left. -/
def operand : Nat → Rule V
  | 0 => operandWith d ending tooDeep
  | n + 1 => operandWith d ending (groupWith ending (expression d ending (operand n) (powers n)))

/-- The powers of a base with some levels of nesting left. -/
def powers : Nat → V → Rule V
  | 0 => powersWith fun _ => tooDeep
  | n + 1 => powersWith (powerWith d ending (operand n) (powers n))

end

/-- The value of a whole sequence of lexemes with at most `limit` levels of
nesting. -/
def evaluateLexemes (limit : Nat) (lexemes : List Lexeme) : Except Fault V := do
  let lexemes ← advance ending lexemes
  let (v, ahead) ← expression d ending (operand d ending limit) (powers d ending limit) lexemes
  match ahead with
  | [] => pure v
  | _ => throw (.misplaced ahead ahead .operatorOrEnd)

end Rules

end Calculator
