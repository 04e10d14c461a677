import Calculator.Text.Quoted

/-!
# Tokens

A lexeme is a fragment of an expression with its kind; a token is a lexeme with
the position of its first character. Kinds have a name with underscores and a
spelling for messages in which they are spaces.
-/

namespace Calculator

/-- A line and a column, counted from one in a source. -/
structure Position where
  line : Int
  column : Int
deriving DecidableEq, Repr

/-- The form of a position in messages. -/
def Position.render (p : Position) : String := s!"{p.line} : {p.column}"

/-- The kinds of tokens. -/
inductive TokenKind where
  | number
  | identifier
  | plus
  | minus
  | multiply
  | divide
  | power
  | leftParen
  | rightParen
  | endOfInput
  | endOfLine
deriving DecidableEq, Repr

namespace TokenKind

/-- All kinds, in the order of their declaration. -/
def all : List TokenKind :=
  [number, identifier, plus, minus, multiply, divide, power, leftParen, rightParen, endOfInput,
   endOfLine]

/-- The name of a kind. -/
def name : TokenKind → String
  | number => "number"
  | identifier => "identifier"
  | plus => "plus"
  | minus => "minus"
  | multiply => "multiply"
  | divide => "divide"
  | power => "power"
  | leftParen => "left_paren"
  | rightParen => "right_paren"
  | endOfInput => "end_of_input"
  | endOfLine => "end_of_line"

/-- The kind with a given name. -/
def ofName? (s : String) : Option TokenKind := all.find? (·.name == s)

/-- The spelling of a kind in messages, its name with spaces. -/
def display (k : TokenKind) : String :=
  String.ofList (k.name.toList.map fun c => if c = '_' then ' ' else c)

/-- The kind of an operator or parenthesis. -/
def ofSymbol? : Char → Option TokenKind
  | '+' => some plus
  | '-' => some minus
  | '*' => some multiply
  | '/' => some divide
  | '^' => some power
  | '(' => some leftParen
  | ')' => some rightParen
  | _ => none

end TokenKind

/-- A classified fragment of source text. -/
structure Lexeme where
  kind : TokenKind
  text : String
deriving DecidableEq, Repr

/-- A lexeme and where its first character stands. The ends of lines and of the
input have an empty text. -/
structure Token extends Lexeme where
  position : Position
deriving DecidableEq, Repr

/-- A token in one line, its text in quotation marks. -/
def Token.render (t : Token) : String :=
  if t.text.isEmpty then s!"{t.kind.display} at {t.position.render}"
  else s!"{t.kind.display} {Text.quoted t.text} at {t.position.render}"

end Calculator
