import Calculator.Template.Presentation

/-!
# Replacement fields

A template is text with replacement fields in braces; a doubled brace stands for
a brace. A field has a name, a conversion after an exclamation mark, and a
specification after a colon, each of which may be absent. `pieces` takes a
template apart up to the first place where it is malformed.
-/

namespace Calculator.Template

/-- A part of a template. -/
inductive Piece where
  | literal (s : List Char)
  | field (name : List Char) (conversion : Option Char) (spec : List Char)
  | malformed
deriving DecidableEq, Repr

/-- How the name of a field ends. -/
inductive NameEnd where
  | closed
  | colon
  | bang
deriving DecidableEq, Repr

/-- The name of a field, what ends it, and the rest. Between brackets all
characters belong to the name. -/
def takeName : Bool → List Char → Option (List Char × NameEnd × List Char)
  | _, [] => none
  | true, c :: s => (takeName (c ≠ ']') s).map fun r => (c :: r.1, r.2)
  | false, c :: s =>
    if c = '{' then none
    else if c = '}' then some ([], .closed, s)
    else if c = ':' then some ([], .colon, s)
    else if c = '!' then some ([], .bang, s)
    else (takeName (c = '[') s).map fun r => (c :: r.1, r.2)

/-- A specification up to the brace that closes the field, past nested fields of
which `depth` are open, and the rest. -/
def takeSpec : Nat → List Char → Option (List Char × List Char)
  | _, [] => none
  | 0, '}' :: s => some ([], s)
  | depth + 1, '}' :: s => (takeSpec depth s).map fun r => ('}' :: r.1, r.2)
  | depth, c :: s =>
    (takeSpec (if c = '{' then depth + 1 else depth) s).map fun r => (c :: r.1, r.2)

/-- A field behind its opening brace, and the rest. -/
def takeField (s : List Char) : Option (Piece × List Char) := do
  let (name, ending, s) ← takeName false s
  match ending, s with
  | .closed, s => some (.field name none [], s)
  | .colon, s => do
    let (spec, s) ← takeSpec 0 s
    some (.field name none spec, s)
  | .bang, c :: '}' :: s => some (.field name (some c) [], s)
  | .bang, c :: ':' :: s => do
    let (spec, s) ← takeSpec 0 s
    some (.field name (some c) spec, s)
  | .bang, _ => none

/-- A character that is no brace. -/
def isPlain (c : Char) : Bool := c ≠ '{' && c ≠ '}'

/-- The pieces of a template. The first argument bounds their number. -/
def piecesFrom : Nat → List Char → List Piece
  | 0, _ => []
  | _ + 1, [] => []
  | fuel + 1, '{' :: '{' :: s => .literal ['{'] :: piecesFrom fuel s
  | fuel + 1, '}' :: '}' :: s => .literal ['}'] :: piecesFrom fuel s
  | _ + 1, '}' :: _ => [.malformed]
  | fuel + 1, '{' :: s =>
    match takeField s with
    | some (field, rest) => field :: piecesFrom fuel rest
    | none => [.malformed]
  | fuel + 1, s => .literal (s.takeWhile isPlain) :: piecesFrom fuel (s.dropWhile isPlain)

/-- The pieces of a template, the last of them malformed if the template is. -/
def pieces (s : List Char) : List Piece := piecesFrom (s.length + 1) s

/-- What a part of a field name asks of a value. -/
inductive Access where
  | attribute (name : List Char)
  | item (key : List Char)
deriving DecidableEq, Repr

/-- The next access of a field name, and the rest; none if it is malformed. -/
def takeAccess : List Char → Option (Access × List Char)
  | '.' :: s =>
    let name := s.takeWhile fun c => c ≠ '.' && c ≠ '['
    if name = [] then none
    else some (.attribute name, s.dropWhile fun c => c ≠ '.' && c ≠ '[')
  | '[' :: s =>
    let key := s.takeWhile (· ≠ ']')
    match s.dropWhile (· ≠ ']') with
    | _ :: rest => if key = [] then none else some (.item key, rest)
    | [] => none
  | _ => none

/-- A field name as a number: none if it is not one, and refused beyond the
largest. -/
def nameNumber (s : List Char) : Except Refusal (Option Nat) :=
  match Spec.takeNumber s with
  | some (n, rest) => .ok (if rest = [] then n else none)
  | none => if s.all Text.isDecimal then .error .unsuitable else .ok none

end Calculator.Template
