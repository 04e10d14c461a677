import Calculator.Data.Datum
import Calculator.Number.Reader
import Calculator.Text.Hex

/-!
# Reading JSON

JSON text into data. Beyond the grammar of JSON, the names of NaN and of the
infinite values are numbers. Of fields with one name the last value counts, in
the place of the first. Integers with too many digits and collections that are
nested too deeply are failures of their own, not faults of the grammar. The
reader takes a fuel argument, which `read` sets from the length of the text.
-/

namespace Calculator.Json

/-- Why a text gives no data. -/
inductive Fault where
  | malformed
  | failure (cause : Failure)
deriving DecidableEq, Repr

/-- A text that does not follow the grammar. -/
def malformed {α : Type} : Except Fault α := .error .malformed

/-- A result that must be there. -/
def required {α : Type} : Option α → Except Fault α
  | some a => .ok a
  | none => malformed

/-- The blanks between the tokens of JSON. -/
def isBlank (c : Char) : Bool := c = ' ' || c = '\t' || c = '\n' || c = '\r'

/-- The text behind the blanks at its front. -/
def skipBlanks (s : List Char) : List Char := s.dropWhile isBlank

/-- Four hexadecimal digits as a code unit. -/
def takeUnit? : List Char → Option (Nat × List Char)
  | a :: b :: c :: d :: s => do
    let ds ← [a, b, c, d].mapM Text.hexValue?
    some (Text.valueOfDigits 16 ds, s)
  | _ => none

/-- A code unit that begins a pair. -/
def isHighUnit (n : Nat) : Bool := 0xD800 ≤ n && n < 0xDC00

/-- A code unit that ends a pair. -/
def isLowUnit (n : Nat) : Bool := 0xDC00 ≤ n && n < 0xE000

/-- The point of a pair of code units. -/
def pairPoint (high low : Nat) : Text.Point :=
  .char (Char.ofNat (0x10000 + (high - 0xD800) * 0x400 + (low - 0xDC00)))

/-- The point behind an escape `\u`, and the rest. -/
def takeUnicode? (s : List Char) : Option (Text.Point × List Char) := do
  let (high, s) ← takeUnit? s
  match isHighUnit high, s with
  | true, '\\' :: 'u' :: t =>
    match takeUnit? t with
    | some (low, t) =>
      if isLowUnit low then some (pairPoint high low, t) else some (.ofCode high, s)
    | none => some (.ofCode high, s)
  | _, s => some (.ofCode high, s)

/-- The character that a one-letter escape stands for. -/
def simpleEscape? : Char → Option Char
  | '"' => some '"'
  | '\\' => some '\\'
  | '/' => some '/'
  | 'b' => some '\x08'
  | 'f' => some '\x0c'
  | 'n' => some '\n'
  | 'r' => some '\r'
  | 't' => some '\t'
  | _ => none

/-- The points of a string up to its closing quote, and the rest. Control
characters must be escaped. -/
def takeString : Nat → List Char → Except Fault (List Text.Point × List Char)
  | 0, _ => malformed
  | _ + 1, [] => malformed
  | fuel + 1, c :: s =>
    if c = '"' then .ok ([], s)
    else if c < ' ' then malformed
    else do
      let (p, s) ← takePoint c s
      let (ps, s) ← takeString fuel s
      pure (p :: ps, s)
where
  /-- The point that starts with a character. -/
  takePoint (c : Char) (s : List Char) : Except Fault (Text.Point × List Char) :=
    if c ≠ '\\' then .ok (.char c, s)
    else match s with
      | 'u' :: s => required (takeUnicode? s)
      | e :: s => (fun c => (.char c, s)) <$> required (simpleEscape? e)
      | [] => malformed

/-- The digits of an integer part: a lone zero, or digits that do not start with
one. -/
def takeWhole? : List Char → Option (List Char × List Char)
  | '0' :: s => some (['0'], s)
  | c :: s =>
    if c.isDigit then some (c :: s.takeWhile Char.isDigit, s.dropWhile Char.isDigit) else none
  | [] => none

/-- A point and at least one digit, as the digits; none if the text does not go on
so. -/
def takeFraction : List Char → List Char × List Char
  | '.' :: c :: s =>
    if c.isDigit then (c :: s.takeWhile Char.isDigit, s.dropWhile Char.isDigit)
    else ([], '.' :: c :: s)
  | s => ([], s)

/-- An exponent mark, a sign or none, and at least one digit, as the exponent. -/
def takeExponent : List Char → Option Int × List Char
  | mark :: s =>
    if mark = 'e' ∨ mark = 'E' then
      let (negative, ds) := takeSign s
      let digits := ds.takeWhile Char.isDigit
      if digits = [] then (none, mark :: s)
      else
        let n : Int := natOfDigits digits
        (some (if negative then -n else n), ds.dropWhile Char.isDigit)
    else (none, mark :: s)
  | [] => (none, [])

/-- A number and the rest: an integer unless there is a fraction or an
exponent. -/
def takeNumber (s : List Char) : Except Fault (Number × List Char) := do
  let (negative, body) := match s with
    | '-' :: s => (true, s)
    | s => (false, s)
  let (whole, s) ← required (takeWhole? body)
  let (fraction, s) := takeFraction s
  let (exponent, s) := takeExponent s
  if fraction = [] ∧ exponent = none then
    let n ← (readDigits whole).mapError .failure
    pure (.int (signed negative n), s)
  else
    let x := DecimalText.toFloat ⟨whole, fraction, exponent.getD 0⟩
    pure (.float (Number.withSign negative x), s)

/-- The text behind a word at its front. -/
def afterWord? (word : String) (s : List Char) : Option (List Char) :=
  if word.toList.isPrefixOf s then some (s.drop word.length) else none

/-- The names of scalars. -/
def words : List (String × Datum) :=
  [("null", .null), ("true", .bool true), ("false", .bool false),
   ("NaN", .number (.float (0.0 / 0.0))), ("Infinity", .number (.float (1.0 / 0.0))),
   ("-Infinity", .number (.float (-1.0 / 0.0)))]

/-- A scalar without quotes, and the rest. -/
def takeScalar (s : List Char) : Except Fault (Datum × List Char) :=
  match words.findSome? fun w => (afterWord? w.1 s).map (w.2, ·) with
  | some r => .ok r
  | none => (fun r => (.number r.1, r.2)) <$> takeNumber s

/-- How deep collections may be nested. The number stands for the bounded stack of a
reader and a writer. How much of the stack is in use already is not modelled. -/
def deepest : Nat := 985

/-- The levels that are left inside a collection of a kind. -/
def enter (kind : String) : Nat → Except Fault Nat
  | 0 => .error (.failure (.jsonNesting kind))
  | levels + 1 => .ok levels

mutual

/-- Data at the front of a text without blanks there, and the rest, with some levels
of nesting left. -/
def takeValue (levels : Nat) : Nat → List Char → Except Fault (Datum × List Char)
  | 0, _ => malformed
  | fuel + 1, s =>
    match s with
    | '"' :: s => (fun r => (.ofPoints r.1, r.2)) <$> takeString (s.length + 1) s
    | '[' :: s => do
      let levels ← enter "array" levels
      match skipBlanks s with
      | ']' :: s => pure (.list [], s)
      | s => (fun r => (.list r.1, r.2)) <$> takeItems levels fuel s
    | '{' :: s => do
      let levels ← enter "object" levels
      match skipBlanks s with
      | '}' :: s => pure (.record [], s)
      | s => (fun r => (.record r.1, r.2)) <$> takeFields levels fuel [] s
    | s => takeScalar s

/-- Items up to the closing bracket. -/
def takeItems (levels : Nat) : Nat → List Char → Except Fault (List Datum × List Char)
  | 0, _ => malformed
  | fuel + 1, s => do
    let (d, s) ← takeValue levels fuel s
    match skipBlanks s with
    | ']' :: s => pure ([d], s)
    | ',' :: s => do
      let (ds, s) ← takeItems levels fuel (skipBlanks s)
      pure (d :: ds, s)
    | _ => malformed

/-- Fields up to the closing brace, onto the fields read so far. -/
def takeFields (levels : Nat) : Nat → Fields → List Char → Except Fault (Fields × List Char)
  | 0, _, _ => malformed
  | fuel + 1, fields, s =>
    match s with
    | '"' :: s => do
      let (name, s) ← takeString (s.length + 1) s
      match skipBlanks s with
      | ':' :: s => do
        let (d, s) ← takeValue levels fuel (skipBlanks s)
        let fields := fields.set (Text.mendedText name) d
        match skipBlanks s with
        | '}' :: s => pure (fields, s)
        | ',' :: s => takeFields levels fuel fields (skipBlanks s)
        | _ => malformed
      | _ => malformed
    | _ => malformed

end

/-- The data that a whole text holds, with blanks around it allowed. -/
def read (s : List Char) : Except Fault Datum := do
  let (d, rest) ← takeValue deepest (2 * s.length + 2) (skipBlanks s)
  if skipBlanks rest = [] then pure d else malformed

/-- The data of a well-formed text. -/
def read? (s : List Char) : Option Datum := (read s).toOption

end Calculator.Json
