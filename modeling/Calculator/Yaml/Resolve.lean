import Calculator.Yaml.Spot

/-!
# Tags of plain scalars

The tag that a plain scalar gets from its text: truth values, numbers, null,
dates, and the marks of merging and of default values. Anything else is a text.
-/

namespace Calculator.Yaml

/-- The tags of nodes. -/
inductive Tag where
  | text
  | int
  | float
  | bool
  | null
  | moment
  | merge
  | default
  | bytes
  | sequence
  | pairs
  | mapping
  | set
  | other
deriving DecidableEq, Repr

/-- The start of the tags of the language itself. -/
def coreUri : String := "tag:yaml.org,2002:"

/-- The tag with the given name in full. -/
def Tag.ofUri (uri : String) : Tag :=
  if uri = coreUri ++ "str" then text
  else if uri = coreUri ++ "int" then int
  else if uri = coreUri ++ "float" then float
  else if uri = coreUri ++ "bool" then bool
  else if uri = coreUri ++ "null" then null
  else if uri = coreUri ++ "timestamp" then moment
  else if uri = coreUri ++ "merge" then merge
  else if uri = coreUri ++ "value" then default
  else if uri = coreUri ++ "binary" then bytes
  else if uri = coreUri ++ "seq" then sequence
  else if uri = coreUri ++ "omap" ∨ uri = coreUri ++ "pairs" then pairs
  else if uri = coreUri ++ "map" then mapping
  else if uri = coreUri ++ "set" then set
  else other

/-- The words of truth. -/
def trueWords : List String := ["yes", "Yes", "YES", "true", "True", "TRUE", "on", "On", "ON"]

/-- The words of falsehood. -/
def falseWords : List String :=
  ["no", "No", "NO", "false", "False", "FALSE", "off", "Off", "OFF"]

/-- The words for null. -/
def nullWords : List String := ["", "~", "null", "Null", "NULL"]

/-- A digit or an underscore. -/
def isLooseDigit (c : Char) : Bool := c.isDigit || c = '_'

/-- A text without a sign at its front. -/
def withoutSign : List Char → List Char
  | c :: s => if c = '+' ∨ c = '-' then s else c :: s
  | [] => []

/-- A text whose characters satisfy `p`, and which has some. -/
def isRun (p : Char → Bool) (s : List Char) : Bool := s ≠ [] && s.all p

/-- Parts of sixty, each behind a colon, of one digit or of two below sixty. -/
def isSixties : List Char → Bool
  | ':' :: a :: ':' :: s => a.isDigit && isSixties (':' :: s)
  | [':', a] => a.isDigit
  | ':' :: a :: b :: s => '0' ≤ a && a ≤ '5' && b.isDigit && (s = [] || isSixties s)
  | _ => false

/-- A whole number in base two, eight, ten, sixteen or sixty. -/
def isIntText (s : List Char) : Bool :=
  match withoutSign s with
  | ['0'] => true
  | '0' :: 'b' :: s => isRun (fun c => c = '0' || c = '1' || c = '_') s
  | '0' :: 'x' :: s => isRun (fun c => (c.isAlphanum && (c.isDigit || c.toLower ≤ 'f')) || c = '_') s
  | '0' :: s => isRun (fun c => ('0' ≤ c && c ≤ '7') || c = '_') s
  | c :: s =>
    c.isDigit && (s.all isLooseDigit || isSixties (s.dropWhile isLooseDigit))
  | [] => false

/-- An exponent with a sign, or nothing. -/
def isSignedExponent : List Char → Bool
  | [] => true
  | mark :: sign :: ds =>
    (mark = 'e' || mark = 'E') && (sign = '+' || sign = '-') && isRun Char.isDigit ds
  | _ => false

/-- A number with a point, or the name of infinity or NaN. -/
def isFloatText (s : List Char) : Bool :=
  let body := withoutSign s
  let afterPoint (s : List Char) : Bool := isSignedExponent (s.dropWhile isLooseDigit)
  match body with
  | '.' :: c :: rest =>
    (c.isDigit && body = s && afterPoint rest)
      || String.ofList body ∈ [".inf", ".Inf", ".INF"]
      || (body = s && String.ofList body ∈ [".nan", ".NaN", ".NAN"])
  | c :: rest =>
    c.isDigit &&
      match rest.dropWhile isLooseDigit with
      | '.' :: rest => afterPoint rest
      | ':' :: rest =>
        let sixties := (':' :: rest).takeWhile (· ≠ '.')
        match rest.dropWhile (· ≠ '.') with
        | '.' :: rest => isSixties sixties && rest.all isLooseDigit
        | _ => false
      | _ => false
  | [] => false

/-- A date, or a date with a time, as its parts are written. -/
structure MomentText where
  year : List Char
  month : List Char
  day : List Char
  time : Option (List Char × List Char × List Char × List Char)
  zone : Option (Option (Char × List Char × List Char))
deriving DecidableEq, Repr

/-- One or two digits at the front of a text, as many as there are. -/
def takeTwoDigits (s : List Char) : Option (List Char × List Char) :=
  match s with
  | a :: b :: rest =>
    if a.isDigit && b.isDigit then some ([a, b], rest)
    else if a.isDigit then some ([a], b :: rest)
    else none
  | [a] => if a.isDigit then some ([a], []) else none
  | [] => none

/-- The rest of a text behind a character. -/
def after? (c : Char) : List Char → Option (List Char)
  | d :: s => if c = d then some s else none
  | [] => none

/-- A zone: the letter for universal time, or a sign and hours and minutes. -/
def zoneText? (s : List Char) : Option (Option (Option (Char × List Char × List Char))) :=
  match s.dropWhile fun c => c = ' ' || c = '\t' with
  | [] => if s = [] then some none else none
  | ['Z'] => some (some none)
  | sign :: rest =>
    if sign = '+' ∨ sign = '-' then do
      let (hours, rest) ← takeTwoDigits rest
      match rest with
      | [] => some (some (some (sign, hours, [])))
      | [':', a, b] =>
        if a.isDigit && b.isDigit then some (some (some (sign, hours, [a, b]))) else none
      | _ => none
    else none

/-- A date with a time behind it. -/
def timeText? (year month day : List Char) (s : List Char) : Option MomentText := do
  let rest ← match s with
    | 'T' :: s | 't' :: s => some s
    | c :: _ => if c = ' ' ∨ c = '\t' then some (s.dropWhile fun c => c = ' ' || c = '\t') else none
    | [] => none
  let (hour, rest) ← takeTwoDigits rest
  let rest ← after? ':' rest
  match rest with
  | a :: b :: ':' :: c :: d :: rest =>
    if a.isDigit && b.isDigit && c.isDigit && d.isDigit then do
      let (fraction, rest) := match rest with
        | '.' :: s => (s.takeWhile Char.isDigit, s.dropWhile Char.isDigit)
        | s => ([], s)
      let zone ← zoneText? rest
      some ⟨year, month, day, some (hour, [a, b], [c, d], fraction), zone⟩
    else none
  | _ => none

/-- The parts of a date, with a time or without. -/
def momentText? (s : List Char) : Option MomentText := do
  let year := s.take 4
  let rest ← after? '-' (s.drop 4)
  if isRun Char.isDigit year && year.length = 4 then do
    let (month, rest) ← takeTwoDigits rest
    let rest ← after? '-' rest
    let (day, rest) ← takeTwoDigits rest
    if rest = [] then some ⟨year, month, day, none, none⟩ else timeText? year month day rest
  else none

/-- Whether a plain scalar is a date. Without a time, its month and day must have two
digits each. -/
def isMomentText (s : List Char) : Bool :=
  match momentText? s with
  | some t => t.time.isSome || (t.month.length = 2 && t.day.length = 2)
  | none => false

/-- The tag of a plain scalar. -/
def Tag.ofPlain (s : String) : Tag :=
  let cs := s.toList
  if s ∈ trueWords ∨ s ∈ falseWords then bool
  else if isFloatText cs then float
  else if isIntText cs then int
  else if s = "<<" then merge
  else if s ∈ nullWords then null
  else if isMomentText cs then moment
  else if s = "=" then default
  else text

end Calculator.Yaml
