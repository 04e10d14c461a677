import Calculator.Text.Point
import Calculator.Yaml.Spot

/-!
# Scalars as they are written

The texts of quoted, plain and block scalars. Line breaks inside a scalar are
folded: a single one becomes a space, and of several the first is dropped. The
loops over lines take a fuel argument, set from the length of the text ahead.
-/

namespace Calculator.Yaml

/-! ## Quoted scalars -/

/-- Escapes of one character in double quotes. -/
def simpleEscape? : Char → Option Char
  | '0' => some '\x00'
  | 'a' => some '\x07'
  | 'b' => some '\x08'
  | 't' => some '\t'
  | '\t' => some '\t'
  | 'n' => some '\n'
  | 'v' => some '\x0b'
  | 'f' => some '\x0c'
  | 'r' => some '\r'
  | 'e' => some '\x1b'
  | ' ' => some ' '
  | '"' => some '"'
  | '\\' => some '\\'
  | '/' => some '/'
  | 'N' => some '\u0085'
  | '_' => some '\u00A0'
  | 'L' => some '\u2028'
  | 'P' => some '\u2029'
  | _ => none

/-- The number of digits of an escape by code point. -/
def codeLength? : Char → Option Nat
  | 'x' => some 2
  | 'u' => some 4
  | 'U' => some 8
  | _ => none

/-- The point of a number. -/
def pointOfCode (n : Nat) : Except Failure Text.Point :=
  if Nat.pow 2 31 ≤ n then .error (.characterRange "Python int too large to convert to C int")
  else if 0x110000 ≤ n then .error (.malformedScalar "chr() arg not in range(0x110000)")
  else .ok (.ofCode n)

/-- The line breaks ahead, with the blanks around them dropped. -/
def quotedBreaks : Nat → Spot → Except Failure (List Char × Spot)
  | 0, s => .ok ([], s)
  | fuel + 1, s =>
    if s.atSeparator then refuse
    else
      let s := s.skipWhile fun c => c = ' ' || c = '\t'
      match s.lineBreak with
      | none => .ok ([], s)
      | some (c, s) => do
        let (cs, s) ← quotedBreaks fuel s
        pure (c :: cs, s)

/-- Blanks inside quotes, with the line breaks among them folded. -/
def quotedSpaces (s : Spot) : Except Failure (List Char × Spot) :=
  let (blanks, s) := s.takeWhile fun c => c = ' ' || c = '\t'
  if s.rest = [] then refuse
  else match s.lineBreak with
    | none => .ok (blanks, s)
    | some (first, s) => do
      let (breaks, s) ← quotedBreaks (s.rest.length + 1) s
      let lead := if first ≠ '\n' then [first] else if breaks = [] then [' '] else []
      pure (lead ++ breaks, s)

/-- A character that stands for itself inside quotes. -/
def isQuotedPlain (c : Char) : Bool := !(isBlankOrEnd c || c = '\'' || c = '"' || c = '\\')

/-- An escape behind its backslash. -/
def escape (s : Spot) : Except Failure (List Text.Point × Spot) :=
  let c := s.peek
  match simpleEscape? c, codeLength? c with
  | some e, _ => .ok ([.char e], s.next)
  | none, some n => do
    let digits := s.next.rest.take n
    let ds := digits.filterMap Text.hexValue?
    if ds.length < n then refuse
    else
      let e ← pointOfCode (Text.valueOfDigits 16 ds)
      pure ([e], s.next.advance n)
  | none, none =>
    match s.lineBreak with
    | some (_, s) => do
      let (breaks, s) ← quotedBreaks (s.rest.length + 1) s
      pure (Text.points breaks, s)
    | none => refuse

/-- The inside of quotes up to the closing one, and the place behind it. -/
def quotedBody (double : Bool) : Nat → Spot → Except Failure (List Text.Point × Spot)
  | 0, _ => refuse
  | fuel + 1, s =>
    let quote := if double then '"' else '\''
    let morePoints (r : List Text.Point × Spot) : Except Failure (List Text.Point × Spot) := do
      let (ps, s) ← quotedBody double fuel r.2
      pure (r.1 ++ ps, s)
    let more (r : List Char × Spot) : Except Failure (List Text.Point × Spot) :=
      morePoints (Text.points r.1, r.2)
    let c := s.peek
    if s.rest ≠ [] ∧ isQuotedPlain c then more (s.takeWhile isQuotedPlain)
    else if !double && c = '\'' && s.peek 1 = '\'' then more (['\''], s.advance 2)
    else if s.rest ≠ [] ∧ c = quote then .ok ([], s.next)
    else if c = '\'' || c = '"' || (!double && c = '\\') then more ([c], s.next)
    else if c = '\\' then escape s.next >>= morePoints
    else quotedSpaces s >>= more

/-- A quoted scalar, from its opening quote. -/
def quotedScalar (double : Bool) (s : Spot) : Except Failure (List Text.Point × Spot) :=
  quotedBody double (s.rest.length + 1) s.next

/-! ## Plain scalars -/

/-- Whether a plain scalar stops at the character ahead of the place. -/
def stopsPlain (inFlow : Bool) (s : Spot) : Bool :=
  let c := s.peek
  let d := s.peek 1
  isBlankOrEnd c
    || (c = ':' && (isBlankOrEnd d || (inFlow && d ∈ [',', '[', ']', '{', '}'])))
    || (inFlow && c ∈ [',', '?', '[', ']', '{', '}'])

/-- The characters of a plain scalar up to a blank or a stop. -/
def plainWord (inFlow : Bool) : Nat → Spot → List Char × Spot
  | 0, s => ([], s)
  | fuel + 1, s =>
    if s.rest = [] || stopsPlain inFlow s then ([], s)
    else
      let (cs, t) := plainWord inFlow fuel s.next
      (s.peek :: cs, t)

/-- What follows a word of a plain scalar: the blanks to put before the next word
if there is one, the place, and whether a line has ended. -/
structure PlainGap where
  blanks : List Char
  spot : Spot
  newLine : Bool

/-- The line breaks ahead, with spaces dropped; none at a separator. -/
def plainBreaks : Nat → Spot → Option (List Char) × Spot
  | 0, s => (some [], s)
  | fuel + 1, s =>
    let s := s.skipSpaces
    match s.lineBreak with
    | none => (some [], s)
    | some (c, s) =>
      if s.atSeparator then (none, s)
      else
        let (cs, t) := plainBreaks fuel s
        (cs.map (c :: ·), t)

/-- The gap behind a word of a plain scalar. It is empty at a tab and before a
separator. -/
def plainGap (s : Spot) : PlainGap :=
  let (spaces, s) := s.takeWhile (· = ' ')
  match s.lineBreak with
  | none => ⟨spaces, s, false⟩
  | some (first, s) =>
    if s.atSeparator then ⟨[], s, true⟩
    else match plainBreaks (s.rest.length + 1) s with
      | (none, s) => ⟨[], s, true⟩
      | (some breaks, s) =>
        ⟨(if first ≠ '\n' then [first] else if breaks = [] then [' '] else []) ++ breaks, s, true⟩

/-- A plain scalar after `blanks`: its text, the place behind it, and whether its
last gap ended a line; `newLine` is the answer if no word follows. -/
def plainBody (inFlow : Bool) (indent : Int) :
    Nat → Bool → List Char → Spot → List Char × Spot × Bool
  | 0, newLine, _, s => ([], s, newLine)
  | fuel + 1, newLine, blanks, s =>
    let (word, t) := plainWord inFlow (s.rest.length + 1) s
    if s.peek = '#' || word = [] then ([], s, newLine)
    else
      let gap := plainGap t
      if gap.blanks = [] || gap.spot.peek = '#' || (!inFlow && (gap.spot.column : Int) < indent)
      then (blanks ++ word, gap.spot, gap.newLine)
      else
        let (cs, r) := plainBody inFlow indent fuel gap.newLine gap.blanks gap.spot
        (blanks ++ word ++ cs, r)

/-- A plain scalar: its text, the place behind it, and whether a line ended there.
Further lines must be indented by `indent` at least. -/
def plainScalar (inFlow : Bool) (indent : Int) (s : Spot) : List Char × Spot × Bool :=
  plainBody inFlow indent (s.rest.length + 1) false [] s

/-! ## Block scalars -/

/-- What is kept of the line breaks at the end of a block scalar. -/
inductive Chomping where
  | strip
  | clip
  | keep
deriving DecidableEq, Repr

/-- The chomping that a character asks for. -/
def Chomping.ofChar? : Char → Option Chomping
  | '-' => some strip
  | '+' => some keep
  | _ => none

/-- An indentation from one to nine. -/
def takeIncrement (s : Spot) : Except Failure (Option Nat × Spot) :=
  let c := s.peek
  if c.isDigit then
    if c = '0' then refuse else .ok (some (c.toNat - '0'.toNat), s.next)
  else .ok (none, s)

/-- The chomping and the indentation behind the mark of a block scalar, in either
order, and the end of their line. -/
def blockHeader (s : Spot) : Except Failure (Chomping × Option Nat × Spot) := do
  let (chomping, increment, s) ← match Chomping.ofChar? s.peek with
    | some chomping => do
      let (increment, s) ← takeIncrement s.next
      pure (chomping, increment, s)
    | none => do
      let (increment, s) ← takeIncrement s
      match increment, Chomping.ofChar? s.peek with
      | some n, some chomping => pure (chomping, some n, s.next)
      | increment, _ => pure (Chomping.clip, increment, s)
  if isSpaceOrEnd s.peek then
    let s ← s.endLine
    pure (chomping, increment, s)
  else refuse

/-- Empty lines before a block scalar, the widest run of spaces seen, and the
place behind them. -/
def leadingLines : Nat → Nat → Spot → List Char × Nat × Spot
  | 0, widest, s => ([], widest, s)
  | fuel + 1, widest, s =>
    let s := s.skipSpaces
    let widest := max widest s.column
    match s.lineBreak with
    | none => ([], widest, s)
    | some (c, s) =>
      let (cs, r) := leadingLines fuel widest s
      (c :: cs, r)

/-- The place behind at most the spaces of an indentation. -/
def skipIndent (indent : Nat) (s : Spot) : Spot :=
  s.advance ((s.rest.take (indent - s.column)).takeWhile (· = ' ')).length

/-- Empty lines between the lines of a block scalar, and the place at the
indentation of the next. -/
def emptyLines (indent : Nat) : Nat → Spot → List Char × Spot
  | 0, s => ([], s)
  | fuel + 1, s =>
    let s := skipIndent indent s
    match s.lineBreak with
    | none => ([], s)
    | some (c, s) =>
      let (cs, r) := emptyLines indent fuel s
      (c :: cs, r)

/-- The lines of a block scalar from the place on: their text, the break behind
the last, the empty lines after it, and the place. -/
def blockLines (folded : Bool) (indent : Nat) :
    Nat → List Char → Spot → List Char × List Char × List Char × Spot
  | 0, breaks, s => ([], [], breaks, s)
  | fuel + 1, breaks, s =>
    let startsBlank (s : Spot) : Bool := s.peek = ' ' || s.peek = '\t'
    let (line, t) := s.takeWhile fun c => !isBreak c
    let (ending, t) := match t.lineBreak with
      | some (c, t) => ([c], t)
      | none => ([], t)
    let (after, t) := emptyLines indent (t.rest.length + 1) t
    if t.column = indent ∧ t.rest ≠ [] then
      let joint :=
        if folded && ending = ['\n'] && !startsBlank s && !startsBlank t then
          (if after = [] then [' '] else [])
        else ending
      let (cs, r) := blockLines folded indent fuel after t
      (breaks ++ line ++ joint ++ cs, r)
    else (breaks ++ line, ending, after, t)

/-- A block scalar, from its mark, inside a collection of the given
indentation. -/
def blockScalar (folded : Bool) (parent : Int) (s : Spot) : Except Failure (List Char × Spot) := do
  let (chomping, increment, s) ← blockHeader s.next
  let least := max (parent + 1).toNat 1
  let (breaks, indent, s) := match increment with
    | none =>
      let (breaks, widest, s) := leadingLines (s.rest.length + 1) 0 s
      (breaks, max least widest, s)
    | some n =>
      let indent := least + n - 1
      let (breaks, s) := emptyLines indent (s.rest.length + 1) s
      (breaks, indent, s)
  let (text, ending, breaks, s) :=
    if s.column = indent ∧ s.rest ≠ [] then blockLines folded indent (s.rest.length + 1) breaks s
    else ([], [], breaks, s)
  let ending := if chomping = .strip then [] else ending
  let breaks := if chomping = .keep then breaks else []
  pure (text ++ ending ++ breaks, s)

end Calculator.Yaml
