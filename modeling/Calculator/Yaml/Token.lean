import Calculator.Text.Utf8
import Calculator.Yaml.Scalar

/-!
# Tokens of a document

A YAML document as tokens. Indentation appears as tokens that open and close
block collections, and a key that is recognised only by the colon behind it gets
its token put in front of it afterwards.
-/

namespace Calculator.Yaml

/-- A tag as it is written: a handle, unless the tag is complete, and the rest. -/
structure TagText where
  handle : Option String
  suffix : String
deriving DecidableEq, Repr

/-- The tokens of a document. -/
inductive Token where
  | version (major : Nat)
  | tagHandle (handle uri : String)
  | directive
  | documentStart
  | documentEnd
  | sequenceStart
  | mappingStart
  | blockEnd
  | flowSequenceStart
  | flowSequenceEnd
  | flowMappingStart
  | flowMappingEnd
  | blockEntry
  | flowEntry
  | key
  | value
  | alias (name : String)
  | anchor (name : String)
  | tag (text : TagText)
  | scalar (plain : Bool) (text : List Text.Point)
deriving DecidableEq, Repr

/-- A place where a key may have started: its position among the tokens, whether it
must turn out to be a key, and where it is in the document. -/
structure PossibleKey where
  position : Nat
  required : Bool
  index : Nat
  line : Nat
  column : Nat
deriving DecidableEq, Repr

/-- What is known while a document is read: the place, the tokens so far, the
number of open flow collections, the indentation of the open block collections,
whether a key may start here, and the keys that may have started, by flow
level. -/
structure Lexer where
  spot : Spot
  tokens : List Token
  flowLevel : Nat
  indent : Int
  indents : List Int
  keyAllowed : Bool
  keys : List (Nat × PossibleKey)

/-- One step of reading. -/
abbrev Lexing := Lexer → Except Failure Lexer

namespace Lexer

/-- The start of a document. -/
def start (s : List Char) : Lexer := ⟨.start s, [], 0, -1, [], true, []⟩

/-- Adds a token. -/
def add (l : Lexer) (t : Token) : Lexer := { l with tokens := l.tokens ++ [t] }

/-- The longest key that is recognised by its colon. -/
def longestKey : Nat := 1024

/-- Gives up the keys that did not end on their line, or are too long. -/
def dropStaleKeys : Lexing := fun l => do
  let stale (k : PossibleKey) : Bool :=
    k.line ≠ l.spot.line || longestKey < l.spot.index - k.index
  if l.keys.any fun e => stale e.2 && e.2.required then refuse
  else pure { l with keys := l.keys.filter fun e => !stale e.2 }

/-- Gives up the key of the current flow level. -/
def dropKey : Lexing := fun l => do
  match l.keys.lookup l.flowLevel with
  | some k =>
    if k.required then refuse
    else pure { l with keys := l.keys.filter fun e => e.1 ≠ l.flowLevel }
  | none => pure l

/-- Notes that a key may start here. -/
def noteKey : Lexing := fun l => do
  if l.keyAllowed then
    let required := l.flowLevel = 0 && l.indent = l.spot.column
    let l ← l.dropKey
    let k : PossibleKey :=
      ⟨l.tokens.length, required, l.spot.index, l.spot.line, l.spot.column⟩
    pure { l with keys := l.keys ++ [(l.flowLevel, k)] }
  else pure l

/-- Closes block collections that are indented more than a column, given the
indentations around the innermost. -/
def closeBlocks (column : Int) : List Int → Int → List Token × Int × List Int
  | [], indent => ([], indent, [])
  | outer :: rest, indent =>
    if column < indent then
      let (ts, r) := closeBlocks column rest outer
      (.blockEnd :: ts, r)
    else ([], indent, outer :: rest)

/-- Closes block collections that are indented more than a column. -/
def unwind (l : Lexer) (column : Int) : Lexer :=
  if l.flowLevel ≠ 0 then l
  else
    let (ts, indent, indents) := closeBlocks column l.indents l.indent
    { l with tokens := l.tokens ++ ts, indent, indents }

/-- Opens a block collection at a column, if it is indented more than the innermost;
its token goes to a position among the tokens. -/
def openBlock (l : Lexer) (column position : Nat) (t : Token) : Lexer :=
  if l.indent < column then
    { l with
      indents := l.indent :: l.indents, indent := column, tokens := l.tokens.insertIdx position t }
  else l

/-- Moves on some characters and adds a token. -/
def addAfter (l : Lexer) (n : Nat) (t : Token) : Lexer :=
  { l.add t with spot := l.spot.advance n }

/-! ## Directives and separators -/

/-- The characters of a number and the place behind it. -/
def takeNumber (s : Spot) : Except Failure (Nat × Spot) :=
  let (ds, t) := s.takeWhile Char.isDigit
  if ds = [] then refuse
  else .ok (Text.valueOfDigits 10 (ds.map fun c => c.toNat - '0'.toNat), t)

/-- A tag handle, between exclamation marks. -/
def takeHandle (s : Spot) : Except Failure (String × Spot) :=
  if s.peek ≠ '!' then refuse
  else if s.peek 1 = ' ' then .ok ("!", s.next)
  else
    let (name, t) := s.next.takeWhile isNameChar
    if t.peek = '!' then .ok (String.ofList ('!' :: name ++ ['!']), t.next) else refuse

/-- Characters of a tag. -/
def isUriChar (c : Char) : Bool := c.isAlphanum || c ∈ "-;/?:@&=+$,_.!~*'()[]".toList

/-- Escaped bytes of a tag. -/
def takeUriBytes : Nat → Spot → Except Failure (List UInt8 × Spot)
  | 0, s => .ok ([], s)
  | fuel + 1, s =>
    if s.peek = '%' then
      match Text.hexValue? (s.peek 1), Text.hexValue? (s.peek 2) with
      | some a, some b => do
        let (bytes, s) ← takeUriBytes fuel (s.advance 3)
        pure ((16 * a + b).toUInt8 :: bytes, s)
      | _, _ => refuse
    else .ok ([], s)

/-- The characters of a tag, escaped bytes being read as UTF-8. -/
def takeUriChars : Nat → Spot → Except Failure (List Char × Spot)
  | 0, s => .ok ([], s)
  | fuel + 1, s =>
    if s.peek = '%' then do
      let (bytes, s) ← takeUriBytes (s.rest.length + 1) s
      match Text.Utf8.decode? bytes with
      | none => refuse
      | some cs => do
        let (more, s) ← takeUriChars fuel s
        pure (cs ++ more, s)
    else if isUriChar s.peek then do
      let (more, t) ← takeUriChars fuel s.next
      pure (s.peek :: more, t)
    else .ok ([], s)

/-- The rest of a tag, which must not be empty. -/
def takeUri (s : Spot) : Except Failure (String × Spot) := do
  let (cs, t) ← takeUriChars (s.rest.length + 1) s
  if cs = [] && s.index = t.index then refuse else pure (String.ofList cs, t)

/-- A directive, from its mark. -/
def takeDirective (s : Spot) : Except Failure (Token × Spot) := do
  let (name, s) := s.next.takeWhile isNameChar
  if name = [] || !isSpaceOrEnd s.peek then refuse
  else
    let (token, s) ← if name = "YAML".toList then do
        let (major, s) ← takeNumber s.skipSpaces
        if s.peek ≠ '.' then refuse
        else
          let (_, s) ← takeNumber s.next
          if isSpaceOrEnd s.peek then pure (Token.version major, s) else refuse
      else if name = "TAG".toList then do
        let (handle, s) ← takeHandle s.skipSpaces
        if s.peek ≠ ' ' then refuse
        else
          let (uri, s) ← takeUri s.skipSpaces
          if isSpaceOrEnd s.peek then pure (Token.tagHandle handle uri, s) else refuse
      else pure (Token.directive, s.skipLine)
    let s ← s.endLine
    pure (token, s)

/-- Closes all block collections and ends the line of keys. -/
def leaveBlocks : Lexing := fun l => do
  let l ← (l.unwind (-1)).dropKey
  pure { l with keyAllowed := false }

/-- Reads a directive. -/
def directive : Lexing := fun l => do
  let l ← l.leaveBlocks
  let (t, s) ← takeDirective l.spot
  pure { l.add t with spot := s }

/-- Reads a separator of documents. -/
def separator (t : Token) : Lexing := fun l => do
  let l ← l.leaveBlocks
  pure (l.addAfter 3 t)

/-! ## Collections -/

/-- Opens a flow collection, which may be a key. -/
def openFlow (t : Token) : Lexing := fun l => do
  let l ← l.noteKey
  pure { l.addAfter 1 t with flowLevel := l.flowLevel + 1, keyAllowed := true }

/-- Closes a flow collection. Below the outermost level there is none to close. -/
def closeFlow (t : Token) : Lexing := fun l => do
  let l ← l.dropKey
  if l.flowLevel = 0 then refuse
  else pure { l.addAfter 1 t with flowLevel := l.flowLevel - 1, keyAllowed := false }

/-- Reads the comma of a flow collection. -/
def flowEntry : Lexing := fun l => do
  let l ← l.dropKey
  pure { l.addAfter 1 .flowEntry with keyAllowed := true }

/-- Reads the mark of an item of a block sequence. -/
def blockEntry : Lexing := fun l => do
  if l.flowLevel = 0 && !l.keyAllowed then refuse
  else
    let l := if l.flowLevel = 0 then l.openBlock l.spot.column l.tokens.length .sequenceStart else l
    let l ← l.dropKey
    pure { l.addAfter 1 .blockEntry with keyAllowed := true }

/-- Reads the mark of a key. -/
def explicitKey : Lexing := fun l => do
  if l.flowLevel = 0 && !l.keyAllowed then refuse
  else
    let l := if l.flowLevel = 0 then l.openBlock l.spot.column l.tokens.length .mappingStart else l
    let l ← l.dropKey
    pure { l.addAfter 1 .key with keyAllowed := l.flowLevel = 0 }

/-- Reads the colon before a value. If a key may have started at this level, it
has. -/
def value : Lexing := fun l => do
  match l.keys.lookup l.flowLevel with
  | some k =>
    let l := { l with
      keys := l.keys.filter fun e => e.1 ≠ l.flowLevel
      tokens := l.tokens.insertIdx k.position .key }
    let l := if l.flowLevel = 0 then l.openBlock k.column k.position .mappingStart else l
    pure { l.addAfter 1 .value with keyAllowed := false }
  | none =>
    if l.flowLevel = 0 && !l.keyAllowed then refuse
    else
      let l :=
        if l.flowLevel = 0 then l.openBlock l.spot.column l.tokens.length .mappingStart else l
      let l ← l.dropKey
      pure { l.addAfter 1 .value with keyAllowed := l.flowLevel = 0 }

/-! ## Nodes -/

/-- Adds the token of a node that may be a key. -/
def node (take : Spot → Except Failure (Token × Spot)) : Lexing := fun l => do
  let l ← l.noteKey
  let (t, s) ← take l.spot
  pure { l.add t with spot := s, keyAllowed := false }

/-- The name of an anchor or alias, from its mark. -/
def takeAnchor (token : String → Token) (s : Spot) : Except Failure (Token × Spot) :=
  let (name, t) := s.next.takeWhile isNameChar
  if name = [] then refuse
  else if isBlankOrEnd t.peek || t.peek ∈ "?:,]\x7d%@`".toList then
    .ok (token (String.ofList name), t)
  else refuse

/-- A tag, from its mark. -/
def takeTag (s : Spot) : Except Failure (Token × Spot) := do
  let (text, s) ←
    if s.peek 1 = '<' then do
      let (uri, s) ← takeUri (s.advance 2)
      if s.peek = '>' then pure (TagText.mk none uri, s.next) else refuse
    else if isBlankOrEnd (s.peek 1) then pure (TagText.mk none "!", s.next)
    else
      let word := s.next.rest.takeWhile fun c => !isSpaceOrEnd c
      if '!' ∈ word then do
        let (handle, s) ← takeHandle s
        let (uri, s) ← takeUri s
        pure (TagText.mk (some handle) uri, s)
      else do
        let (uri, s) ← takeUri s.next
        pure (TagText.mk (some "!") uri, s)
  if isSpaceOrEnd s.peek then pure (.tag text, s) else refuse

/-- A quoted scalar as a token. -/
def takeQuoted (double : Bool) (s : Spot) : Except Failure (Token × Spot) := do
  let (ps, s) ← quotedScalar double s
  pure (.scalar false ps, s)

/-- Reads a block scalar. A key may follow it. -/
def block (folded : Bool) : Lexing := fun l => do
  let l ← { l with keyAllowed := true }.dropKey
  let (cs, s) ← blockScalar folded l.indent l.spot
  pure { l.add (.scalar false (Text.points cs)) with spot := s }

/-- Reads a plain scalar. A key may follow it if it ended a line. -/
def plain : Lexing := fun l => do
  let l ← l.noteKey
  let (cs, s, newLine) := plainScalar (l.flowLevel ≠ 0) (l.indent + 1) l.spot
  pure { l.add (.scalar true (Text.points cs)) with spot := s, keyAllowed := newLine }

/-! ## Reading on -/

/-- The place of the next token, behind blanks, comments and line ends, and whether
a line has ended. -/
def nextTokenSpot : Nat → Bool → Spot → Bool × Spot
  | 0, newLine, s => (newLine, s)
  | fuel + 1, newLine, s =>
    let s := s.skipSpaces
    let s := if s.peek = '#' then s.skipLine else s
    match s.lineBreak with
    | some (_, s) => nextTokenSpot fuel true s
    | none => (newLine, s)

/-- Moves to the next token. A byte-order mark may start the document. -/
def moveOn (l : Lexer) : Lexer :=
  let s := if l.spot.index = 0 ∧ l.spot.peek = '\uFEFF' then l.spot.next else l.spot
  let (newLine, s) := nextTokenSpot (s.rest.length + 1) false s
  { l with spot := s, keyAllowed := l.keyAllowed || (newLine && l.flowLevel = 0) }

/-- Whether a plain scalar starts at a place. -/
def startsPlain (inFlow : Bool) (s : Spot) : Bool :=
  let c := s.peek
  !(isBlankOrEnd c || c ∈ "-?:,[]\x7b\x7d#&*!|>'\"%@`".toList)
    || (!isBlankOrEnd (s.peek 1) && (c = '-' || (!inFlow && (c = '?' || c = ':'))))

/-- Reads the token at the place. -/
def readToken : Lexing := fun l =>
  let s := l.spot
  let c := s.peek
  let inFlow : Bool := l.flowLevel ≠ 0
  if c = '%' && s.column = 0 then l.directive
  else if s.column = 0 && s.atSeparator then
    l.separator (if c = '-' then .documentStart else .documentEnd)
  else if c = '[' then l.openFlow .flowSequenceStart
  else if c = '{' then l.openFlow .flowMappingStart
  else if c = ']' then l.closeFlow .flowSequenceEnd
  else if c = '}' then l.closeFlow .flowMappingEnd
  else if c = ',' then l.flowEntry
  else if c = '-' && isBlankOrEnd (s.peek 1) then l.blockEntry
  else if c = '?' && (inFlow || isBlankOrEnd (s.peek 1)) then l.explicitKey
  else if c = ':' && (inFlow || isBlankOrEnd (s.peek 1)) then l.value
  else if c = '*' then l.node (takeAnchor .alias)
  else if c = '&' then l.node (takeAnchor .anchor)
  else if c = '!' then l.node takeTag
  else if c = '|' && !inFlow then l.block false
  else if c = '>' && !inFlow then l.block true
  else if c = '\'' then l.node (takeQuoted false)
  else if c = '"' then l.node (takeQuoted true)
  else if startsPlain inFlow s then l.plain
  else refuse

/-- Reads tokens up to the end of the document. The first argument bounds their
number. -/
def readTokens : Nat → Lexing
  | 0, _ => refuse
  | fuel + 1, l => do
    let l ← l.moveOn.dropStaleKeys
    let l := l.unwind l.spot.column
    if l.spot.rest = [] then (l.unwind (-1)).dropKey
    else
      let l ← l.readToken
      readTokens fuel l

end Lexer

/-- The tokens of a document. -/
def tokens (s : List Char) : Except Failure (List Token) := do
  if s.all isAllowed then
    let l ← (Lexer.start s).readTokens (2 * s.length + 2)
    pure l.tokens
  else refuse

end Calculator.Yaml
