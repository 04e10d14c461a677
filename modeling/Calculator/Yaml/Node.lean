import Calculator.Yaml.Resolve
import Calculator.Yaml.Token

/-!
# Nodes

A document as a tree of tagged nodes, with aliases replaced by what they stand
for. The grammar takes a fuel argument, set from the number of tokens.
-/

namespace Calculator.Yaml

/-- A node. An alias inside the collection that it names is a loop. -/
inductive Node where
  | scalar (tag : Tag) (text : List Text.Point)
  | sequence (tag : Tag) (items : List Node)
  | mapping (tag : Tag) (entries : List (Node × Node))
  | loop (ofMapping : Bool)
deriving Repr

/-- What is known while nodes are read: the tokens ahead, the anchored nodes, and
the tag handles. -/
structure Grammar where
  ahead : List Token
  anchors : List (String × Node)
  handles : List (String × String)

/-- A step of the grammar. -/
abbrev Reads (α : Type) := StateT Grammar (Except Failure) α

namespace Node

/-- The scalar of an empty place. -/
def empty : Node := .scalar .null []

/-- A failure of the document. -/
def malformed {α : Type} : Reads α := throw .malformedDocument

/-- The token ahead. -/
def peek : Reads (Option Token) := do
  return (← get).ahead.head?

/-- Moves past the token ahead. -/
def skip : Reads Unit := modify fun g => { g with ahead := g.ahead.drop 1 }

/-- Moves past a token if it is ahead, and says whether it was. -/
def skipIf (t : Token) : Reads Bool := do
  if (← peek) = some t then
    skip
    return true
  return false

/-- Moves past a token that must be ahead. -/
def expect (t : Token) : Reads Unit := do
  unless ← skipIf t do malformed

/-- Whether one of some tokens is ahead. -/
def isAhead (ts : List Token) : Reads Bool := do
  return match (← get).ahead with
    | t :: _ => ts.contains t
    | [] => false

/-- An anchor, if one is ahead. -/
def takeAnchor? : Reads (Option String) := do
  match ← peek with
  | some (.anchor name) =>
    skip
    return some name
  | _ => return none

/-- A tag, if one is ahead. -/
def takeTag? : Reads (Option TagText) := do
  match ← peek with
  | some (.tag text) =>
    skip
    return some text
  | _ => return none

/-- An anchor and a tag in either order, either of which may be absent. -/
def takeProperties : Reads (Option String × Option TagText) := do
  match ← takeAnchor? with
  | some anchor => return (some anchor, ← takeTag?)
  | none =>
    let tag ← takeTag?
    if tag.isSome then return (← takeAnchor?, tag)
    return (none, none)

/-- A tag in full. -/
def uriOf (t : TagText) : Reads String := do
  match t.handle with
  | none => return t.suffix
  | some handle =>
    match (← get).handles.lookup handle with
    | some uri => return uri ++ t.suffix
    | none => malformed

/-- The tag of a collection. -/
def collectionTag (usual : Tag) : Option String → Tag
  | none => usual
  | some "!" => usual
  | some uri => Tag.ofUri uri

/-- The tag of a scalar. One without a tag, or with an unspecific one, gets it from
its text if it is plain. -/
def scalarTag (plain : Bool) (text : List Text.Point) : Option String → Tag
  | none => if plain then Tag.ofPlain (Text.mendedText text) else .text
  | some "!" => Tag.ofPlain (Text.mendedText text)
  | some uri => Tag.ofUri uri

/-- Anchors a node. -/
def anchorAs (anchor : Option String) (n : Node) : Reads Unit :=
  match anchor with
  | none => pure ()
  | some name => modify fun g => { g with anchors := (name, n) :: g.anchors }

/-- Where a node stands: in a flow collection, in a block collection, or as the
value of a block mapping, where a sequence need not be indented. -/
inductive Place where
  | flow
  | block
  | blockValue
deriving DecidableEq

mutual

/-- A node. -/
def read (place : Place) : Nat → Reads Node
  | 0 => malformed
  | fuel + 1 => do
    match ← peek with
    | some (.alias name) =>
      skip
      match (← get).anchors.lookup name with
      | some n => return n
      | none => malformed
    | _ =>
      let (anchor, tagText) ← takeProperties
      let uri ← match tagText with
        | some t => some <$> uriOf t
        | none => pure none
      if let some name := anchor then
        if ((← get).anchors.lookup name).isSome then malformed
      let sequence (items : Reads (List Node)) : Reads Node := do
        anchorAs anchor (.loop false)
        let n := Node.sequence (collectionTag .sequence uri) (← items)
        anchorAs anchor n
        return n
      let mapping (entries : Reads (List (Node × Node))) : Reads Node := do
        anchorAs anchor (.loop true)
        let n := Node.mapping (collectionTag .mapping uri) (← entries)
        anchorAs anchor n
        return n
      match ← peek, place with
      | some .blockEntry, .blockValue => sequence (readIndentless fuel)
      | some (.scalar plain text), _ =>
        skip
        let n := Node.scalar (scalarTag plain text uri) text
        anchorAs anchor n
        return n
      | some .flowSequenceStart, _ =>
        skip
        sequence (readFlowItems true fuel)
      | some .flowMappingStart, _ =>
        skip
        mapping (readFlowEntries true fuel)
      | some .sequenceStart, .block | some .sequenceStart, .blockValue =>
        skip
        sequence (readBlockItems fuel)
      | some .mappingStart, .block | some .mappingStart, .blockValue =>
        skip
        mapping (readBlockEntries fuel)
      | _, _ =>
        if anchor.isNone && uri.isNone then malformed
        else
          let n := Node.scalar (scalarTag true [] uri) []
          anchorAs anchor n
          return n

/-- A node, or an empty scalar before one of some tokens. -/
def readUnless (stops : List Token) (place : Place) : Nat → Reads Node
  | 0 => malformed
  | fuel + 1 => do
    if ← isAhead stops then return empty
    read place fuel

/-- The items of a block sequence. -/
def readBlockItems : Nat → Reads (List Node)
  | 0 => malformed
  | fuel + 1 => do
    if ← skipIf .blockEntry then
      let n ← readUnless [.blockEntry, .blockEnd] .block fuel
      return n :: (← readBlockItems fuel)
    expect .blockEnd
    return []

/-- The items of a sequence that is not indented. -/
def readIndentless : Nat → Reads (List Node)
  | 0 => malformed
  | fuel + 1 => do
    if ← skipIf .blockEntry then
      let n ← readUnless [.blockEntry, .key, .value, .blockEnd] .block fuel
      return n :: (← readIndentless fuel)
    return []

/-- The entries of a block mapping. -/
def readBlockEntries : Nat → Reads (List (Node × Node))
  | 0 => malformed
  | fuel + 1 => do
    if ← skipIf .key then
      let stops := [Token.key, .value, .blockEnd]
      let k ← readUnless stops .blockValue fuel
      let v ← if ← skipIf .value then readUnless stops .blockValue fuel else pure empty
      return (k, v) :: (← readBlockEntries fuel)
    expect .blockEnd
    return []

/-- The items of a flow sequence. A key among them makes a mapping of one entry. -/
def readFlowItems (first : Bool) : Nat → Reads (List Node)
  | 0 => malformed
  | fuel + 1 => do
    if ← skipIf .flowSequenceEnd then return []
    unless first do expect .flowEntry
    if ← skipIf .key then
      let k ← readUnless [.value, .flowEntry, .flowSequenceEnd] .flow fuel
      let v ←
        if ← skipIf .value then readUnless [.flowEntry, .flowSequenceEnd] .flow fuel
        else pure empty
      return .mapping .mapping [(k, v)] :: (← readFlowItems false fuel)
    if ← skipIf .flowSequenceEnd then return []
    let n ← read .flow fuel
    return n :: (← readFlowItems false fuel)

/-- The entries of a flow mapping. -/
def readFlowEntries (first : Bool) : Nat → Reads (List (Node × Node))
  | 0 => malformed
  | fuel + 1 => do
    if ← skipIf .flowMappingEnd then return []
    unless first do expect .flowEntry
    if ← skipIf .key then
      let k ← readUnless [.value, .flowEntry, .flowMappingEnd] .flow fuel
      let v ←
        if ← skipIf .value then readUnless [.flowEntry, .flowMappingEnd] .flow fuel
        else pure empty
      return (k, v) :: (← readFlowEntries false fuel)
    if ← skipIf .flowMappingEnd then return []
    let k ← read .flow fuel
    return (k, empty) :: (← readFlowEntries false fuel)

end

/-! ## Documents -/

/-- The handles that need no directive. -/
def standardHandles : List (String × String) := [("!", "!"), ("!!", coreUri)]

/-- The directives before a document: one version at most, of the first major
number, and handles that differ. -/
def readDirectives : Nat → Bool → List (String × String) → Reads (List (String × String))
  | 0, _, _ => malformed
  | fuel + 1, versioned, handles => do
    match ← peek with
    | some (.version major) =>
      if versioned || major ≠ 1 then malformed
      else
        skip
        readDirectives fuel true handles
    | some (.tagHandle handle uri) =>
      if (handles.lookup handle).isSome then malformed
      else
        skip
        readDirectives fuel versioned ((handle, uri) :: handles)
    | some .directive =>
      skip
      readDirectives fuel versioned handles
    | _ => return handles

/-- Moves past separators that end documents. -/
def skipEnds : Nat → Reads Unit
  | 0 => pure ()
  | fuel + 1 => do
    if ← skipIf .documentEnd then skipEnds fuel

/-- Whether a directive is ahead. -/
def directiveAhead : Reads Bool := do
  return match (← get).ahead with
    | .version _ :: _ | .tagHandle _ _ :: _ | .directive :: _ => true
    | _ => false

/-- Whether all tokens are used up. -/
def atEnd : Reads Bool := do
  return (← get).ahead.isEmpty

/-- The node of a document behind a separator, or nothing before the next. -/
def readContent (fuel : Nat) : Reads Node := do
  if (← directiveAhead) || (← isAhead [.documentStart, .documentEnd]) || (← atEnd) then
    return empty
  read .block fuel

/-- The single document of a stream, if there is one. -/
def readDocument (fuel : Nat) : Reads (Option Node) := do
  let explicit ← (do
    return (← directiveAhead) || (← isAhead [.documentStart]) || (← atEnd) : Reads Bool)
  let n ←
    if explicit then do
      skipEnds fuel
      if ← atEnd then pure none
      else
        let handles ← readDirectives fuel false []
        expect .documentStart
        modify fun g => { g with handles := handles ++ standardHandles }
        some <$> readContent fuel
    else some <$> read .block fuel
  if n.isSome then
    discard (skipIf .documentEnd)
    skipEnds fuel
  if ← atEnd then return n
  malformed

end Node

/-- The node of a document, none if the document is empty. -/
def document? (s : List Char) : Except Failure (Option Node) := do
  let ts ← tokens s
  let fuel := 4 * ts.length + 4
  let (n, _) ← (Node.readDocument fuel).run ⟨ts, [], Node.standardHandles⟩
  pure n

end Calculator.Yaml
