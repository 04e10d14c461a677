import Calculator.Data.Shown
import Calculator.Text.Base64
import Calculator.Text.Lower
import Calculator.Yaml.Hash
import Calculator.Yaml.Moment
import Calculator.Yaml.Node

/-!
# Values of documents

The value that a YAML document stands for. Keys of mappings may be of any scalar
kind; keys that are equal as numbers or as moments are one key, and of entries
with one key the last value counts, in the place of the first. The mark `<<` merges
the entries of other mappings in front. Of several failures in a document the
outermost counts, and of those at one depth the first.
-/

namespace Calculator.Yaml

/-- The value of a document. -/
inductive Value where
  | null
  | bool (b : Bool)
  | int (n : Int)
  | float (x : Float)
  | text (s : String)
  /-- A text with halves of pairs of code units. -/
  | torn (s : List Text.Point)
  | bytes (bs : List UInt8)
  | moment (m : Moment)
  | list (items : List Value)
  /-- A list of keys with values. -/
  | pairs (entries : List (Value × Value))
  | mapping (entries : List (Value × Value))
  | set (items : List Value)
  | loop (ofMapping : Bool)
deriving Repr

namespace Value

/-! ## Keys -/

/-- A value as a number, truth values being one and zero. -/
def number? : Value → Option Number
  | bool b => some (.int (if b then 1 else 0))
  | int n => some (.int n)
  | float x => some (.float x)
  | _ => none

/-- The exact value of a finite double. -/
def exactFloat? (x : Float) : Option Rat :=
  match Decimal.decode x with
  | .finite negative m e =>
    let q := Decimal.quotientOfBinary m e
    some (mkRat (if negative then -(q.num : Int) else q.num) q.den)
  | _ => none

/-- Equality of numbers by value. -/
def sameNumber : Number → Number → Bool
  | .int a, .int b => a = b
  | .float x, .float y => x == y
  | .int a, .float y => exactFloat? y = some (a : Rat)
  | .float x, .int b => exactFloat? x = some (b : Rat)
  | .ratio p, .ratio q => p = q
  | _, _ => false

/-- The points of a text. -/
def points? : Value → Option (List Text.Point)
  | text s => some (Text.points s.toList)
  | torn s => some s
  | _ => none

/-- Whether two values are one key. -/
def sameKey (a b : Value) : Bool :=
  match a.number?, b.number? with
  | some m, some n => sameNumber m n
  | none, none =>
    match a, b with
    | null, null => true
    | text s, text t => s = t
    | torn s, torn t => s = t
    | bytes s, bytes t => s = t
    | moment s, moment t => s.same t
    | _, _ => false
  | _, _ => false

/-- The entries with one value set. -/
def setKey : List (Value × Value) → Value → Value → List (Value × Value)
  | [], k, v => [(k, v)]
  | (k', old) :: rest, k, v =>
    if sameKey k' k then (k', v) :: rest else (k', old) :: setKey rest k v

/-- The entries of a mapping, from those that are written. -/
def keyed (entries : List (Value × Value)) : List (Value × Value) :=
  entries.foldl (fun acc e => setKey acc e.1 e.2) []

/-- The members of a set in their order. Members of which one is no number keep the
order in which they are written. -/
def members (items : List Value) : List Value :=
  match items.mapM fun v => v.number?.bind numberHash? with
  | some hashes => slotOrder (hashes.zip items)
  | none => items

/-! ## Notation -/

/-- One byte between the marks `mark`. -/
def writtenByte (mark : Char) (b : UInt8) : List Char :=
  let c := Char.ofNat b.toNat
  if b < 127 then Text.quotedChar mark c else '\\' :: 'x' :: Text.hexPadded 2 b.toNat

/-- Bytes in quotation marks, those of ASCII as characters. -/
def writtenBytes (bs : List UInt8) : String :=
  let mark := Text.enclosingMark (bs.map fun b => Char.ofNat b.toNat)
  String.ofList ('b' :: mark :: bs.flatMap (writtenByte mark) ++ [mark])

mutual

/-- A value in the notation of messages. An integer with too many digits has
none. The model has no limit for how deep a value may be nested here, so it writes
also those that a writer with a bounded stack gives up on. -/
def written : Value → Except Failure String
  | null => .ok "None"
  | bool true => .ok "True"
  | bool false => .ok "False"
  | int n => if (Number.int n).isWritable then .ok (toString n) else .error .digitsWritten
  | float x => .ok (floatText x)
  | text s => .ok (Text.quoted s)
  | torn s => .ok (Text.quotedPoints s)
  | bytes bs => .ok (writtenBytes bs)
  | moment m => .ok m.written
  | list items => (fun s => "[" ++ s ++ "]") <$> writtenItems items
  | pairs entries => (fun s => "[" ++ s ++ "]") <$> writtenPairs entries
  | mapping entries => (fun s => "\x7b" ++ s ++ "\x7d") <$> writtenEntries entries
  | set [] => .ok "set()"
  | set items => (fun s => "\x7b" ++ s ++ "\x7d") <$> writtenItems items
  | loop true => .ok "\x7b...\x7d"
  | loop false => .ok "[...]"

/-- Items with a comma and a space between them. -/
def writtenItems : List Value → Except Failure String
  | [] => .ok ""
  | [v] => v.written
  | v :: rest => do
    let s ← v.written
    let t ← writtenItems rest
    pure (s ++ ", " ++ t)

/-- Keys with values in parentheses, with a comma and a space between them. -/
def writtenPairs : List (Value × Value) → Except Failure String
  | [] => .ok ""
  | (k, v) :: rest => do
    let s ← k.written
    let t ← v.written
    let more ← writtenPairs rest
    pure (s!"({s}, {t})" ++ (if more = "" then "" else ", " ++ more))

/-- Entries with a comma and a space between them. -/
def writtenEntries : List (Value × Value) → Except Failure String
  | [] => .ok ""
  | (k, v) :: rest => do
    let s ← k.written
    let t ← v.written
    let more ← writtenEntries rest
    pure (s ++ ": " ++ t ++ (if more = "" then "" else ", " ++ more))

end

/-- Whether a value is neither null, false, zero nor empty. -/
def isTruthy : Value → Bool
  | null => false
  | bool b => b
  | int n => n ≠ 0
  | float x => !(x == 0)
  | text s => !s.isEmpty
  | torn s => !s.isEmpty
  | bytes bs => !bs.isEmpty
  | list items | set items => !items.isEmpty
  | pairs entries | mapping entries => !entries.isEmpty
  | moment _ | loop _ => true

/-- The kind of a value as messages name it. -/
def typeName : Value → String
  | null => "NoneType"
  | bool _ => "bool"
  | int _ => "int"
  | float _ => "float"
  | text _ | torn _ => "str"
  | bytes _ => "bytes"
  | moment m => m.typeName
  | list _ | pairs _ | loop false => "list"
  | mapping _ | loop true => "dict"
  | set _ => "set"

/-! ## Scalars -/

/-- The letter that marks a base. -/
def baseMark (base : Nat) : Char := if base = 2 then 'b' else if base = 8 then 'o' else 'x'

/-- The digits of a number behind a mark of its base, which need not be there. -/
def withoutBaseMark (base : Nat) : List Char → List Char
  | '0' :: mark :: ds => if mark.toLower = baseMark base then ds else '0' :: mark :: ds
  | ds => ds

/-- An integer of base two, eight or sixteen. Blanks may stand around it, and a sign
and a mark of the base before it. -/
def readBase (base : Nat) (s : List Char) : Except Failure Int :=
  let (negative, body) := takeSign (plainText (String.ofList s))
  match (withoutBaseMark base body).mapM Text.hexValue? with
  | some ds =>
    if ds ≠ [] ∧ ds.all (· < base) then .ok (signed negative (Text.valueOfDigits base ds))
    else .error (.notInt base (String.ofList s))
  | none => .error (.notInt base (String.ofList s))

/-- A text split at its colons. -/
def splitColons (s : List Char) : List (List Char) :=
  s.foldr
    (fun c parts => match parts with
      | p :: rest => if c = ':' then [] :: p :: rest else (c :: p) :: rest
      | [] => [[c]])
    [[]]

/-- An integer in the notations of YAML. -/
def readInt (s : String) : Except Failure Int := do
  let cs := s.toList.filter (· ≠ '_')
  if cs = [] then throw (.itemIndex "string")
  let negative := cs.head? = some '-'
  let body := withoutSign cs
  let n ← match body with
    | [] => throw (.itemIndex "string")
    | ['0'] => pure 0
    | '0' :: 'b' :: ds => readBase 2 ds
    | '0' :: 'x' :: ds => readBase 16 ds
    | '0' :: _ => readBase 8 body
    | _ =>
      if ':' ∈ body then do
        let parts ← (splitColons body).mapM fun p => Calculator.readInt (String.ofList p)
        pure (parts.foldl (fun n p => n * 60 + p) 0)
      else Calculator.readInt (String.ofList body)
  pure (if negative then -n else n)

/-- The sum of parts of sixty, the last first. -/
def sumSixties : List Float → Nat → Float → Except Failure Float
  | [], _, sum => .ok sum
  | x :: rest, base, sum => do
    let weight ← Number.floatOfInt base
    sumSixties rest (base * 60) (sum + x * weight)

/-- A double in the notations of YAML. -/
def readFloat (s : String) : Except Failure Float := do
  let cs := Text.lowerCase (s.toList.filter (· ≠ '_'))
  if cs = [] then throw (.itemIndex "string")
  let negative := cs.head? = some '-'
  let body := withoutSign cs
  let x ←
    if body = ".inf".toList then pure (1.0 / 0.0)
    else if body = ".nan".toList then pure (0.0 / 0.0)
    else if ':' ∈ body then do
      let parts ← (splitColons body).mapM fun p => Calculator.readFloat (String.ofList p)
      sumSixties parts.reverse 1 0
    else Calculator.readFloat (String.ofList body)
  pure (Number.withSign negative x)

/-- The moment of a text. A line break at its end is passed over. -/
def readMoment (s : String) : Except Failure Moment :=
  let cs := s.toList
  let line := if cs.getLast? = some '\n' then cs.dropLast else cs
  match momentText? line with
  | some t => t.moment
  | none => .error (.noAttribute "NoneType" "groupdict")

/-- The value of a text without halves by its tag. -/
def ofText (tag : Tag) (s : String) : Except Failure Value :=
  match tag with
  | .text => .ok (text s)
  | .null => .ok null
  | .int => int <$> readInt s
  | .float => float <$> readFloat s
  | .bool =>
    let word := String.ofList (Text.lowerCase s.toList)
    if word ∈ trueWords then .ok (bool true)
    else if word ∈ falseWords then .ok (bool false)
    else .error (.raised .key word)
  | .moment => moment <$> readMoment s
  | .bytes =>
    match Text.Base64.decode? s.toList with
    | some bs => if s.toList.all (·.toNat < 128) then .ok (bytes bs) else .error .malformedDocument
    | none => .error .malformedDocument
  | _ => .error .malformedDocument

/-- The value of a scalar. -/
def ofScalar (tag : Tag) (s : List Text.Point) : Except Failure Value :=
  match tag, Text.wholeText? s with
  | tag, some cs => ofText tag (String.ofList cs)
  | .text, none => .ok (torn s)
  | tag, none => ofText tag (Text.mendedText s)

/-! ## Failures by depth -/

/-- A failure with the depth in the document where it arises. -/
structure Flaw where
  depth : Nat
  cause : Failure
deriving DecidableEq, Repr

/-- A result, or the flaw that counts. -/
abbrev Checked (α : Type) := Except Flaw α

/-- A result at a depth. -/
def checkedAt {α : Type} (depth : Nat) : Except Failure α → Checked α
  | .ok a => .ok a
  | .error cause => .error ⟨depth, cause⟩

/-- A document that is malformed at a depth. -/
def malformedAt {α : Type} (depth : Nat) : Checked α := .error ⟨depth, .malformedDocument⟩

/-- Two results together. Of two flaws the outer one counts, and of two at one depth
the first. -/
def together {α β γ : Type} (f : α → β → γ) : Checked α → Checked β → Checked γ
  | .ok a, .ok b => .ok (f a b)
  | .ok _, .error e => .error e
  | .error e, .ok _ => .error e
  | .error e, .error e' => .error (if e'.depth < e.depth then e' else e)

/-- The results for all items together. -/
def forAll {α β : Type} (f : α → Checked β) : List α → Checked (List β)
  | [] => .ok []
  | a :: rest => together List.cons (f a) (forAll f rest)

/-! ## Collections -/

/-- Whether a key is the mark of a merge. -/
def isMerge : Node → Bool
  | .scalar .merge _ => true
  | _ => false

/-- A key without its special meaning as the mark of a default value. -/
def plainKey : Node → Node
  | .scalar .default s => .scalar .text s
  | n => n

/-- The entries of a mapping with those that it merges in front. The first argument
bounds the depth of merging. -/
def merged : Nat → List (Node × Node) → Except Failure (List (Node × Node))
  | 0, _ => .error .malformedDocument
  | fuel + 1, entries => do
    let sources ← (entries.filter fun e => isMerge e.1).mapM fun e =>
      match e.2 with
      | .mapping _ inner => merged fuel inner
      | .sequence _ items => do
        let parts ← items.mapM fun n =>
          match n with
          | .mapping _ inner => merged fuel inner
          | _ => .error .malformedDocument
        pure parts.reverse.flatten
      | _ => .error .malformedDocument
    let own := (entries.filter fun e => !isMerge e.1).map fun e => (plainKey e.1, e.2)
    pure (sources.flatten ++ own)

/-- Whether a key is the mark of a default value. -/
def isDefault : Node → Bool
  | .scalar .default _ => true
  | _ => false

/-- The text that a mapping with a default value stands for. The first argument
bounds how many mappings are looked into. -/
def defaultText? : Nat → List (Node × Node) → Option (List Text.Point)
  | 0, _ => none
  | fuel + 1, entries =>
    match entries.find? fun e => isDefault e.1 with
    | some (_, .scalar _ s) => some s
    | some (_, .mapping _ inner) => defaultText? fuel inner
    | _ => none

/-- A value that must be hashable to be a key: no collection. -/
def isKey : Value → Bool
  | list _ | pairs _ | mapping _ | set _ | loop _ => false
  | _ => true

/-- A key at a depth. Collections are refused before their contents are looked at. -/
def checkedKey (depth : Nat) (n : Node) (v : Checked Value) : Checked Value :=
  match n, v with
  | .sequence _ _, _ | .loop _, _ => malformedAt depth
  | _, .ok v => if isKey v then .ok v else malformedAt depth
  | .mapping _ _, .error e => if depth < e.depth then malformedAt depth else .error e
  | .scalar _ _, .error e => .error e

/-- The entries of a mapping at a depth, its merges carried out first. The first
argument bounds the depth of merging. -/
def entriesAt (ofNode : Node → Checked Value) (fuel depth : Nat) (entries : List (Node × Node)) :
    Checked (List (Value × Value)) := do
  let entries ← checkedAt depth (merged fuel entries)
  forAll
    (fun e => together Prod.mk (checkedKey depth e.1 (ofNode e.1)) (ofNode e.2))
    entries

/-- A key with a value at a depth, written as a mapping of one entry. -/
def pairAt (ofNode : Node → Checked Value) (depth : Nat) : Node → Checked (Value × Value)
  | .mapping _ [(k, v)] => together Prod.mk (ofNode k) (ofNode v)
  | _ => malformedAt depth

/-- The value of a node at a depth. The contents of a collection are one deeper. The
first argument bounds the depth. -/
def ofNode : Nat → Nat → Node → Checked Value
  | 0, depth, _ => malformedAt depth
  | _ + 1, depth, .scalar tag s => checkedAt depth (ofScalar tag s)
  | _ + 1, _, .loop ofMapping => .ok (loop ofMapping)
  | fuel + 1, depth, .sequence tag items =>
    let inner := ofNode fuel (depth + 1)
    match tag with
    | .sequence => list <$> forAll inner items
    | .pairs => pairs <$> forAll (pairAt inner (depth + 1)) items
    | .mapping | .set => malformedAt (depth + 1)
    | _ => malformedAt depth
  | fuel + 1, depth, .mapping tag entries =>
    let inner := entriesAt (ofNode fuel (depth + 1)) (fuel + 1) (depth + 1)
    match tag with
    | .mapping => (fun es => mapping (keyed es)) <$> inner entries
    | .set => (fun es => set (members ((keyed es).map (·.1)))) <$> inner entries
    | .sequence | .pairs => malformedAt (depth + 1)
    | tag =>
      match defaultText? (fuel + 1) entries with
      | some s => checkedAt depth (ofScalar tag s)
      | none => malformedAt depth

end Value

/-- The value of a document, null if it is empty. -/
def read (s : List Char) : Except Failure Value := do
  match ← document? s with
  | some n => (Value.ofNode (s.length + 2) 0 n).mapError Value.Flaw.cause
  | none => pure .null

end Calculator.Yaml
