import Calculator.Template.Field
import Calculator.Template.Part

/-!
# Rendering templates

A template with one value for its fields. Fields are numbered automatically or by
their names, but not both. A specification may itself hold fields. A template
that does not suit its value is replaced by the text that shows the value;
fields that name what there is not make rendering fail.
-/

namespace Calculator.Template

/-- How the fields met so far were numbered. -/
inductive Numbering where
  | undecided
  | automatic (next : Nat)
  | manual
deriving DecidableEq, Repr

/-- The index of a field without a name. -/
def Numbering.nextIndex : Numbering → Except Refusal (Nat × Numbering)
  | undecided => .ok (0, automatic 1)
  | automatic n => .ok (n, automatic (n + 1))
  | manual => .error .unsuitable

/-- Accepts a field named by a number. -/
def Numbering.withManual : Numbering → Except Refusal Numbering
  | automatic _ => .error .unsuitable
  | _ => .ok manual

/-- The part of a value that the rest of a field name asks for. The number bounds that
of accesses. -/
def accessFrom (host : Host) : Nat → Part → List Char → Except Refusal Part
  | _, p, [] => .ok p
  | 0, _, _ :: _ => .error .unsuitable
  | fuel + 1, p, s =>
    match takeAccess s with
    | none => .error .unsuitable
    | some (.attribute name, rest) => do
      let q ← p.select host (String.ofList name)
      accessFrom host fuel q rest
    | some (.item key, rest) => do
      let q ← p.item host (← nameNumber key) (String.ofList key)
      accessFrom host fuel q rest

/-- The value that a field name stands for, given the one value there is. -/
def resolve (host : Host) (value : Datum) (numbering : Numbering) (name : List Char) :
    Except Refusal (Part × Numbering) := do
  let isFirst (c : Char) : Bool := c ≠ '.' && c ≠ '['
  let first := name.takeWhile isFirst
  let rest := name.dropWhile isFirst
  let (index, numbering) ←
    if first = [] then numbering.nextIndex
    else match ← nameNumber first with
      | some n => do
        let numbering ← numbering.withManual
        pure (n, numbering)
      | none => .error (.failure (.formatKey (String.ofList first)))
  if index = 0 then
    let part ← accessFrom host (rest.length + 1) (.datum value) rest
    pure (part, numbering)
  else .error (.failure (.formatIndex index))

/-- A part after the conversion of a field, which makes it a text. -/
def convert (host : Host) (p : Part) : Option Char → Except Refusal Part
  | none => .ok p
  | some 's' => asText <$> p.textBy Datum.shownText host.shown
  | some 'r' => asText <$> p.textBy Datum.writtenText host.written
  | some 'a' => (fun s => asText (Text.asciiText (String.ofList s)).toList) <$>
      p.textBy Datum.writtenText host.written
  | some _ => .error .unsuitable
where
  /-- Characters as a text. -/
  asText (s : List Char) : Part := .datum (.text (String.ofList s))

/-- The text of one piece, given how specifications with fields are expanded. -/
def expandPiece (host : Host)
    (expandSpec : Numbering → List Char → Except Refusal (List Char × Numbering)) (value : Datum)
    (numbering : Numbering) :
    Piece → Except Refusal (List Char × Numbering)
  | .literal s => .ok (s, numbering)
  | .malformed => .error .unsuitable
  | .field name conversion spec => do
    let (part, numbering) ← resolve host value numbering name
    let part ← convert host part conversion
    let (spec, numbering) ←
      if '{' ∈ spec then expandSpec numbering spec else pure (spec, numbering)
    let s ← part.present host spec
    pure (s, numbering)

/-- The text of pieces in order. -/
def expandPieces (host : Host)
    (expandSpec : Numbering → List Char → Except Refusal (List Char × Numbering)) (value : Datum) :
    Numbering → List Piece → Except Refusal (List Char × Numbering)
  | numbering, [] => .ok ([], numbering)
  | numbering, p :: rest => do
    let (s, numbering) ← expandPiece host expandSpec value numbering p
    let (t, numbering) ← expandPieces host expandSpec value numbering rest
    pure (s ++ t, numbering)

/-- A template with a value put in, specifications being templates too down to the
given depth. -/
def expand (host : Host) (value : Datum) :
    Nat → Numbering → List Char → Except Refusal (List Char × Numbering)
  | 0, _, _ => .error .unsuitable
  | depth + 1, numbering, s =>
    expandPieces host (expand host value depth) value numbering (pieces s)

/-- How deep specifications may be nested: fields, and fields in their
specifications. -/
def nestingDepth : Nat := 2

/-- The text of a template for a value: that of the template if it suits the
value, else the text that shows the value. -/
def render (template : String) (value : Datum) (host : Host := .bare) : Except Failure String :=
  match expand host value nestingDepth .undecided template.toList with
  | .ok (s, _) => .ok (String.ofList s)
  | .error .unsuitable => value.shownText
  | .error (.failure cause) => .error cause

end Calculator.Template
