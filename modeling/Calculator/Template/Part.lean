import Calculator.Data.Kind
import Calculator.Template.Presentation

/-!
# Parts of values

What a field of a template can reach from its value: the value, its parts and
items, and the kinds of all these. `Part.select` and `Part.item` go one step;
what there is not makes rendering fail.

Beyond these a value has what the language it is written in attaches to it, such as
methods and documentation. That is a parameter, the `Host`: it says what there is
besides, and how it is presented. `Host.bare` adds nothing.
-/

namespace Calculator.Template

/-- Something that a field stands for. -/
inductive Part where
  | datum (d : Datum)
  | kind (k : Kind)
  /-- Several kinds in order. -/
  | kinds (ks : List Kind)
  /-- Something that is known to the host alone. -/
  | object (id : Nat)
deriving Repr

/-- What there is around values: attributes of parts beyond their own, and the objects
that these lead to. -/
structure Host where
  /-- An attribute of a part that is none of its own. -/
  attribute? : Part → String → Option Part
  /-- The name of the kind of an object. -/
  typeName : Nat → String
  /-- An item of an object, by a number or a name. -/
  item : Nat → Option Nat → String → Except Refusal Part
  /-- The text that shows an object. -/
  shown : Nat → Except Refusal (List Char)
  /-- The text that an object is written as. -/
  written : Nat → Except Refusal (List Char)
  /-- The presentation of an object by a specification. -/
  present : Nat → List Char → Except Refusal (List Char)

/-- A host without anything besides the parts themselves. -/
def Host.bare : Host where
  attribute? _ _ := none
  typeName _ := "object"
  item _ _ _ := .error .unsuitable
  shown _ := .error .unsuitable
  written _ := .error .unsuitable
  present _ _ := .error .unsuitable

namespace Part

/-- The name of the kind of a part. -/
def typeName (host : Host) : Part → String
  | datum d => d.typeName
  | kind k => k.ofKind.name
  | kinds _ => "tuple"
  | object id => host.typeName id

/-- Kinds in parentheses with commas between them. -/
def kindsText : List Kind → String
  | [k] => s!"({k.shown},)"
  | ks => "(" ++ ", ".intercalate (ks.map Kind.shown) ++ ")"

/-- The text of a part, given those of data and of objects. -/
def textBy (ofDatum : Datum → Except Failure String) (ofObject : Nat → Except Refusal (List Char)) :
    Part → Except Refusal (List Char)
  | datum d =>
    match ofDatum d with
    | .ok s => .ok s.toList
    | .error _ => .error .unsuitable
  | kind k => .ok k.shown.toList
  | kinds ks => .ok (kindsText ks).toList
  | object id => ofObject id

/-! ## Attributes -/

/-- An attribute of an integer. -/
def integerPart? (n : Int) : String → Option Datum
  | "real" | "numerator" => some (.int n)
  | "imag" => some (.int 0)
  | "denominator" => some (.int 1)
  | _ => none

/-- An attribute of a double. -/
def floatPart? (x : Float) : String → Option Datum
  | "real" => some (.number (.float x))
  | "imag" => some (.number (.float 0))
  | _ => none

/-- An attribute of a fraction. -/
def ratioPart? (q : Rat) : String → Option Datum
  | "numerator" | "_numerator" => some (.int q.num)
  | "denominator" | "_denominator" => some (.int q.den)
  | "real" => some (.number (.ratio q))
  | "imag" => some (.int 0)
  | "__module__" => some (.text Kind.ratio.home)
  | _ => none

/-- An attribute of data other than their kind. Only numbers have parts. -/
def datumPart? : Datum → String → Option Datum
  | .number (.int n), name => integerPart? n name
  | .bool b, name => integerPart? (if b then 1 else 0) name
  | .number (.float x), name => floatPart? x name
  | .number (.ratio q), name => ratioPart? q name
  | _, _ => none

/-- An attribute of a kind other than its own kind. -/
def kindPart? (k : Kind) : String → Option Part
  | "__name__" | "__qualname__" => some (.datum (.text k.name))
  | "__module__" => some (.datum (.text k.home))
  | "__base__" => some ((k.base?.map kind).getD (.datum .null))
  | "__bases__" => some (kinds k.base?.toList)
  | "__mro__" => some (kinds k.lineage)
  | _ => none

/-- The kind of a part. The kind of kinds in order is left to the host. -/
def kind? : Part → Option Kind
  | datum d => some d.kind
  | kind k => some k.ofKind
  | kinds _ | object _ => none

/-- An attribute that a part has of its own. -/
def ownAttribute? (p : Part) (name : String) : Option Part :=
  if name = "__class__" then p.kind?.map kind
  else match p with
    | datum d => (datumPart? d name).map datum
    | kind k => kindPart? k name
    | kinds _ | object _ => none

/-- An attribute of a part: one of its own, or one that the host adds. -/
def attribute? (host : Host) (p : Part) (name : String) : Option Part :=
  p.ownAttribute? name <|> host.attribute? p name

/-- The failure that a part lacks an attribute. -/
def missing (host : Host) (p : Part) (name : String) : Failure :=
  match p with
  | kind k => .noKindAttribute k.name name
  | p => .noAttribute (p.typeName host) name

/-- An attribute that a part must have. -/
def select (host : Host) (p : Part) (name : String) : Except Refusal Part :=
  match p.attribute? host name with
  | some q => .ok q
  | none => .error (.failure (p.missing host name))

/-! ## Items -/

/-- An item of a sequence of the given kind by its number. -/
def nth {α : Type} (sequenceKind : String) (items : List α) (n : Nat) : Except Refusal α :=
  match items[n]? with
  | some a => .ok a
  | none => .error (.failure (.itemIndex sequenceKind))

/-- An item of a part: a character of a text, an element of a list, a field of a
record, or what the host gives. A key is a number or a name. -/
def item (host : Host) (p : Part) (number? : Option Nat) (name : String) :
    Except Refusal Part :=
  match p, number? with
  | datum (.text s), some n => do
    let c ← nth "string" s.toList n
    pure (datum (.text (String.ofList [c])))
  | datum (.list items), some n => datum <$> nth "list" items n
  | kinds ks, some n => kind <$> nth "tuple" ks n
  | datum (.record _), some n => .error (.failure (.missingNumber n))
  | datum (.record fields), none =>
    match Fields.get? fields name with
    | some d => .ok (datum d)
    | none => .error (.failure (.formatKey name))
  | object id, number? => host.item id number? name
  | _, _ => .error .unsuitable

/-! ## Presentation -/

/-- The presentation of a part by a specification. Kinds take none. -/
def present (host : Host) (p : Part) (spec : List Char) : Except Refusal (List Char) :=
  match p with
  | datum d => Template.present d spec
  | object id => host.present id spec
  | p => if spec = [] then p.textBy Datum.shownText host.shown else .error .unsuitable

end Part

end Calculator.Template
