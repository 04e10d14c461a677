import Calculator.Data.Datum

/-!
# Kinds

The kinds of data as messages and templates name them. A kind is a special case of
another one, down to that of all objects; `Kind.lineage` lists a kind with those
that it is a special case of.
-/

namespace Calculator

/-- The kinds of data, the more general ones that they belong to, and the kinds of
kinds. -/
inductive Kind where
  | null
  | bool
  | int
  | float
  | ratio
  | text
  | list
  | record
  | rational
  | real
  | complex
  | number
  | object
  | kind
  | abstractKind
deriving DecidableEq, Repr

namespace Kind

/-- The name of a kind. -/
def name : Kind → String
  | null => "NoneType"
  | bool => "bool"
  | int => "int"
  | float => "float"
  | ratio => "Fraction"
  | text => "str"
  | list => "list"
  | record => "dict"
  | rational => "Rational"
  | real => "Real"
  | complex => "Complex"
  | number => "Number"
  | object => "object"
  | kind => "type"
  | abstractKind => "ABCMeta"

/-- Where a kind is defined, if it is not one of the basic ones. -/
def home? : Kind → Option String
  | ratio => some "fractions"
  | rational | real | complex | number => some "numbers"
  | abstractKind => some "abc"
  | _ => none

/-- The place of definition, by name. -/
def home (k : Kind) : String := k.home?.getD "builtins"

/-- The text of a kind. -/
def shown (k : Kind) : String :=
  match k.home? with
  | some home => s!"<class '{home}.{k.name}'>"
  | none => s!"<class '{k.name}'>"

/-- The kind that a kind is the nearest special case of. -/
def base? : Kind → Option Kind
  | object => none
  | bool => some int
  | ratio => some rational
  | rational => some real
  | real => some complex
  | complex => some number
  | abstractKind => some kind
  | _ => some object

/-- A kind with at most `n` of those that it is a special case of, nearest first. -/
def lineageFrom : Nat → Kind → List Kind
  | 0, k => [k]
  | n + 1, k =>
    match k.base? with
    | some base => k :: lineageFrom n base
    | none => [k]

/-- The length of the longest lineage. -/
def mostAncestors : Nat := 5

/-- A kind with all that it is a special case of, nearest first. -/
def lineage (k : Kind) : List Kind := lineageFrom mostAncestors k

/-- The kind of a kind. -/
def ofKind (k : Kind) : Kind :=
  match k.home? with
  | some _ => if k = abstractKind then kind else abstractKind
  | none => kind

end Kind

namespace Datum

/-- The kind of data. -/
def kind : Datum → Kind
  | null => .null
  | bool _ => .bool
  | number (.int _) => .int
  | number (.float _) => .float
  | number (.ratio _) => .ratio
  | text _ | torn _ => .text
  | list _ => .list
  | record _ => .record

/-- The name of the kind of data. -/
def typeName (d : Datum) : String := d.kind.name

end Datum

end Calculator
