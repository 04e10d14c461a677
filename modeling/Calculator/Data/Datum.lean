import Calculator.Number.Basic
import Calculator.Text.Point

/-!
# Data

Structured data as events hold them and as JSON writes them: null, truth values,
numbers, texts, lists, and records whose fields keep the order in which their
names first came. `Datum.sorted` puts the fields of all records in the order of
their names.
-/

namespace Calculator

/-- Structured data. -/
inductive Datum where
  | null
  | bool (b : Bool)
  | number (n : Number)
  | text (s : String)
  /-- A text with halves of pairs of code units. -/
  | torn (s : List Text.Point)
  | list (items : List Datum)
  | record (fields : List (String × Datum))
deriving Repr

/-- The fields of a record, in order. -/
abbrev Fields := List (String × Datum)

namespace Fields

/-- The value under a name. -/
def get? (fields : Fields) (name : String) : Option Datum := fields.lookup name

/-- Whether there is a field of a name. -/
def has (fields : Fields) (name : String) : Bool := (fields.get? name).isSome

/-- The names of the fields. -/
def names (fields : Fields) : List String := fields.map (·.1)

/-- The fields with one value set. A new name comes last, a known one keeps its
place. -/
def set : Fields → String → Datum → Fields
  | [], name, d => [(name, d)]
  | (n, old) :: rest, name, d => if n = name then (n, d) :: rest else (n, old) :: set rest name d

/-- The order of fields by name, character by character. -/
def before (a b : String × Datum) : Bool := a.1 ≤ b.1

end Fields

namespace Datum

/-- An integer. -/
def int (n : Int) : Datum := .number (.int n)

/-- A text of points. -/
def ofPoints (ps : List Text.Point) : Datum :=
  match Text.wholeText? ps with
  | some s => text (String.ofList s)
  | none => torn ps

/-- A text, or null. -/
def ofText? : Option String → Datum
  | some s => .text s
  | none => .null

mutual

/-- The same data with the fields of every record in the order of their names. -/
def sorted : Datum → Datum
  | list items => list (sortedItems items)
  | record fields => record ((sortedFields fields).mergeSort Fields.before)
  | d => d

/-- `sorted` on every item. -/
def sortedItems : List Datum → List Datum
  | [] => []
  | d :: rest => d.sorted :: sortedItems rest

/-- `sorted` on every value. -/
def sortedFields : List (String × Datum) → List (String × Datum)
  | [] => []
  | (name, d) :: rest => (name, d.sorted) :: sortedFields rest

end

mutual

/-- How many collections are nested in each other at most. -/
def depth : Datum → Nat
  | list items => depthOfItems items + 1
  | record fields => depthOfFields fields + 1
  | _ => 0

/-- The greatest `depth` of items. -/
def depthOfItems : List Datum → Nat
  | [] => 0
  | d :: rest => max d.depth (depthOfItems rest)

/-- The greatest `depth` of values. -/
def depthOfFields : List (String × Datum) → Nat
  | [] => 0
  | (_, d) :: rest => max d.depth (depthOfFields rest)

end

/-- Whether a datum is neither null, false, zero nor empty. -/
def isTruthy : Datum → Bool
  | null => false
  | bool b => b
  | number (.int n) => n ≠ 0
  | number (.float x) => !(x == 0)
  | number (.ratio q) => q ≠ 0
  | text s => !s.isEmpty
  | torn s => !s.isEmpty
  | list items => !items.isEmpty
  | record fields => !fields.isEmpty

end Datum

end Calculator
