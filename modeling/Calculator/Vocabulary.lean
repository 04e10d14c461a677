import Calculator.Data.Function
import Calculator.Expression.Domain
import Calculator.Number.Reader

/-!
# Vocabularies

The names that expressions may use, each with a constant or a function, and the
reading of literals. The standard vocabulary has the constants `pi` and `e` and
the elementary functions; names can be added to it and redefined.
-/

namespace Calculator

/-- Values under names, each name once. -/
abbrev Names (α : Type) := List (String × α)

namespace Names

variable {α : Type}

/-- Sets the value of a name. -/
def set (names : Names α) (name : String) (a : α) : Names α :=
  names.filter (·.1 ≠ name) ++ [(name, a)]

/-- The values in the order of their names. -/
def sorted (names : Names α) : Names α := names.mergeSort fun a b => a.1 ≤ b.1

end Names

/-- Constants, functions, and the value of a number as it is written. A constant may
be null, which expressions do not take for a value. -/
structure Vocabulary where
  constants : Names Datum
  functions : Names Function
  literal : String → Except Failure Datum

namespace Vocabulary

/-- Literals as doubles. -/
def floatLiteral (s : String) : Except Failure Datum := (.number ∘ .float) <$> readFloat s

/-- Literals as integers. -/
def intLiteral (s : String) : Except Failure Datum := .int <$> readInt s

/-- Literals as fractions. -/
def ratioLiteral (s : String) : Except Failure Datum := (.number ∘ .ratio) <$> readRatio s

/-- The constants of the standard vocabulary, with eight decimals. -/
def standardConstants : Names Datum :=
  [("pi", .number (.float 3.14159265)), ("e", .number (.float 2.71828183))]

/-- The standard vocabulary: doubles, two constants and the elementary
functions. -/
def standard : Vocabulary where
  constants := standardConstants
  functions := Number.Elementary.all.map fun f => (f.name, .ofElementary f)
  literal := floatLiteral

/-- The constant of a name, or the failure that there is none. -/
def constant (v : Vocabulary) (name : String) : Except Failure Datum :=
  match v.constants.lookup name with
  | some d => .ok d
  | none => .error (.unknownConstant name)

/-- The function of a name, or the failure that there is none. -/
def function (v : Vocabulary) (name : String) : Except Failure Function :=
  match v.functions.lookup name with
  | some f => .ok f
  | none => .error (.unknownFunction name)

/-- The vocabulary with a constant defined. -/
def setConstant (v : Vocabulary) (name : String) (d : Datum) : Vocabulary :=
  { v with constants := v.constants.set name d }

/-- The vocabulary with a function defined. -/
def setFunction (v : Vocabulary) (name : String) (f : Function) : Vocabulary :=
  { v with functions := v.functions.set name f }

/-- The constant of a name that expressions may use: not null. -/
def value? (v : Vocabulary) (name : String) : Option Datum :=
  match v.constants.lookup name with
  | none | some .null => none
  | some d => some d

/-- A vocabulary as a domain of data. -/
def domain (v : Vocabulary) : Domain Datum where
  literal := v.literal
  constant? := v.value?
  function? name := (v.functions.lookup name).map Function.step
  negate := Datum.negate
  operate := Datum.step

end Vocabulary

end Calculator
