import Calculator.Number.Arithmetic

/-!
# Domains

What the rules of evaluation need to know of values: how a literal is read, which
names are constants and which are functions, how a value is negated, and what
the binary operations do. The rules consult values only through a domain.
-/

namespace Calculator

/-- Values of type `V` with the names defined for them. -/
structure Domain (V : Type) where
  /-- The value of a number as it is written. -/
  literal : String → Except Failure V
  /-- The constant of a name. -/
  constant? : String → Option V
  /-- The function of a name. -/
  function? : String → Option (V → Except Mishap V)
  /-- The negative of a value. -/
  negate : V → Except Failure V
  /-- A binary operation. -/
  operate : Operation → V → V → Except Mishap V

end Calculator
