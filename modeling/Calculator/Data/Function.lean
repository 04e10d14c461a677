import Calculator.Data.Operation
import Calculator.Number.Elementary

/-!
# Functions of data

The functions of a vocabulary take data and give data or a complex number. The
elementary functions are functions of numbers; all other data they refuse.
-/

namespace Calculator

/-- What a function of a vocabulary gives: data, or a complex number with the given
parts. -/
inductive Outcome where
  | value (d : Datum)
  | complex (re im : Float)
deriving Repr

/-- The text of a part of a complex number: that of the double without a zero
fraction. -/
def partText (x : Float) : String :=
  let s := (floatText x).toList
  String.ofList (if s.reverse.take 2 = ['0', '.'] then s.take (s.length - 2) else s)

/-- The text of a complex number. The real part is left out if it is zero with a
plus sign. -/
def complexText (re im : Float) : String :=
  if re.toBits = 0 then partText im ++ "j"
  else
    let sign := if im.isNaN || (0 < im) || im.toBits = 0 then "+" else ""
    "(" ++ partText re ++ sign ++ partText im ++ "j)"

/-- A function of a vocabulary. -/
abbrev Function := Datum → Except Failure Outcome

namespace Function

/-- A function without complex values. -/
def ofReal (f : Datum → Except Failure Datum) : Function := fun d => .value <$> f d

/-- An elementary function. -/
def ofElementary (f : Number.Elementary) : Function := fun d =>
  match d.number? with
  | some n => (fun x => .value (.number (.float x))) <$> f.value n
  | none => .error (.notReal d.typeName)

/-- The complex number with the argument as real part and the imaginary part
one. -/
def plusImaginaryUnit : Function := fun d =>
  match d, d.number? with
  | _, some n => (fun x => .complex x 1) <$> n.toFloat
  | .text _, none => .error .complexText
  | _, none => .error (.notComplex d.typeName)

/-- A step of an evaluation that applies a function. Complex values are refused,
and others that are not finite although the argument is. -/
def step (f : Function) (argument : Datum) : Except Mishap Datum :=
  match f argument with
  | .error cause => .error (.ofFailure cause)
  | .ok (.complex _ _) => .error .complexResult
  | .ok (.value d) => d.settle [argument]

end Function

end Calculator
