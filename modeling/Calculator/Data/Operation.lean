import Calculator.Data.Shown
import Calculator.Number.Arithmetic

/-!
# Operations on data

The operations of expressions on data of all kinds. Truth values count as the
numbers one and zero. Texts and lists can be joined to others of their kind and
repeated by an integer. For all other kinds an operation has no meaning, and
its failure names the kinds.
-/

namespace Calculator.Datum

/-- The number that data count as. -/
def number? : Datum → Option Number
  | number n => some n
  | bool b => some (.int (if b then 1 else 0))
  | _ => none

/-- The failure of an operation that has no meaning for the kinds of its
operands. -/
def meaningless {α : Type} (operation : String) (a b : Datum) : Except Failure α :=
  .error (.operandKinds operation a.typeName b.typeName)

/-- The negative of a number. -/
def negate (a : Datum) : Except Failure Datum :=
  match a.number? with
  | some n => .ok (.number n.negate)
  | none => .error (.negatedKind a.typeName)

/-! ## Joining and repeating -/

/-- The sum of data that are not both numbers: texts and lists are joined. -/
def join : Datum → Datum → Except Failure Datum
  | text s, text t => .ok (.text (s ++ t))
  | list xs, list ys => .ok (.list (xs ++ ys))
  | text s, b => .error (.joinedKinds (text s).typeName b.typeName)
  | list xs, b => .error (.joinedKinds (list xs).typeName b.typeName)
  | a, b => meaningless "+" a b

/-- How often something is repeated: an integer, negative ones counting as zero, of
the size of a machine word. -/
def repeatCount (times : Datum) : Except Failure Nat :=
  match times.number? with
  | some (.int n) => if n < -Int.pow 2 63 ∨ Int.pow 2 63 ≤ n then .error .repeatCount else .ok n.toNat
  | _ => .error (.repeatKind times.typeName)

/-- A text repeated a number of times. -/
def repeatText (s : String) (times : Datum) : Except Failure Datum := do
  let n ← repeatCount times
  if Nat.pow 2 63 ≤ n * s.length then throw .repeatLength
  else pure (.text (if s = "" then "" else String.join (List.replicate n s)))

/-- A list repeated a number of times. -/
def repeatList (items : List Datum) (times : Datum) : Except Failure Datum := do
  let n ← repeatCount times
  pure (.list (if items.isEmpty then [] else (List.replicate n items).flatten))

/-- The product of data that are not both numbers: a text or list is repeated, the
left one if there are two. -/
def repetition : Datum → Datum → Except Failure Datum
  | text s, b => repeatText s b
  | list xs, b => repeatList xs b
  | a, text s => repeatText s a
  | a, list xs => repeatList xs a
  | a, b => meaningless "*" a b

/-! ## Arithmetic -/

/-- A binary operation that is one of numbers where both operands are. -/
def combine (onNumbers : Number → Number → Except Failure Number)
    (onOthers : Datum → Datum → Except Failure Datum) (a b : Datum) : Except Failure Datum :=
  match a.number?, b.number? with
  | some m, some n => .number <$> onNumbers m n
  | _, _ => onOthers a b

/-- The sum of data. -/
def add : Datum → Datum → Except Failure Datum := combine Number.add join

/-- The difference of data. -/
def subtract : Datum → Datum → Except Failure Datum := combine Number.subtract (meaningless "-")

/-- The product of data. -/
def multiply : Datum → Datum → Except Failure Datum := combine Number.multiply repetition

/-- The quotient of data. -/
def divide : Datum → Datum → Except Failure Datum := combine Number.divide (meaningless "/")

/-- The power of data that are not both numbers. A fraction among them has become
a double, or an integer if it is an exponent that is whole. -/
def meaninglessPower : Datum → Datum → Except Failure Datum
  | number (.ratio q), b => do
    let x ← (Number.ratio q).toFloat
    meaningless "** or pow()" (.number (.float x)) b
  | a, number (.ratio q) =>
    if q.den = 1 then meaningless "** or pow()" a (.int q.num)
    else do
      let x ← (Number.ratio q).toFloat
      meaningless "** or pow()" a (.number (.float x))
  | a, b => meaningless "** or pow()" a b

/-- The power of data. -/
def power (a b : Datum) : Except Mishap Datum :=
  match a.number?, b.number? with
  | some m, some n => .number <$> Number.power m n
  | _, _ => (meaninglessPower a b).mapError .ofFailure

/-- A binary operation before its result is looked at. -/
def operate : Operation → Datum → Datum → Except Mishap Datum
  | .add, a, b => (add a b).mapError .ofFailure
  | .subtract, a, b => (subtract a b).mapError .ofFailure
  | .multiply, a, b => (multiply a b).mapError .ofFailure
  | .divide, a, b => (divide a b).mapError .ofFailure
  | .power, a, b => power a b

/-! ## Overflow -/

/-- Whether all of the operands are finite integers or doubles, looked at in
order. An integer beyond the range of doubles has no answer. -/
def allFinite : List Datum → Except Failure Bool
  | [] => .ok true
  | d :: rest =>
    match d.number? with
    | some (.int n) => do
      let _ ← Number.floatOfInt n
      allFinite rest
    | some (.float x) => if x.isFinite then allFinite rest else .ok false
    | _ => .ok false

/-- The result of a step on the given operands, unless it is a double that is not
finite although all operands are. -/
def settle (operands : List Datum) (result : Datum) : Except Mishap Datum :=
  match result with
  | number (.float x) =>
    if x.isFinite then .ok result
    else match allFinite operands with
      | .ok true => .error .overflow
      | .ok false => .ok result
      | .error f => .error (.escaped f)
  | _ => .ok result

/-- A binary step of an evaluation. -/
def step (op : Operation) (a b : Datum) : Except Mishap Datum := operate op a b >>= settle [a, b]

end Calculator.Datum
