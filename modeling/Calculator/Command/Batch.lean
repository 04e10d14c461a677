import Calculator.Command.Session

/-!
# Batches

Expressions given as arguments. Each is evaluated on its own, and a fault in one
does not keep the others from being evaluated. The outcomes are printed one by
one, or together as JSON; the status tells whether there was a fault.
-/

namespace Calculator

/-- An expression with its outcome. -/
structure BatchEntry where
  expression : String
  outcome : Except Diagnostic Datum
deriving Repr

namespace BatchEntry

/-- Whether the expression has no value. -/
def isFailed (e : BatchEntry) : Bool :=
  match e.outcome with
  | .ok _ => false
  | .error _ => true

/-- A diagnostic as data. -/
def faultDatum (d : Diagnostic) : Datum :=
  .record
    [("kind", .text d.stage.name), ("line", .int d.position.line),
     ("column", .int d.position.column), ("message", .text d.message)]

/-- An entry as data. -/
def datum (e : BatchEntry) : Datum :=
  match e.outcome with
  | .ok value =>
    .record [("expression", .text e.expression), ("value", value), ("error", .null)]
  | .error d =>
    .record [("expression", .text e.expression), ("value", .null), ("error", faultDatum d)]

/-- Prints an entry: the value, or the diagnostic on the error output. -/
def print (env : Environment) (settings : Settings) (e : BatchEntry) : Run Unit :=
  match e.outcome with
  | .ok d => do
    let value ← Run.present env settings d
    Run.tell s!"{e.expression} = {value}"
  | .error d => Run.warn s!"Error evaluating \"{e.expression}\":\n{d.message}"

end BatchEntry

namespace Batch

/-- Evaluates expressions in order, and prints each as it comes unless JSON is
wanted. -/
def evaluateAll (env : Environment) (settings : Settings) (json : Bool) :
    List String → Run (List BatchEntry)
  | [] => pure []
  | expression :: rest => do
    let outcome ← Run.attempt env settings expression (.ofText expression.toList)
    let entry : BatchEntry := ⟨expression, outcome⟩
    if !json then entry.print env settings
    let others ← evaluateAll env settings json rest
    pure (entry :: others)

/-- The number of entries without a value. -/
def failures (entries : List BatchEntry) : Nat := entries.countP (·.isFailed)

/-- Entries as data. -/
def datum (entries : List BatchEntry) : Datum := .list (entries.map BatchEntry.datum)

/-- Evaluates a batch of expressions. The status is one if some have no value. -/
def run (env : Environment) (settings : Settings) (expressions : List String) (json : Bool) :
    Run Nat := do
  let count := expressions.length
  Run.log env .info .batchStarted "Evaluating arguments" [("count", .int count)]
  let entries ← evaluateAll env settings json expressions
  let failed := failures entries
  Run.log env .info .batchCompleted s!"{count - failed}/{count} evaluated"
    [("count", .int count), ("failed", .int failed)]
  if json then Run.tell (Json.renderIndented (datum entries))
  pure (if failed = 0 then 0 else 1)

end Batch

end Calculator
