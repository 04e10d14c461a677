import Calculator.Data.Datum
import Calculator.Number.Reader

/-!
# Events

A structured log event: when, how serious, what, and in what context. Events are
written as records with fixed field names; `Event.ofFields` reads one from fields
by the same names and refuses fields that break the schema.
-/

namespace Calculator

/-- How serious an event is. -/
inductive EventLevel where
  | info
  | warning
  | error
deriving DecidableEq, Repr

namespace EventLevel

/-- All levels. -/
def all : List EventLevel := [info, warning, error]

/-- The name of a level. -/
def name : EventLevel → String
  | info => "info"
  | warning => "warning"
  | error => "error"

/-- The level of a name. -/
def ofName? (s : String) : Option EventLevel := all.find? (·.name == s)

end EventLevel

/-- What an event is about: one evaluation, or a session of a front end. -/
inductive EventType where
  | evalCompleted
  | evalFailed
  | batchStarted
  | batchCompleted
  | replStarted
deriving DecidableEq, Repr

namespace EventType

/-- All event types. -/
def all : List EventType := [evalCompleted, evalFailed, batchStarted, batchCompleted, replStarted]

/-- The name of an event type. -/
def name : EventType → String
  | evalCompleted => "eval_completed"
  | evalFailed => "eval_failed"
  | batchStarted => "batch_started"
  | batchCompleted => "batch_completed"
  | replStarted => "repl_started"

/-- The event type of a name. -/
def ofName? (s : String) : Option EventType := all.find? (·.name == s)

/-- The names that the context of an event must have, in order. -/
def required : EventType → List String
  | evalCompleted => ["source"]
  | evalFailed => ["error_kind", "source"]
  | batchStarted => ["count"]
  | batchCompleted => ["count", "failed"]
  | replStarted => []

end EventType

/-- A structured log event. -/
structure Event where
  schemaVersion : Int
  ts : String
  level : EventLevel
  type : EventType
  context : Fields
  message : String
  errorCode : Option String
deriving Repr

namespace Event

/-- The version of the event schema. -/
def currentVersion : Int := 1

/-- An event of the current version. -/
def make (ts : String) (level : EventLevel) (type : EventType) (message : String)
    (context : Fields) (errorCode : Option String := none) : Event :=
  ⟨currentVersion, ts, level, type, context, message, errorCode⟩

/-- The fields of an event. -/
def fields (e : Event) : Fields :=
  [("schema_version", .int e.schemaVersion), ("ts", .text e.ts), ("level", .text e.level.name),
   ("event_type", .text e.type.name), ("context", .record e.context),
   ("message", .text e.message), ("error_code", .ofText? e.errorCode)]

/-- An event as data. -/
def datum (e : Event) : Datum := .record e.fields

/-! ## Reading events from fields -/

/-- A text that must be one. -/
def textOf : Datum → Except Failure String
  | .text s => .ok s
  | _ => .error .invalidEvent

/-- A text or null. -/
def optionalTextOf : Datum → Except Failure (Option String)
  | .null => .ok none
  | .text s => .ok (some s)
  | _ => .error .invalidEvent

/-- A record that must be one. -/
def recordOf : Datum → Except Failure Fields
  | .record fields => .ok fields
  | _ => .error .invalidEvent

/-- A whole double of the size of a machine word. -/
def intOfFloat? (x : Float) : Option Int :=
  if x.floor == x && -9223372036854775808 < x && x < 9223372036854775808 then
    some x.toInt64.toInt
  else none

/-- The digits of an integer without zeros in front, unless there are too many. -/
def intOfDigits? (negative : Bool) (ds : List Char) : Option Int :=
  match readDigits ds with
  | .ok n => some (signed negative n)
  | .error _ => none

/-- An integer as a text gives it: digits with single underscores between them, and
perhaps a point and zeros behind them. Zeros in front need a sign that is no
minus. -/
def intOfText? (s : String) : Option Int := do
  let body := Text.trim s.toList
  let (negative, body) := takeSign body
  let run := body.takeWhile isNumeral
  let ds ← digitsOf? run
  let isPlaces := match body.dropWhile isNumeral with
    | [] => true
    | '.' :: zeros => zeros.all (· = '0')
    | _ => false
  let stripped := ds.dropWhile (· = '0')
  if !isPlaces || (negative && ds.head? = some '0' && ds ≠ ['0']) then none
  else intOfDigits? negative (if stripped = [] then ['0'] else stripped)

/-- An integer. A truth value, a whole number and a text of digits count as one. -/
def intOf (d : Datum) : Except Failure Int :=
  let n? := match d with
    | .number (.int n) => some n
    | .bool b => some (if b then 1 else 0)
    | .number n => n.toFloat.toOption.bind intOfFloat?
    | .text s => intOfText? s
    | _ => none
  match n? with
  | some n => .ok n
  | none => .error .invalidEvent

/-- A field that may be absent. -/
def fieldOr {α : Type} (fields : Fields) (name : String) (absent : α)
    (read : Datum → Except Failure α) : Except Failure α :=
  match fields.get? name with
  | some d => read d
  | none => .ok absent

/-- A field that must be there and be one of the names of an enumeration. -/
def namedField {α : Type} (fields : Fields) (name : String) (ofName? : String → Option α) :
    Except Failure α :=
  match fields.get? name with
  | some (.text s) =>
    match ofName? s with
    | some a => .ok a
    | none => .error .invalidEvent
  | _ => .error .invalidEvent

/-- The event with the given fields, at time `now` unless they say when. -/
def ofFields (now : String) (fields : Fields) : Except Failure Event := do
  let schemaVersion ← fieldOr fields "schema_version" currentVersion intOf
  let ts ← fieldOr fields "ts" now textOf
  let level ← namedField fields "level" EventLevel.ofName?
  let type ← namedField fields "event_type" EventType.ofName?
  let context ← fieldOr fields "context" [] recordOf
  let message ← fieldOr fields "message" "" textOf
  let errorCode ← fieldOr fields "error_code" none optionalTextOf
  pure ⟨schemaVersion, ts, level, type, context, message, errorCode⟩

end Event

end Calculator
