import Calculator.Evaluation
import Calculator.Event.Clip
import Calculator.Event.Sink

/-!
# Journals

A journal passes events on to its sink, if it has one. An event that cannot be
written is dropped with a warning, but at most one warning is given a minute.
Evaluations report themselves to the journal and are not changed by it.
-/

namespace Calculator

/-- A moment in time as it is written in events. -/
structure Timestamp where
  year : Int
  month : Int
  day : Int
  hour : Int
  minute : Int
  second : Int
  microsecond : Int
deriving DecidableEq, Repr

/-- A number with zeros on the left up to a width. -/
def zeroPadded (width : Nat) (n : Int) : String :=
  let ds := toString n
  String.ofList (List.replicate (width - ds.length) '0') ++ ds

/-- A moment of universal time in the form of events. -/
def Timestamp.render (t : Timestamp) : String :=
  let two := zeroPadded 2
  s!"{t.year}-{two t.month}-{two t.day}T{two t.hour}:{two t.minute}:{two t.second}" ++
    s!".{zeroPadded 6 t.microsecond}Z"

/-- A log of events: its sink, when the last warning was given on a clock that
never goes back, and the warnings so far, last first. -/
structure Journal where
  sink : Option Sink
  lastWarning : Rat
  warnings : List String
deriving Repr

namespace Journal

/-- A journal without a sink. -/
def silent : Journal := ⟨none, 0, []⟩

/-- The least number of seconds between warnings. -/
def warningInterval : Rat := 60

/-- Gives a warning, unless one was given less than an interval ago. -/
def warn (j : Journal) (now : Rat) (text : String) : Journal :=
  if now - j.lastWarning < warningInterval then j
  else { j with lastWarning := now, warnings := text :: j.warnings }

/-- Passes an event on to the sink. A failure to write it becomes a warning. -/
def emit (cwd : Location) (now : Rat) (j : Journal) (files : Files) (e : Event) :
    Journal × Files :=
  match j.sink with
  | none => (j, files)
  | some sink =>
    match sink.write files cwd e.prepared with
    | .ok files => (j, files)
    | .error cause => (j.warn now ("logging failed: " ++ cause.message), files)

end Journal

/-! ## Events of evaluations -/

/-- The code of the errors of a stage. -/
def Stage.errorCode (s : Stage) : String := s.name ++ "_error"

/-- The event of an evaluation of the source with the given label. Failures that
no diagnostic reports have none. -/
def evaluationEvent (ts label : String) : Except Trouble Datum → Option Event
  | .ok d =>
    some (.make ts .info .evalCompleted ("Evaluated " ++ Text.quoted label)
      [("source", .text label), ("value", d)])
  | .error (.diagnosed d) =>
    some (.make ts .error .evalFailed d.message
      [("source", .text label), ("error_kind", .text d.stage.name),
       ("line", .int d.position.line), ("column", .int d.position.column)]
      (some d.stage.errorCode))
  | .error (.escaped _) => none

namespace Journal

/-- An evaluation in a domain that reports itself to the journal, and the journal and
files behind it. What it gives is settled before anything is reported. -/
def evaluate (d : Domain Datum) (limit : DepthLimit) (ts label : String) (cwd : Location)
    (now : Rat) (j : Journal) (files : Files) (source : Supply) :
    Except Trouble Datum × Journal × Files :=
  let outcome := evaluateSupply d limit source
  match evaluationEvent ts label outcome with
  | some e => (outcome, j.emit cwd now files e)
  | none => (outcome, j, files)

end Journal

end Calculator
