import Calculator.Event.Basic

/-!
# Clipped contexts

Contexts may hold whole sources. `clip` cuts long texts in a context and in the
records inside it; texts inside lists are left alone. `attributed` makes an event
a warning if its context lacks a name that its type requires.
-/

namespace Calculator

/-- The longest text that is kept whole. -/
def longestText : Nat := 256

/-- The mark behind a text that was cut. -/
def truncationMark : String := "...[truncated]"

/-- A text, cut if it is too long. -/
def clipText (s : String) : String :=
  if longestText < s.length then String.ofList (s.toList.take longestText) ++ truncationMark
  else s

/-- A text of points, cut if it is too long. -/
def clipPoints (ps : List Text.Point) : Datum :=
  if longestText < ps.length then
    .ofPoints (ps.take longestText ++ Text.points truncationMark.toList)
  else .torn ps

mutual

/-- Data with the texts cut that are reached through records alone. -/
def clipDatum : Datum → Datum
  | .text s => .text (clipText s)
  | .torn ps => clipPoints ps
  | .record fields => .record (clip fields)
  | d => d

/-- A context with its long texts cut. -/
def clip : List (String × Datum) → List (String × Datum)
  | [] => []
  | (name, d) :: rest => (name, clipDatum d) :: clip rest

end

namespace Event

/-- The required names that the context of an event lacks. -/
def missing (e : Event) : List String := e.type.required.filter fun n => !e.context.has n

/-- An event as a warning that lists the required names it lacks, if it lacks
any. -/
def attributed (e : Event) : Event :=
  match e.missing with
  | [] => e
  | names =>
    { e with
      level := .warning
      context := e.context.set "_missing_attribution" (.list (names.map .text)) }

/-- An event as it is logged: clipped, and attributed. -/
def prepared (e : Event) : Event := attributed { e with context := clip e.context }

end Event

end Calculator
