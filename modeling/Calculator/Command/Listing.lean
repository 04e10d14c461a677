import Calculator.Command.Session
import Calculator.Text.Upper

/-!
# Listings

What the program knows: the names of the standard vocabulary, and the events of a
log, most recent first.
-/

namespace Calculator

namespace Listing

/-- A text with blanks behind it up to a width. -/
def padded (width : Nat) (s : String) : String :=
  s ++ String.ofList (List.replicate (width - s.length) ' ')

/-! ## Names -/

/-- The constants and functions of a vocabulary as data. -/
def vocabularyDatum (v : Vocabulary) : Datum :=
  .record
    [("constants", .record v.constants.sorted),
     ("functions", .list (v.functions.sorted.map fun f => .text f.1))]

/-- The lines that list the constants and functions of a vocabulary. -/
def vocabularyLines (v : Vocabulary) : List String :=
  "Constants:" :: v.constants.sorted.map (fun c => s!"  {padded 10 c.1} {c.2.shown}") ++
    ["Functions:", "  " ++ ", ".intercalate (v.functions.sorted.map (·.1))]

/-- Lists the standard vocabulary. -/
def vocabulary (json : Bool) : Run Nat := do
  if json then Run.tell (Json.renderIndented (vocabularyDatum .standard))
  else (vocabularyLines .standard).forM Run.tell
  pure 0

/-! ## Events -/

/-- Which events are listed, and how. -/
structure Query where
  directory : Option String
  level : Option String
  type : Option String
  limit : Int
  json : Bool
deriving DecidableEq, Repr

/-- The most events that are listed unless another number is given. -/
def standardLimit : Int := 100

/-- The points of data as a message shows them. -/
def pointsOf : Datum → List Text.Point
  | .torn s => s
  | d => Text.points d.shown.toList

/-- A text under a name, the empty one if there is none. Other data have no
`operation`. -/
def textField (fields : Fields) (name operation : String) :
    Except Failure (List Text.Point) :=
  match fields.get? name with
  | none => .ok []
  | some (.text s) => .ok (Text.points s.toList)
  | some (.torn s) => .ok s
  | some d => .error (.noAttribute d.typeName operation)

/-- A point in upper case. -/
def upperPoint : Text.Point → List Text.Point
  | .char c => Text.points (Text.upperChars c)
  | p => [p]

/-- The line that lists an event. Only records can be listed. -/
def eventLine : Datum → Except Failure (List Text.Point)
  | .record fields => do
    let shown (name : String) : List Text.Point :=
      match Fields.get? fields name with
      | some d => pointsOf d
      | none => []
    let plain (s : String) := Text.points s.toList
    let level ← textField fields "level" "upper"
    let level := level.flatMap upperPoint
    let level := level ++ plain (String.ofList (List.replicate (7 - level.length) ' '))
    let message ← textField fields "message" "partition"
    let first := message.takeWhile (· ≠ .char '\n')
    let line := plain "[" ++ shown "ts" ++ plain "] " ++ level ++ plain " " ++ shown "event_type" ++
      plain ": " ++ first
    match Fields.get? fields "error_code" with
    | some code =>
      pure (if code.isTruthy then line ++ plain "  (" ++ pointsOf code ++ plain ")" else line)
    | none => pure line
  | d => .error (.noAttribute d.typeName "get")

/-- The text of a line, if all its points can be printed. -/
def printable (ps : List Text.Point) : Except Failure String :=
  match Text.wholeText? ps with
  | some s => .ok (String.ofList s)
  | none =>
    let isWhole (p : Text.Point) : Bool := p.char?.isSome
    let before := ps.takeWhile isWhole
    let halves := (ps.drop before.length).takeWhile fun p => !isWhole p
    let unit := ((halves.head?).map Text.Point.code).getD 0
    .error (.notEncodable unit before.length (before.length + halves.length - 1))

/-- Lists events one by one. -/
def eventLines : List Datum → Run Unit
  | [] => pure ()
  | e :: rest => do
    let line ← Run.ofExcept (eventLine e >>= printable)
    Run.tell line
    eventLines rest

/-- The directory of the log to list: the one that is asked for, or else the one of
the settings. -/
def directoryOf (settings : Settings) (q : Query) : Option Path :=
  match q.directory with
  | some text =>
    if text = "" then settings.logDirectory.map fun l => .ofText l.text else some (.ofText text)
  | none => settings.logDirectory.map fun l => .ofText l.text

/-- Lists the events of a log. -/
def events (env : Environment) (settings : Settings) (q : Query) : Run Nat := do
  match directoryOf settings q with
  | none =>
    throw (.unable "No event log: set log_dir in calceval.yaml or pass --log-dir.")
  | some directory =>
    let s ← get
    let (sink, files) ←
      Run.ofExcept (Sink.openAt s.files env.directory directory settings.tailBytes)
    set { s with files }
    let events ←
      Run.ofExcept (sink.read env.locking files env.directory q.level q.type q.limit)
    if q.json then Run.tell (Json.renderIndented (.list events))
    else if events.isEmpty then Run.tell "No events found."
    else eventLines events
    pure 0

end Listing

end Calculator
