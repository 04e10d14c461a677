import Calculator.Command.Basic
import Calculator.Event.Journal
import Calculator.Settings
import Calculator.Template.Render
import Calculator.Text.Style
import Calculator.Vocabulary

/-!
# Sessions

One run of the program: it starts in a directory, with an input and a time, and
works on the files, the journal and the two outputs of its session. A run may
stop before its end; what it has done by then stays done.
-/

namespace Calculator

/-- What a run finds besides the files. -/
structure Environment where
  /-- The directory it starts in. -/
  directory : Location
  /-- Its standard input. -/
  input : List UInt8
  /-- Whether someone types that input. -/
  isInteractive : Bool
  /-- The time, as events give it. -/
  now : String
  /-- The seconds on a clock that never goes back. -/
  clock : Rat
  /-- How the files of the event log are guarded. -/
  locking : Locking
  /-- What there is around the values that templates present. -/
  host : Template.Host := .bare

/-- What a run has done so far. -/
structure Session where
  files : Files
  journal : Journal
  /-- The standard output. -/
  out : String
  /-- The error output. -/
  err : String

/-- Why a run stops before its end. -/
inductive Stop where
  /-- It was only asked for a text. -/
  | answered (text : String)
  /-- It was given no arguments. -/
  | unguided
  /-- Its arguments are refused, those of the program or those of a command. -/
  | refused (command : Option Command) (complaint : Command.Complaint)
  /-- What it was asked for cannot be done. -/
  | unable (message : String)
  /-- A failure that it does not report. -/
  | failed (cause : Failure)
deriving DecidableEq, Repr

/-- A step of a run. -/
abbrev Run (α : Type) : Type := ExceptT Stop (StateM Session) α

/-- How a run ends: with a status, or with a failure that it does not report. -/
inductive Finish where
  | status (code : Nat)
  | failure (cause : Failure)
deriving DecidableEq, Repr

namespace Session

/-- The session of a run that has done nothing. -/
def start (files : Files) : Session := ⟨files, .silent, "", ""⟩

/-- A text on the standard output. -/
def print (s : Session) (text : String) : Session := { s with out := s.out ++ text }

/-- A text on the error output. -/
def report (s : Session) (text : String) : Session := { s with err := s.err ++ text }

/-- The text of a warning. -/
def warningLine (text : String) : String := s!"[{Command.programName}] {text}\n"

/-- Goes on with another journal and other files. A new warning of the journal goes to
the error output. -/
def adopt (s : Session) (journal : Journal) (files : Files) : Session :=
  let news := journal.warnings.take (journal.warnings.length - s.journal.warnings.length)
  { s with journal, files }.report (String.join (news.reverse.map warningLine))

/-- An event for the journal. -/
def log (env : Environment) (s : Session) (e : Event) : Session :=
  let (journal, files) := s.journal.emit env.directory env.clock s.files e
  s.adopt journal files

/-- An expression evaluated by the standard vocabulary, with its event. -/
def evaluate (env : Environment) (settings : Settings) (s : Session) (label : String)
    (source : Supply) : Except Trouble Datum × Session :=
  let (outcome, journal, files) :=
    s.journal.evaluate Vocabulary.standard.domain settings.depth env.now label env.directory
      env.clock s.files source
  (outcome, s.adopt journal files)

/-- The end of a run that ended with a status or stopped. -/
def finish (s : Session) : Except Stop Nat → Finish × Session
  | .ok code => (.status code, s)
  | .error (.answered text) => (.status 0, s.print text)
  | .error .unguided => (.status 2, s.report (Command.help none))
  | .error (.refused c complaint) =>
    (.status 2, s.report (Text.plainText (Command.refusal c complaint)))
  | .error (.unable message) => (.status 1, s.report (Text.plainText s!"Error: {message}\n"))
  | .error (.failed cause) => (.failure cause, s)

end Session

namespace Run

/-- A line on the standard output, without changes of style. -/
def tell (line : String) : Run Unit := modify (·.print (Text.plainText line ++ "\n"))

/-- A line on the error output, without changes of style. -/
def warn (line : String) : Run Unit := modify (·.report (Text.plainText line ++ "\n"))

/-- An event for the journal. -/
def log (env : Environment) (level : EventLevel) (type : EventType) (message : String)
    (context : Fields) : Run Unit :=
  modify (·.log env (.make env.now level type message context))

/-- A result, or the end of the run with a failure. -/
def ofExcept {α : Type} : Except Failure α → Run α
  | .ok a => pure a
  | .error cause => throw (.failed cause)

/-- The value of an expression, or the diagnostic of its fault. -/
def attempt (env : Environment) (settings : Settings) (label : String) (source : Supply) :
    Run (Except Diagnostic Datum) := do
  let (outcome, s) := (← get).evaluate env settings label source
  set s
  match outcome with
  | .ok d => pure (.ok d)
  | .error (.diagnosed d) => pure (.error d)
  | .error (.escaped cause) => throw (.failed cause)

/-- The text of a value by the template of the settings. -/
def present (env : Environment) (settings : Settings) (value : Datum) : Run String :=
  ofExcept (Template.render settings.template value env.host)

end Run

end Calculator
