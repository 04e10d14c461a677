import Calculator.Command.Session
import Calculator.Text.Blank

/-!
# Dialogues

An expression on each line of the input. Every line is answered by its value, or
by the diagnostic of its fault on the error output, and neither ends the dialogue.
Blank lines are passed over; the words `quit` and `exit` and the end of the input
end it.
-/

namespace Calculator

namespace Dialogue

/-- What a line asks for. -/
inductive Line where
  | blank
  | farewell
  | expression (source : List Char)
deriving DecidableEq, Repr

/-- The words that end a dialogue. -/
def farewells : List (List Char) := ["quit".toList, "exit".toList]

/-- A line without the blanks at its ends. -/
def Line.ofText (s : List Char) : Line :=
  let source := Text.trim s
  if source = [] then .blank
  else if source ∈ farewells then .farewell
  else .expression source

/-- The start of a dialogue. -/
def start (env : Environment) : Run Unit := Run.log env .info .replStarted "REPL started" []

/-- Asks for a line, if someone is there to type one. -/
def prompt (env : Environment) : Run Unit :=
  if env.isInteractive then modify (·.print "> ") else pure ()

/-- Answers an expression. -/
def answer (env : Environment) (settings : Settings) (source : List Char) : Run Unit := do
  match ← Run.attempt env settings (String.ofList source) (.ofText source) with
  | .ok value => Run.tell (← Run.present env settings value)
  | .error d => Run.warn d.message

/-- Answers a line. The result tells whether the dialogue goes on. -/
def step (env : Environment) (settings : Settings) (line : List Char) : Run Bool :=
  match Line.ofText line with
  | .blank => pure true
  | .farewell => pure false
  | .expression source => do
    answer env settings source
    pure true

/-- Answers lines up to one that ends the dialogue. Behind the last line comes what
is at the end of the input. -/
def answerAll (env : Environment) (settings : Settings) (atEnd : Run Unit) :
    List (List Char) → Run Unit
  | [] => do
    prompt env
    atEnd
  | line :: rest => do
    prompt env
    if ← step env settings line then answerAll env settings atEnd rest

/-- What is at the end of an input. -/
def endOf (input : Supply) : Run Unit :=
  match input.failure? with
  | none => pure ()
  | some cause => throw (.failed cause)

/-- Holds a dialogue over the whole input. -/
def run (env : Environment) (settings : Settings) : Run Nat := do
  start env
  let input := Supply.ofBytes env.input
  answerAll env settings (endOf input) input.lines
  pure 0

end Dialogue

end Calculator
