import Calculator.Command.Arguments

/-!
# Commands

The commands of the program, their options and their usage. The usage of the
program itself is that of no command.
-/

namespace Calculator

/-- The commands. -/
inductive Command where
  | eval
  | events
  | file
  | repl
  | vocab
deriving DecidableEq, Repr

namespace Command

/-- The name of the program. -/
def programName : String := "calceval"

/-- The version of the program. -/
def version : String := "0.3.0"

/-- All commands, in the order of their names. -/
def all : List Command := [eval, events, file, repl, vocab]

/-- The name of a command. -/
def name : Command → String
  | eval => "eval"
  | events => "events"
  | file => "file"
  | repl => "repl"
  | vocab => "vocab"

/-- The command of a name. -/
def ofName? (s : String) : Option Command := all.find? (·.name == s)

/-! ## Options -/

/-- The option that asks for help. -/
def helpSwitch : Switch := ⟨"--help", false⟩

/-- The option that asks for JSON. -/
def jsonSwitch : Switch := ⟨"--json", false⟩

/-- The options before the command. -/
def programSwitches : List Switch := [⟨"--version", false⟩, ⟨"--config", true⟩, helpSwitch]

/-- The options of a command. -/
def switches : Command → List Switch
  | eval => [jsonSwitch, helpSwitch]
  | events =>
    [⟨"--log-dir", true⟩, ⟨"--level", true⟩, ⟨"--type", true⟩, ⟨"--limit", true⟩, jsonSwitch,
     helpSwitch]
  | file => [helpSwitch]
  | repl => [helpSwitch]
  | vocab => [jsonSwitch, helpSwitch]

/-- How the arguments before the command are read: its name ends the options. -/
def programManner : Manner := ⟨false, false⟩

/-- How the arguments of a command are read. Expressions may start with a dash. -/
def manner : Command → Manner
  | eval => ⟨true, true⟩
  | _ => ⟨true, false⟩

/-! ## Usage -/

/-- The program, or the program with a command. -/
def callName : Option Command → String
  | none => programName
  | some c => programName ++ " " ++ c.name

/-- What follows the name in a call. -/
def callArguments : Option Command → String
  | none => "[OPTIONS] COMMAND [ARGS]..."
  | some eval => "[OPTIONS] EXPRESSIONS..."
  | some file => "[OPTIONS] SOURCE"
  | some _ => "[OPTIONS]"

/-- The usage of a command. -/
def usage (c : Option Command) : String := s!"Usage: {callName c} {callArguments c}\n"

/-- The text that refuses arguments. -/
def refusal (c : Option Command) (complaint : Complaint) : String :=
  let error := s!"Error: {complaint.message}\n"
  if complaint.showsUsage then
    usage c ++ s!"Try '{callName c} --help' for help.\n\n" ++ error
  else error

/-- What a command does, and its options, as help shows them. -/
def description : Option Command → String
  | none => "
  calceval -- evaluate arithmetic expressions.

  Supports + - * / ^, parentheses, unary minus, the constants pi and e, and
  the functions log, log10, exp, sin, cos, tan, arcsin, arccos, arctan.

Options:
  --version      Show the version and exit.
  --config FILE  Path to a calceval.yaml (default: ./calceval.yaml if
                 present).
  --help         Show this message and exit.

Commands:
  eval    Evaluate each EXPRESSION argument on its own.
  events  Show the structured event log, most recent first.
  file    Evaluate the whole of SOURCE (a path, or - for stdin) as one...
  repl    Read one expression per line and print its value.
  vocab   List the constants and functions of the standard domain.
"
  | some eval => "
  Evaluate each EXPRESSION argument on its own.

  Expressions may start with a minus (`calceval eval -2^2`). Exits with status
  1 if any expression failed.

Options:
  --json  Output as JSON.
  --help  Show this message and exit.
"
  | some events => "
  Show the structured event log, most recent first.

Options:
  --log-dir DIRECTORY           Event log directory (default: log_dir from
                                calceval.yaml).
  --level [info|warning|error]  Filter by level.
  --type TEXT                   Filter by event type.
  --limit INTEGER               Maximum events to show.
  --json                        Output as JSON.
  --help                        Show this message and exit.
"
  | some file => "
  Evaluate the whole of SOURCE (a path, or - for stdin) as one expression.

Options:
  --help  Show this message and exit.
"
  | some repl => "
  Read one expression per line and print its value.

  Errors are printed and the loop continues. Ends at EOF, ``quit`` or
  ``exit``.

Options:
  --help  Show this message and exit.
"
  | some vocab => "
  List the constants and functions of the standard domain.

Options:
  --json  Output as JSON.
  --help  Show this message and exit.
"

/-- The help of a command. -/
def help (c : Option Command) : String := usage c ++ description c

end Command

end Calculator
