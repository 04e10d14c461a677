import Calculator.Command.Batch
import Calculator.Command.Dialogue
import Calculator.Command.Listing

/-!
# Calls

A call of the program: options, the name of a command, and the arguments of the
command. `prepare` reads the call, loads the settings and opens the log;
`perform` does what the call asks for. Both together make a run.
-/

namespace Calculator

/-- Where the expression of a source comes from. -/
inductive Origin where
  | standardInput
  | file (path : String) (bytes : List UInt8)
deriving DecidableEq, Repr

/-- The name of a source in its event. -/
def Origin.label : Origin → String
  | standardInput => "<stdin>"
  | file path _ => path

/-- The bytes of a source. -/
def Origin.bytes (env : Environment) : Origin → List UInt8
  | standardInput => env.input
  | file _ bytes => bytes

/-- What a call asks for. -/
inductive Request where
  | batch (expressions : List String) (json : Bool)
  | source (origin : Origin)
  | dialogue
  | vocabulary (json : Bool)
  | events (query : Listing.Query)
deriving DecidableEq, Repr

namespace Call

open Command

/-! ## Options of the program -/

/-- The file or directory that an option names, if something is there. A path that no
file can have is a failure of its own. -/
def findNamed (files : Files) (cwd : Location) (path : String) : Except Stop (Option Node) :=
  match files.find cwd path with
  | .ok n => .ok (some n)
  | .error .zeroByte => .error (.failed .zeroByte)
  | .error _ => .ok none

/-- The file of settings that is asked for. It must be there and be no directory. -/
def settingsFile (files : Files) (cwd : Location) (a : Arguments) :
    Except Stop (Option String) :=
  match a.last? "--config" with
  | none => .ok none
  | some path => do
    let refuse (reason : String) : Except Stop (Option String) :=
      .error (.refused none (.invalidValue "--config" s!"File {Text.quoted path} {reason}"))
    match ← findNamed files cwd path with
    | none => refuse "does not exist."
    | some .directory => refuse "is a directory."
    | some (.file _) => .ok (some path)

/-- The arguments before the command, as the file of settings and what follows. Help
and the version are given first. -/
def readProgram (env : Environment) (files : Files) (args : List String) :
    Except Stop (Option String × List String) := do
  let a ← (readArguments programManner programSwitches args).mapError (.refused none)
  match a.names.find? fun n => n = "--help" ∨ n = "--version" with
  | some "--help" => throw (.answered (help none))
  | some _ => throw (.answered s!"{programName}, version {version}\n")
  | none =>
    let chosen ← settingsFile files env.directory a
    pure (chosen, a.others)

/-- The file of settings, the command, and the arguments of the command. A word in the
place of the command that looks like an option is taken for one first. -/
def readCommand (env : Environment) (files : Files) (args : List String) :
    Except Stop (Option String × Command × List String) := do
  if args = [] then throw .unguided
  let (chosen, others) ← readProgram env files args
  match others with
  | [] => throw (.refused none .missingCommand)
  | name :: rest =>
    match Command.ofName? name with
    | some c => pure (chosen, c, rest)
    | none =>
      if looksLikeSwitch name then discard (readProgram env files others)
      throw (.refused none (.unknownCommand name (similar name (Command.all.map Command.name))))

/-! ## Arguments of commands -/

/-- Refuses the arguments of a command. -/
def refuse {α : Type} (c : Command) (complaint : Complaint) : Except Stop α :=
  .error (.refused (some c) complaint)

/-- Refuses arguments that nothing takes. -/
def noMore (c : Command) (others : List String) : Except Stop Unit :=
  if others = [] then .ok () else refuse c (.extraArguments others)

/-- The source that an argument names. -/
def originOf (files : Files) (cwd : Location) (path : String) : Except Stop Origin :=
  if path = "-" then .ok .standardInput
  else
    match files.read cwd path with
    | .ok bytes => .ok (.file path bytes)
    | .error .zeroByte => .error (.failed .zeroByte)
    | .error cause =>
      refuse .file (.invalidValue "SOURCE" s!"'{path}': {cause.fileReason?.getD cause.message}")

/-- Refuses the value of an option of the command that lists events. -/
def checkOption (files : Files) (cwd : Location) (a : Arguments) (name : String) :
    Except Stop Unit :=
  let refuse (reason : String) : Except Stop Unit := refuse .events (.invalidValue name reason)
  match name, a.last? name with
  | "--log-dir", some path => do
    match ← findNamed files cwd path with
    | some (.file _) => refuse s!"Directory {Text.quoted path} is a file."
    | _ => .ok ()
  | "--level", some level =>
    let levels := EventLevel.all.map EventLevel.name
    if level ∈ levels then .ok ()
    else
      let choices := ", ".intercalate (levels.map Text.quoted)
      refuse s!"{Text.quoted level} is not one of {choices}."
  | "--limit", some limit =>
    match readInt limit with
    | .ok _ => .ok ()
    | .error _ => refuse s!"{Text.quoted limit} is not a valid integer."
  | _, _ => .ok ()

/-- The number in the value of an option, or a standard one. -/
def limitOf (a : Arguments) : Int :=
  match a.last? "--limit" with
  | some limit => (readInt limit).toOption.getD Listing.standardLimit
  | none => Listing.standardLimit

/-- The request of a command with its arguments. -/
def requestOf (files : Files) (cwd : Location) (a : Arguments) :
    Command → Except Stop Request
  | .eval =>
    if a.others = [] then refuse .eval (.missingArgument "EXPRESSIONS...")
    else .ok (.batch a.others (a.has "--json"))
  | .events => do
    a.names.forM (checkOption files cwd a)
    noMore .events a.others
    pure (.events ⟨a.last? "--log-dir", a.last? "--level", a.last? "--type", limitOf a,
      a.has "--json"⟩)
  | .file =>
    match a.others with
    | [] => refuse .file (.missingArgument "SOURCE")
    | path :: rest => do
      let origin ← originOf files cwd path
      noMore .file rest
      pure (.source origin)
  | .repl => do
    noMore .repl a.others
    pure .dialogue
  | .vocab => do
    noMore .vocab a.others
    pure (.vocabulary (a.has "--json"))

/-- The request of a command with its arguments as they are given. -/
def readRequest (files : Files) (cwd : Location) (c : Command) (args : List String) :
    Except Stop Request := do
  let a ← (readArguments c.manner c.switches args).mapError (.refused (some c))
  if a.has "--help" then throw (.answered (help (some c)))
  requestOf files cwd a c

/-! ## Runs -/

/-- The settings for a run: those of the given file, or else those of the directory it
starts in. A refused file is reported. -/
def loadSettings (env : Environment) (files : Files) (chosen : Option String) :
    Except Stop Settings :=
  let loaded :=
    match chosen with
    | some path => Settings.load files env.directory (.ofText path)
    | none => Settings.loadFrom files env.directory (.ofText env.directory.text)
  loaded.mapError fun cause =>
    match cause.kind with
    | .value | .encoding | .textEncoding => .unable cause.message
    | _ => .failed cause

/-- Opens the log that the settings ask for. -/
def openLog (env : Environment) (settings : Settings) : Run Unit := do
  match settings.logDirectory with
  | none => pure ()
  | some directory =>
    let s ← get
    let (sink, files) ← Run.ofExcept
      (Sink.openAt s.files env.directory (.ofText directory.text) settings.tailBytes)
    set { s with files, journal := { s.journal with sink := some sink } }

/-- Reads a call, loads the settings, and opens the log. -/
def prepare (env : Environment) (args : List String) : Run (Settings × Request) := do
  let files := (← get).files
  let (chosen, c, rest) ← liftExcept (readCommand env files args)
  let settings ← liftExcept (loadSettings env files chosen)
  openLog env settings
  let request ← liftExcept (readRequest (← get).files env.directory c rest)
  pure (settings, request)
where
  /-- A result, or the end of the run. -/
  liftExcept {α : Type} : Except Stop α → Run α
    | .ok a => pure a
    | .error stop => throw stop

/-- Evaluates one source as a whole. The status is one if it has no value. -/
def runSource (env : Environment) (settings : Settings) (origin : Origin) : Run Nat := do
  match ← Run.attempt env settings origin.label (.ofBytes (origin.bytes env)) with
  | .ok value =>
    Run.tell (← Run.present env settings value)
    pure 0
  | .error d =>
    Run.warn d.message
    pure 1

/-- Does what a call asks for, and gives the status. -/
def perform (env : Environment) (settings : Settings) : Request → Run Nat
  | .batch expressions json => Batch.run env settings expressions json
  | .source origin => runSource env settings origin
  | .dialogue => Dialogue.run env settings
  | .vocabulary json => Listing.vocabulary json
  | .events query => Listing.events env settings query

/-- A whole run. -/
def run (env : Environment) (files : Files) (args : List String) : Finish × Session :=
  let steps : Run Nat := do
    let (settings, request) ← prepare env args
    perform env settings request
  let (result, s) := steps.run (.start files)
  s.finish result

end Call

end Calculator
