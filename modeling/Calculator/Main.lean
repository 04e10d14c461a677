import Calculator.Command.Call
import Std.Time.DateTime

/-!
# The program

A call of the program with the files, the clock and the terminal that it finds. The
files that the call may use are looked at first. Then its steps are taken one after
another, and after each step what it printed is printed, and what it added to files
is written. Only a dialogue with someone at a terminal takes more than two steps.
-/

namespace Calculator.Program

/-! ## Time and input -/

/-- The present moment of universal time, as events give it. -/
def presentTime : IO String := do
  let now ← Std.Time.Timestamp.now
  let t := Std.Time.PlainDateTime.ofWallTime (now.toWallTime Std.Time.TimeZone.Offset.zero)
  let stamp : Timestamp :=
    ⟨t.year, t.date.month.val, t.date.day.val, t.time.hour.val, t.time.minute.val,
     t.time.second.val, t.time.nanosecond.val / 1000⟩
  pure stamp.render

/-- The directory in which the program was started. -/
def startDirectory : IO Location := do
  pure (Location.ofPath [] (.ofText (toString (← IO.currentDir))))

/-- What a step of a run finds, with the given input. -/
def environment (input : List UInt8) : IO Environment := do
  pure
    { directory := ← startDirectory
      input
      isInteractive := ← (← IO.getStdin).isTty
      now := ← presentTime
      clock := mkRat (← IO.monoNanosNow) 1000000000
      locking := .locked }

/-- The number of bytes that are read at a time. -/
def portion : USize := 65536

/-- The rest of the standard input. -/
partial def restOfInput (stdin : IO.FS.Stream) : IO (List UInt8) := do
  let bytes ← stdin.read portion
  if bytes.isEmpty then pure [] else pure (bytes.toList ++ (← restOfInput stdin))

/-! ## Files -/

/-- The number of the failure to read a directory as a file. -/
def directoryCode : UInt32 := 21

/-- What stands at a location on the disk. -/
def nodeAt? (l : Location) : IO (Option Node) := do
  match ← (IO.FS.readBinFile l.text).toBaseIO with
  | .ok bytes => pure (some (.ofBytes bytes.toList))
  | .error (.inappropriateType _ code _) =>
    pure (if code = directoryCode then some .directory else none)
  | .error _ => pure none

/-- The locations on the way of a path, and the one that it leads to. -/
def placesOn (cwd : Location) (p : Path) : List Location :=
  (List.range (p.names.length + 1)).map fun n =>
    Location.ofPath cwd { p with names := p.names.take n }

/-- The files with those on the way of a path. -/
def lookAt (cwd : Location) (files : Files) (path : String) : IO Files :=
  (placesOn cwd (.ofText path)).foldlM look files
where
  /-- The files with what stands at a location. -/
  look (files : Files) (l : Location) : IO Files := do
    if (files.get? l).isSome then pure files
    else
      match ← nodeAt? l with
      | some n => pure (files.set l n)
      | none => pure files

/-- A directory and its file of events. -/
def logPaths (directory : String) : List String := [directory, directory ++ "/" ++ Sink.fileName]

/-- The paths that the arguments of a call may name. -/
def pathsOf (args : List String) : List String :=
  Settings.fileName :: (args ++ args.filterMap fun a => (Command.splitValue a).2).flatMap logPaths

/-- The directory of the log that a call uses by its settings. -/
def logDirectory? (env : Environment) (files : Files) (args : List String) : Option Location :=
  match Call.readCommand env files args with
  | .error _ => none
  | .ok (chosen, _, _) =>
    match Call.loadSettings env files chosen with
    | .error _ => none
    | .ok settings => settings.logDirectory

/-- The files that a call may use. -/
def filesFor (env : Environment) (args : List String) : IO Files := do
  let files ← (env.directory.text :: pathsOf args).foldlM (lookAt env.directory) []
  match logDirectory? env files args with
  | none => pure files
  | some l => (logPaths l.text).foldlM (lookAt env.directory) files

/-- Writes what has come to a location since there were the files `old`. -/
def write (old : Files) (l : Location) (n : Node) : IO Unit := do
  match n with
  | .directory => if (old.get? l).isNone then IO.FS.createDirAll l.text
  | .file pieces =>
    let known := match old.get? l with
      | some (.file pieces) => pieces.length
      | _ => 0
    let added := (pieces.take (pieces.length - known)).reverse.flatten
    if added ≠ [] then
      let h ← IO.FS.Handle.mk l.text .append
      h.lock
      h.write added.toByteArray
      h.flush
      h.unlock

/-! ## Steps -/

/-- Prints what a session has printed, and writes what it has added to the files
`old`. -/
def publish (old : Files) (s : Session) : IO Unit := do
  let stdout ← IO.getStdout
  stdout.putStr s.out
  stdout.flush
  (← IO.getStderr).putStr s.err
  for (l, n) in s.files do
    try write old l n
    catch e => (← IO.getStderr).putStr (Session.warningLine s!"logging failed: {e}")

/-- Takes a step of a run. -/
def take {α : Type} (s : Session) (step : Run α) : IO (Except Stop α × Session) := do
  let (result, next) := step.run s
  publish s.files next
  pure (result, { next with out := "", err := "" })

/-- Ends a run, and gives its status. -/
def conclude (s : Session) (result : Except Stop Nat) : IO UInt32 := do
  let (finish, next) := s.finish result
  publish s.files next
  match finish with
  | .status code => pure code.toUInt32
  | .failure cause =>
    (← IO.getStderr).putStrLn cause.message
    pure 1

/-- Takes the last step of a run. -/
def takeLast (s : Session) (step : Run Nat) : IO UInt32 := do
  let (result, s) ← take s step
  conclude s result

/-- Answers the lines that someone types. -/
partial def converse (settings : Settings) (s : Session) : IO UInt32 := do
  let env ← environment []
  let (_, s) ← take s (Dialogue.prompt env)
  let line ← (← IO.getStdin).getLine
  if line = "" then conclude s (.ok 0)
  else
    let (result, s) ← take s (Dialogue.step env settings line.toList)
    match result with
    | .ok true => converse settings s
    | .ok false => conclude s (.ok 0)
    | .error stop => conclude s (.error stop)

/-- Does what a call asks for. -/
def serve (env : Environment) (s : Session) (settings : Settings) (request : Request) :
    IO UInt32 := do
  let withInput : IO UInt32 := do
    let input ← restOfInput (← IO.getStdin)
    takeLast s (Call.perform { env with input } settings request)
  match request with
  | .dialogue =>
    if env.isInteractive then
      let (_, s) ← take s (Dialogue.start env)
      converse settings s
    else withInput
  | .source .standardInput => withInput
  | _ => takeLast s (Call.perform env settings request)

end Calculator.Program

/-- Runs the program with its arguments. -/
def main (args : List String) : IO UInt32 := do
  let env ← Calculator.Program.environment []
  let files ← Calculator.Program.filesFor env args
  let (result, s) ← Calculator.Program.take (.start files) (Calculator.Call.prepare env args)
  match result with
  | .ok (settings, request) => Calculator.Program.serve env s settings request
  | .error stop => Calculator.Program.conclude s (.error stop)
