import Calculator.Data.Shown
import Calculator.Event.Basic
import Calculator.Json.Reader
import Calculator.Json.Writer
import Calculator.Storage.Files
import Calculator.Text.Blank
import Calculator.Text.Lines
import Calculator.Text.Utf8

/-!
# Event sinks

A sink keeps events in one file of a directory, one line of JSON for each, added
at the end. Reading takes a bounded tail of the file, skips lines that are blank
or malformed, and returns the most recent events first. Files are read under a
lock or without one; the two ways differ only in what happens at impossible
positions and at a directory in the place of the file.
-/

namespace Calculator

/-- Whether files are locked while they are read and written. -/
inductive Locking where
  | locked
  | unlocked
deriving DecidableEq, Repr

/-- A directory for events, and how many bytes at the end of its file are read. -/
structure Sink where
  directory : Path
  tailBytes : Int
deriving DecidableEq, Repr

namespace Sink

/-- The tail that is read unless another size is chosen: two mebibytes. -/
def standardTail : Int := 2097152

/-- The name of the file of events. -/
def fileName : String := "events.ndjson"

/-- The path of the file of events. -/
def path (s : Sink) : Path := s.directory.child fileName

/-- The most events that are read at once. -/
def mostEvents : Int := 2000

/-- The sink of a directory, which is made at once. -/
def openAt (files : Files) (cwd : Location) (directory : Path) (tailBytes : Int) :
    Except Failure (Sink × Files) := do
  let files ← files.makeDirectory cwd directory
  pure (⟨directory, tailBytes⟩, files)

/-! ## Writing -/

/-- The line of an event: its fields in the order of their names. -/
def line (e : Event) : List Char := Json.compact e.datum.sorted ++ ['\n']

/-- Adds an event at the end of the file. An event that cannot be written leaves no
trace. -/
def write (files : Files) (cwd : Location) (s : Sink) (e : Event) : Except Failure Files := do
  if !e.datum.isWritable then throw .digitsWritten
  if Json.deepest < e.datum.depth then throw .jsonDepth
  let files ← files.makeDirectory cwd s.directory
  files.append s.path.text (Location.ofPath cwd s.path) (Text.Utf8.encode (line e))

/-! ## Reading -/

/-- The last `size` bytes of a file, without the line that they start in the
middle of. All of a file that is not longer. -/
def tail (size : Nat) (bytes : List UInt8) : List UInt8 :=
  if bytes.length ≤ size then bytes
  else
    let last := bytes.drop (bytes.length - size)
    if last.contains 10 then (last.dropWhile (· ≠ 10)).drop 1 else last

/-- The data of a line, none if it is malformed. -/
def parseLine (l : List Char) : Except Failure (Option Datum) :=
  match Json.read l with
  | .ok d => .ok (some d)
  | .error .malformed => .ok none
  | .error (.failure cause) => .error cause

/-- The data of the well-formed lines of a text. -/
def parseLines (s : List Char) : Except Failure (List Datum) :=
  ((Text.splitLines s).map Text.trim).filterMapM fun l =>
    if l = [] then pure none else parseLine l

/-- The data of the well-formed lines of bytes. -/
def parse (bytes : List UInt8) : Except Failure (List Datum) :=
  parseLines (Text.Utf8.decodeLossy bytes)

/-- The largest position in a file. -/
def largestPosition : Int := Int.pow 2 63 - 1

/-- What a tail of negative size gives, which starts behind the end of a file of
`length` bytes. -/
def readBehind (locking : Locking) (length : Nat) (size : Int) : Except Failure (List Datum) :=
  let isTooFar : Bool := largestPosition < length - size
  match locking with
  | .locked => .error (if isTooFar then .positionTooLarge else .invalidArgument)
  | .unlocked => if isTooFar then .error .offsetTooLarge else .ok []

/-- The data at the end of the file, oldest first. -/
def readAll (locking : Locking) (files : Files) (cwd : Location) (s : Sink) :
    Except Failure (List Datum) :=
  match files.get? (Location.ofPath cwd s.path), locking with
  | none, _ => .ok []
  | some .directory, .locked =>
    if s.tailBytes < 0 then readBehind .locked 0 s.tailBytes else .error (.isDirectory none)
  | some .directory, .unlocked => .error (.isDirectory (some s.path.text))
  | some (.file pieces), locking =>
    let bytes := pieces.reverse.flatten
    if 0 ≤ s.tailBytes then parse (tail s.tailBytes.toNat bytes)
    else readBehind locking bytes.length s.tailBytes

/-- Whether data has a text under a name. Only records can be asked. -/
def hasText (name wanted : String) : Datum → Except Failure Bool
  | .record fields =>
    match Fields.get? fields name with
    | some (.text s) => .ok (s = wanted)
    | _ => .ok false
  | d => .error (.noAttribute d.typeName "get")

/-- The data with a text under a name. No text, or an empty one, keeps all. -/
def filterBy (name : String) (wanted : Option String) (events : List Datum) :
    Except Failure (List Datum) :=
  match wanted with
  | none => .ok events
  | some w => if w = "" then .ok events else events.filterM (hasText name w)

/-- The first `n` of a list; for a negative number, all but so many at the end. -/
def firstOf {α : Type} (n : Int) (xs : List α) : List α :=
  if 0 ≤ n then xs.take n.toNat else xs.take (xs.length - (-n).toNat)

/-- The events of a sink, most recent first, by level and type where these are
given, and at most so many. -/
def read (locking : Locking) (files : Files) (cwd : Location) (s : Sink)
    (level type : Option String) (limit : Int) : Except Failure (List Datum) := do
  let events ← readAll locking files cwd s
  let events ← filterBy "level" level events
  let events ← filterBy "event_type" type events
  pure (firstOf (min limit mostEvents) events.reverse)

end Sink

end Calculator
