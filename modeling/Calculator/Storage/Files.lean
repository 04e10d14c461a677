import Calculator.Failure
import Calculator.Storage.Path

/-!
# Files

A tree of directories and files, kept as what stands at each known location.
Operations that fail name the path they were given.
-/

namespace Calculator

/-- What stands at a location: a directory, or a file as the pieces of which it was
put together, the last piece first. -/
inductive Node where
  | directory
  | file (pieces : List (List UInt8))
deriving DecidableEq, Repr

namespace Node

/-- A file with the given bytes. -/
def ofBytes (bytes : List UInt8) : Node := file [bytes]

/-- The bytes of a file. -/
def bytes? : Node → Option (List UInt8)
  | directory => none
  | file pieces => some pieces.reverse.flatten

@[simp] theorem bytes?_ofBytes (bytes : List UInt8) : (ofBytes bytes).bytes? = some bytes := by
  simp [ofBytes, bytes?]

/-- A further piece comes behind the bytes of a file. -/
theorem bytes?_file_cons (piece : List UInt8) (pieces : List (List UInt8)) :
    (file (piece :: pieces)).bytes? = some (pieces.reverse.flatten ++ piece) := by
  simp [bytes?]

end Node

/-- The nodes of a tree of files. -/
abbrev Files := List (Location × Node)

namespace Files

/-- The node at a location. The root is a directory. -/
def get? (files : Files) (l : Location) : Option Node :=
  if l = [] then some .directory else files.lookup l

/-- Whether there is a directory at a location. -/
def isDirectory (files : Files) (l : Location) : Bool := files.get? l = some .directory

/-- The bytes of the file at a location. -/
def bytes? (files : Files) (l : Location) : Option (List UInt8) := (files.get? l).bind Node.bytes?

/-- Whether there is a file at a location. -/
def isFile (files : Files) (l : Location) : Bool :=
  match files.get? l with
  | some (.file _) => true
  | _ => false

/-- Puts a node at a location. -/
def set : Files → Location → Node → Files
  | [], l, n => [(l, n)]
  | (m, old) :: rest, l, n => if m = l then (l, n) :: rest else (m, old) :: set rest l n

/-- The locations on the way to a location, from below the root to itself. -/
def wayTo (l : Location) : List Location := (List.range l.length).map fun i => l.take (i + 1)

/-- Makes directories of a location and of those on the way to it, as far as
nothing is there. -/
def addDirectories (files : Files) (l : Location) : Files :=
  (wayTo l).foldl (fun files m => if (files.get? m).isSome then files else files.set m .directory)
    files

/-- Adds bytes at the end of a file, which is made if there is none. -/
def append (files : Files) (path : String) (l : Location) (bytes : List UInt8) :
    Except Failure Files :=
  match files.get? l with
  | some .directory => .error (.isDirectory (some path))
  | some (.file pieces) => .ok (files.set l (.file (bytes :: pieces)))
  | none => .ok (files.set l (.ofBytes bytes))

/-- The most bytes that a name can have. -/
def longestName : Nat := 255

/-- The most bytes that a path can have. -/
def longestPath : Nat := 4095

/-- The location of a name in a directory. Nothing need stand there yet; `path` is the
path as failures name it. -/
def enter (files : Files) (path : String) (l : Location) (name : String) :
    Except Failure Location :=
  match files.get? l with
  | some .directory =>
    if name = "" ∨ name = "." then .ok l
    else if longestName < name.utf8ByteSize then .error (.nameTooLong path)
    else .ok (l.step name)
  | some (.file _) => .error (.notDirectory path)
  | none => .error (.missingFile path)

/-- The location that a path leads to. Each name but the last must be that of a
directory. The empty path leads nowhere. -/
def locate (files : Files) (cwd : Location) (path : String) : Except Failure Location :=
  if '\x00' ∈ path.toList then .error .zeroByte
  else if path = "" then .error (.missingFile path)
  else if longestPath < path.utf8ByteSize then .error (.nameTooLong path)
  else
    (Path.splitNames path.toList).foldlM (files.enter path)
      (if path.startsWith "/" then [] else cwd)

/-- The node that a path leads to. -/
def find (files : Files) (cwd : Location) (path : String) : Except Failure Node := do
  match files.get? (← files.locate cwd path) with
  | some n => pure n
  | none => throw (.missingFile path)

/-- The bytes of the file that a path leads to. -/
def read (files : Files) (cwd : Location) (path : String) : Except Failure (List UInt8) := do
  match (← files.find cwd path).bytes? with
  | some bytes => pure bytes
  | none => throw (.isDirectory (some path))

/-- Makes a directory inside one that is there. It may be there already, but no file
may be in its place. -/
def makeOne (files : Files) (cwd : Location) (path : String) : Except Failure Files := do
  let l ← files.locate cwd path
  match files.get? l with
  | some .directory => pure files
  | some (.file _) => throw (.existingFile path)
  | none => pure (files.set l .directory)

/-- Makes a directory, given by its names, last name first, and where the directory it
belongs to is missing, makes that first. -/
def makeAll (files : Files) (cwd : Location) (root : String) :
    List String → Except Failure Files
  | [] => .ok files
  | name :: before =>
    let path := Path.text ⟨root, (name :: before).reverse⟩
    match files.makeOne cwd path with
    | .error (.missingFile _) => do (← makeAll files cwd root before).makeOne cwd path
    | result => result

/-- Makes a directory with those on the way to it. -/
def makeDirectory (files : Files) (cwd : Location) (p : Path) : Except Failure Files :=
  files.makeAll cwd p.root p.names.reverse

/-- Removes a location and everything below it. -/
def remove (files : Files) (l : Location) : Files :=
  files.filter fun e => !l.isPrefixOf e.1

end Files

end Calculator
