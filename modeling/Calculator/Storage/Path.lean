/-!
# Paths

A path is written as names between slashes. `Path.ofText` drops empty names and
single dots; what is left is the path as messages show it. A path leads from a
working directory to a location, which is a list of names from the root with no
step up in it.
-/

namespace Calculator

/-- A path: the slashes it starts with, and its names. -/
structure Path where
  root : String
  names : List String
deriving DecidableEq, Repr

namespace Path

/-- Names between slashes. -/
def splitNames (s : List Char) : List String :=
  go [] s
where
  /-- The names after the characters `current`, reversed, of the first name. -/
  go (current : List Char) : List Char → List String
    | [] => [String.ofList current.reverse]
    | c :: s =>
      if c = '/' then String.ofList current.reverse :: go [] s else go (c :: current) s

/-- The path that a text writes. Exactly two slashes at the start are kept. -/
def ofText (s : String) : Path :=
  let slashes := (s.toList.takeWhile (· = '/')).length
  let root := if slashes = 0 then "" else if slashes = 2 then "//" else "/"
  ⟨root, (splitNames s.toList).filter fun n => n ≠ "" && n ≠ "."⟩

/-- The text of a path. -/
def text (p : Path) : String :=
  if p.root = "" ∧ p.names = [] then "." else p.root ++ "/".intercalate p.names

/-- The path without its last name. -/
def parent (p : Path) : Path := { p with names := p.names.dropLast }

/-- A path seen from another one. A path from the root stays itself. -/
def join (p q : Path) : Path := if q.root = "" then { p with names := p.names ++ q.names } else q

/-- The path of a name inside a directory. -/
def child (p : Path) (name : String) : Path := { p with names := p.names ++ [name] }

end Path

/-- A place in the tree of files: names from the root. -/
abbrev Location := List String

namespace Location

/-- One step along a path; two dots lead up. -/
def step (l : Location) (name : String) : Location :=
  if name = ".." then l.dropLast else l ++ [name]

/-- The text of a location. -/
def text (l : Location) : String := "/" ++ "/".intercalate l

/-- The location of a path seen from a working directory. -/
def ofPath (cwd : Location) (p : Path) : Location :=
  p.names.foldl step (if p.root = "" then cwd else [])

end Location

end Calculator
