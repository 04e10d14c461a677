import Calculator.Evaluation
import Calculator.Event.Sink
import Calculator.Source.Supply
import Calculator.Storage.Lookup
import Calculator.Yaml.Value

/-!
# Settings

What a settings file can change: the nesting limit, the directory of the event
log and how it is written and read, and the template for numbers. A file is a YAML
mapping from the names of settings to values of their types; it is refused if a
name is unknown, a value has another type, or the nesting limit is out of range.

A limit of the model: texts of settings hold whole characters. What a document has a
half of a pair of code units for is mended when the settings are taken from it.
-/

namespace Calculator

/-- The settings of a session. -/
structure Settings where
  depth : DepthLimit
  logDirectory : Option Location
  synchronous : Bool
  tailBytes : Int
  template : String
deriving DecidableEq, Repr

/-- The types of settings. -/
inductive SettingType where
  | int
  | optionalText
  | bool
  | text
deriving DecidableEq, Repr

/-- The wording of a type. -/
def SettingType.wording : SettingType → String
  | int => "int"
  | optionalText => "str, NoneType"
  | bool => "bool"
  | text => "str"

/-- Whether a value has a type. Truth values are no integers. -/
def SettingType.fits : SettingType → Yaml.Value → Bool
  | int, .int _ => true
  | optionalText, .text _ | optionalText, .torn _ => true
  | optionalText, .null => true
  | bool, .bool _ => true
  | text, .text _ | text, .torn _ => true
  | _, _ => false

namespace Settings

/-- The settings without a file. -/
def standard : Settings := ⟨.standard, none, false, Sink.standardTail, "\x7b:.10g\x7d"⟩

/-- The name of a settings file in a directory. -/
def fileName : String := "calceval.yaml"

/-- The names and types of settings. -/
def types : List (String × SettingType) :=
  [("max_depth", .int), ("log_dir", .optionalText), ("logging_fsync", .bool),
   ("logging_tail_bytes", .int), ("number_format", .text)]

/-- The type of the setting that a key names. -/
def typeOf? : Yaml.Value → Option SettingType
  | .text name => types.lookup name
  | _ => none

/-! ## Unknown keys -/

/-- Why the second of two keys cannot be put before or behind the first. -/
def unorderable? (a b : Yaml.Value) : Option Failure :=
  match a, b with
  | .moment s, .moment t => (s.unordered? t).map .unorderedMoments
  | .bytes _, .bytes _ => none
  | _, _ =>
    if (a.points?.isSome && b.points?.isSome) || (a.number?.isSome && b.number?.isSome) then none
    else some (.unordered b.typeName a.typeName)

/-- The order of numbers by value. -/
def numberUpTo : Number → Number → Bool
  | .int a, .int b => a ≤ b
  | .float x, .float y => x ≤ y
  | .int a, .float y =>
    match Yaml.Value.exactFloat? y with
    | some q => (a : Rat) ≤ q
    | none => 0 < y
  | .float x, .int b =>
    match Yaml.Value.exactFloat? x with
    | some q => q ≤ (b : Rat)
    | none => x < 0
  | _, _ => false

/-- Whether numbers in order do not come behind others, element by element. -/
def codesUpTo : List Nat → List Nat → Bool
  | [], _ => true
  | _ :: _, [] => false
  | a :: as, b :: bs => a < b || (a = b && codesUpTo as bs)

/-- The order of keys that can be put in order. -/
def keyUpTo (a b : Yaml.Value) : Bool :=
  match a, b with
  | .moment s, .moment t => s.instant ≤ t.instant
  | .bytes s, .bytes t => codesUpTo (s.map UInt8.toNat) (t.map UInt8.toNat)
  | _, _ =>
    match a.number?, b.number?, a.points?, b.points? with
    | some m, some n, _, _ => numberUpTo m n
    | _, _, some s, some t => codesUpTo (s.map Text.Point.code) (t.map Text.Point.code)
    | _, _, _, _ => false

/-- The failure of the first two neighbours that cannot be put in order. -/
def firstUnorderable? : List Yaml.Value → Option Failure
  | a :: b :: rest => unorderable? a b <|> firstUnorderable? (b :: rest)
  | _ => none

/-- Keys in order. -/
def sortKeys (keys : List Yaml.Value) : Except Failure (List Yaml.Value) :=
  match firstUnorderable? keys with
  | some cause => .error cause
  | none => .ok (keys.mergeSort keyUpTo)

/-! ## Reading settings -/

/-- The entries of the mapping that a document is. A document without content counts
as an empty one. -/
def entriesOf (path : String) (v : Yaml.Value) : Except Failure (List (Yaml.Value × Yaml.Value)) :=
  if v.isTruthy then
    match v with
    | .mapping entries => .ok entries
    | _ => .error (.settings path "expected a mapping at top level")
  else .ok []

/-- Refuses keys that name no setting. -/
def checkKeys (path : String) (entries : List (Yaml.Value × Yaml.Value)) : Except Failure Unit := do
  let unknown := (entries.map (·.1)).filter fun k => (typeOf? k).isNone
  if unknown ≠ [] then
    let keys ← sortKeys unknown
    let shown ← (Yaml.Value.list keys).written
    throw (.settings path s!"unknown config keys: {shown}")

/-- Refuses a value of another type than its key has. -/
def checkType (path : String) (e : Yaml.Value × Yaml.Value) : Except Failure Unit :=
  match typeOf? e.1 with
  | none => .ok ()
  | some type =>
    if type.fits e.2 then .ok ()
    else do
      let key ← e.1.written
      let value ← e.2.written
      throw (.settings path s!"{key} must be {type.wording}, got {value}")

/-- The value of a setting. -/
def value? (entries : List (Yaml.Value × Yaml.Value)) (name : String) : Option Yaml.Value :=
  (entries.find? fun e => Yaml.Value.sameKey e.1 (.text name)).map (·.2)

/-- The nesting limit, which must be in range. -/
def depthOf (path : String) (entries : List (Yaml.Value × Yaml.Value)) :
    Except Failure DepthLimit :=
  match value? entries "max_depth" with
  | some (.int n) =>
    if n < 1 then .error (.settings path "'max_depth' must be positive")
    else match DepthLimit.ofInt n with
      | .ok limit => .ok limit
      | .error _ => .error (.settings path s!"'max_depth' must be at most {DepthLimit.largest}")
  | _ => .ok standard.depth

/-- The directory that the points of a text lead to, seen from the directory of the
settings file. -/
def directoryOf (cwd : Location) (file : Path) (s : List Text.Point) :
    Except Failure Location :=
  match file.parent.obstacle? s with
  | some cause => .error cause
  | none => .ok (Location.ofPath cwd (file.parent.join (Path.ofText (Text.mendedText s))))

/-- The directory of the log. -/
def logDirectoryOf (cwd : Location) (file : Path) (entries : List (Yaml.Value × Yaml.Value)) :
    Except Failure (Option Location) :=
  match (value? entries "log_dir").bind Yaml.Value.points? with
  | some s => some <$> directoryOf cwd file s
  | none => .ok none

/-- The settings that the value of a document gives. Of a template with halves of pairs
of code units each half is mended, since the model prints whole characters only. -/
def ofValue (cwd : Location) (file : Path) (v : Yaml.Value) : Except Failure Settings := do
  let path := file.text
  let entries ← entriesOf path v
  checkKeys path entries
  entries.forM (checkType path)
  let depth ← depthOf path entries
  let logDirectory ← logDirectoryOf cwd file entries
  let synchronous := match value? entries "logging_fsync" with
    | some (.bool b) => b
    | _ => standard.synchronous
  let tailBytes := match value? entries "logging_tail_bytes" with
    | some (.int n) => n
    | _ => standard.tailBytes
  let template := match value? entries "number_format" with
    | some (.text s) => s
    | some (.torn s) => Text.mendedText s
    | _ => standard.template
  pure ⟨depth, logDirectory, synchronous, tailBytes, template⟩

/-- The settings of a file. -/
def load (files : Files) (cwd : Location) (file : Path) : Except Failure Settings := do
  let bytes ← files.read cwd file.text
  let s ← sourceOfBytes bytes
  let v ← Yaml.read s
  ofValue cwd file v

/-- The settings of a directory: those of its file, if it has one. -/
def loadFrom (files : Files) (cwd : Location) (directory : Path) : Except Failure Settings :=
  let file := directory.child fileName
  if (files.get? (Location.ofPath cwd file)).isSome then load files cwd file else .ok standard

end Settings

end Calculator
