import Calculator.Command.Similar
import Calculator.Text.Quoted

/-!
# Arguments

Options start with a dash and have a name; some take a value, which stands behind
an equals sign or is the next argument. Two dashes alone end the options. What is
no option is kept in order. `readArguments` separates the two, and refuses options
that are not known, lack their value, or have one that they do not take.
-/

namespace Calculator.Command

/-- An option: its name, and whether it takes a value. -/
structure Switch where
  name : String
  takesValue : Bool
deriving DecidableEq, Repr

/-- How options are told from other arguments. -/
structure Manner where
  /-- Whether options may stand behind other arguments. -/
  anywhere : Bool
  /-- Whether unknown options are other arguments. -/
  keepsUnknown : Bool
deriving DecidableEq, Repr

/-! ## Complaints -/

/-- What can be wrong with arguments. -/
inductive Complaint where
  /-- An option that is not known, with known ones like it. -/
  | unknownSwitch (name : String) (likely : List String)
  /-- An option at the end that lacks its value. -/
  | missingValue (name : String)
  /-- A value for an option that takes none. -/
  | unwantedValue (name : String)
  /-- No command. -/
  | missingCommand
  /-- A command that is not known, with known ones like it. -/
  | unknownCommand (name : String) (likely : List String)
  /-- A required argument that is not there. -/
  | missingArgument (name : String)
  /-- A value that does not suit its parameter. -/
  | invalidValue (parameter reason : String)
  /-- Arguments that nothing takes. -/
  | extraArguments (arguments : List String)
deriving DecidableEq, Repr

namespace Complaint

/-- The names that may have been meant, as an addition to a message. -/
def suggestion (likely : List String) : String :=
  match likely with
  | [] => ""
  | [name] => s!" Did you mean {Text.quoted name}?"
  | names => " (Did you mean one of: " ++ ", ".intercalate (names.map Text.quoted) ++ "?)"

/-- The wording of a complaint. -/
def message : Complaint → String
  | unknownSwitch name likely =>
    s!"No such option {Text.quoted name}." ++ suggestion likely
  | missingValue name => s!"Option {Text.quoted name} requires an argument."
  | unwantedValue name => s!"Option {Text.quoted name} does not take a value."
  | missingCommand => "Missing command."
  | unknownCommand name likely =>
    s!"No such command {Text.quoted name}." ++ suggestion likely
  | missingArgument name => s!"Missing argument '{name}'."
  | invalidValue parameter reason => s!"Invalid value for '{parameter}': {reason}"
  | extraArguments [a] => s!"Got unexpected extra argument ({a})"
  | extraArguments as => "Got unexpected extra arguments (" ++ " ".intercalate as ++ ")"

/-- Whether the usage is shown with a complaint. -/
def showsUsage : Complaint → Bool
  | missingValue _ | unwantedValue _ => false
  | _ => true

end Complaint

/-! ## Reading arguments -/

/-- Arguments told apart: the options with their values, and the others. -/
structure Arguments where
  given : List (String × Option String)
  others : List String
deriving DecidableEq, Repr

namespace Arguments

/-- The value that was last given to an option. -/
def last? (a : Arguments) (name : String) : Option String := (a.given.reverse.lookup name).join

/-- Whether an option was given. -/
def has (a : Arguments) (name : String) : Bool := (a.given.lookup name).isSome

/-- The options given, each once, in the order in which they first came. -/
def names (a : Arguments) : List String := (a.given.map (·.1)).eraseDups

end Arguments

/-- What a single argument turns out to be. -/
inductive Shape where
  | other
  | flag (name : String)
  | valued (name : String) (value : Option String)
deriving DecidableEq, Repr

/-- A dash and at least one more character. -/
def looksLikeSwitch (a : String) : Bool :=
  match a.toList with
  | '-' :: _ :: _ => true
  | _ => false

/-- The name in an argument, and the value behind an equals sign. -/
def splitValue (a : String) : String × Option String :=
  let name := a.toList.takeWhile (· ≠ '=')
  match a.toList.drop name.length with
  | [] => (a, none)
  | _ :: value => (String.ofList name, some (String.ofList value))

/-- The complaint about an option that is not known. With a single dash each
character counts as an option of its own. -/
def unknown (switches : List Switch) (a name : String) : Complaint :=
  match a.toList with
  | '-' :: '-' :: _ => .unknownSwitch name (similar name (switches.map (·.name)))
  | s => .unknownSwitch (String.ofList (s.take 2)) []

/-- What an argument that looks like an option is. -/
def readSwitch (manner : Manner) (switches : List Switch) (a : String) :
    Except Complaint Shape :=
  let (name, value) := splitValue a
  match switches.find? (·.name = name) with
  | some s =>
    if s.takesValue then .ok (.valued name value)
    else match value with
      | none => .ok (.flag name)
      | some _ => .error (.unwantedValue name)
  | none => if manner.keepsUnknown then .ok .other else .error (unknown switches a name)

/-- The options and the other arguments among arguments. -/
def readArguments (manner : Manner) (switches : List Switch) :
    List String → Except Complaint Arguments
  | [] => .ok ⟨[], []⟩
  | a :: rest =>
    if a = "--" then .ok ⟨[], rest⟩
    else if looksLikeSwitch a then do
      match ← readSwitch manner switches a with
      | .other =>
        let r ← readArguments manner switches rest
        pure { r with others := a :: r.others }
      | .flag name =>
        let r ← readArguments manner switches rest
        pure { r with given := (name, none) :: r.given }
      | .valued name (some value) =>
        let r ← readArguments manner switches rest
        pure { r with given := (name, some value) :: r.given }
      | .valued name none =>
        match rest with
        | [] => .error (.missingValue name)
        | value :: rest =>
          let r ← readArguments manner switches rest
          pure { r with given := (name, some value) :: r.given }
    else if manner.anywhere then do
      let r ← readArguments manner switches rest
      pure { r with others := a :: r.others }
    else .ok ⟨[], a :: rest⟩

end Calculator.Command
