import Calculator.Text.Quoted

/-!
# Failures

The ways in which a request can fail that are not diagnostics of an expression.
Each constructor is one cause; `Failure.kind` sorts the causes into the kinds
that callers tell apart, and `Failure.message` gives the wording. Arithmetic
failures and wrong values inside an expression are reported as diagnostics;
`Failure.isContained` says which kinds those are.
-/

namespace Calculator

/-- The most decimal digits with which an integer is read or written. -/
def mostDigits : Nat := 4300

/-- The kinds of failure that callers tell apart. -/
inductive FailureKind where
  | value
  | type
  | key
  | index
  | attribute
  | arithmetic
  | overflow
  | zeroDivision
  | missingFile
  | existingFile
  | isDirectory
  | notDirectory
  | system
  | encoding
  | textEncoding
  | nesting
  | document
  | schema
  /-- A kind outside this list, by its name. -/
  | other (name : String)
deriving DecidableEq, Repr

/-- Causes of failure. -/
inductive Failure where
  /-- A floating-point division by zero. -/
  | floatDivision
  /-- An integer division by zero. -/
  | intDivision
  /-- A fraction with the given numerator and a zero denominator. -/
  | ratioDivision (numerator : Int)
  /-- Zero raised to a negative power. -/
  | zeroPower
  /-- A power above the largest double. -/
  | powerRange
  /-- A complex power above the largest double. -/
  | complexPowerRange
  /-- An argument outside the domain of a function. -/
  | functionDomain
  /-- A function value above the largest double. -/
  | functionRange
  /-- An integer above the largest double. -/
  | intTooLarge
  /-- A quotient of integers above the largest double. -/
  | quotientTooLarge
  /-- A text of an integer with more digits than are read. -/
  | digitsRead (count : Nat)
  /-- An integer with more digits than are written. -/
  | digitsWritten
  /-- Operands of kinds that an operation has no meaning for. -/
  | operandKinds (operation left right : String)
  /-- A sequence of one kind joined with a value of another. -/
  | joinedKinds (kind other : String)
  /-- A sequence repeated by a value that is no integer. -/
  | repeatKind (kind : String)
  /-- A sequence repeated more often than a machine word counts. -/
  | repeatCount
  /-- A repeated text longer than a machine word counts. -/
  | repeatLength
  /-- A value without a negative. -/
  | negatedKind (kind : String)
  /-- A value where a real number is expected. -/
  | notReal (kind : String)
  /-- A value that is no part of a complex number. -/
  | notComplex (kind : String)
  /-- A text as the first of two parts of a complex number. -/
  | complexText
  /-- A text that is no floating-point number. -/
  | notFloat (text : String)
  /-- A text that is no integer in the given base. -/
  | notInt (base : Nat) (text : String)
  /-- A text that is no fraction. -/
  | notRatio (text : String)
  /-- A failure of a supplied function, of its own kind and wording. -/
  | raised (kind : FailureKind) (text : String)
  /-- A name of no token kind. -/
  | unknownTokenKind (name : String)
  /-- A function name that is not registered. -/
  | unknownFunction (name : String)
  /-- A constant name that is not registered. -/
  | unknownConstant (name : String)
  /-- A nesting limit below one. -/
  | depthNotPositive (depth : Int)
  /-- A nesting limit above the largest supported. -/
  | depthTooLarge (largest depth : Int)
  /-- A replacement field with a name. -/
  | formatKey (name : String)
  /-- A replacement field with a number for which there is no argument. -/
  | formatIndex (index : Nat)
  /-- A number under which a record holds nothing. -/
  | missingNumber (n : Nat)
  /-- A position beyond the end of a sequence of the given kind. -/
  | itemIndex (kind : String)
  /-- A number that is no character. -/
  | characterRange (text : String)
  /-- A settings file whose content is refused. -/
  | settings (path complaint : String)
  /-- Keys of unlike types, which have no order. -/
  | unordered (left right : String)
  /-- A document outside the grammar of its language. -/
  | malformedDocument
  /-- A wrong value inside a document. -/
  | malformedScalar (complaint : String)
  /-- A JSON collection of a kind inside too many others. -/
  | jsonNesting (kind : String)
  /-- Data nested too deeply to be written as JSON. -/
  | jsonDepth
  /-- Points at two positions of a text, or at one, that have no bytes. -/
  | notEncodable (unit first last : Nat)
  /-- An event that breaks the event schema. -/
  | invalidEvent
  /-- Bytes that are not UTF-8. -/
  | notUtf8 (complaint : String)
  /-- A file that is not there. -/
  | missingFile (path : String)
  /-- A file where a directory is to be made. -/
  | existingFile (path : String)
  /-- A directory where a file is expected, with the path if it is reported. -/
  | isDirectory (path : Option String)
  /-- A path through a file as if it were a directory. -/
  | notDirectory (path : String)
  /-- A path, or a name in it, that is longer than any can be. -/
  | nameTooLong (path : String)
  /-- A text that is too long to be kept. -/
  | noMemory
  /-- An impossible position in a file. -/
  | invalidArgument
  /-- A position in a file that no number of the machine can give. -/
  | positionTooLarge
  /-- A position in a buffered file that no number of the machine can give. -/
  | offsetTooLarge
  /-- A path with a zero byte. -/
  | zeroByte
  /-- A value without the operation asked of it. -/
  | noAttribute (type name : String)
  /-- A kind of values without the attribute asked of it. -/
  | noKindAttribute (type name : String)
  /-- Moments of kinds that have no common order. -/
  | unorderedMoments (complaint : String)
deriving DecidableEq, Repr

namespace Failure

/-- The kind of a failure. -/
def kind : Failure → FailureKind
  | floatDivision | intDivision | ratioDivision _ | zeroPower => .zeroDivision
  | powerRange | complexPowerRange | functionRange | intTooLarge | quotientTooLarge => .overflow
  | characterRange _ | positionTooLarge => .overflow
  | functionDomain | notFloat _ | notInt _ _ | notRatio _ => .value
  | digitsRead _ | digitsWritten => .value
  | operandKinds _ _ _ | joinedKinds _ _ | repeatKind _ | negatedKind _ => .type
  | notReal _ | notComplex _ | complexText => .type
  | repeatCount | repeatLength => .overflow
  | raised kind _ => kind
  | unknownTokenKind _ => .value
  | unknownFunction _ | unknownConstant _ | formatKey _ | missingNumber _ => .key
  | depthNotPositive _ | depthTooLarge _ _ => .value
  | formatIndex _ | itemIndex _ => .index
  | noAttribute _ _ | noKindAttribute _ _ => .attribute
  | settings _ _ | malformedScalar _ | zeroByte | offsetTooLarge => .value
  | unordered _ _ | unorderedMoments _ => .type
  | jsonNesting _ | jsonDepth => .nesting
  | notEncodable _ _ _ => .textEncoding
  | malformedDocument => .document
  | invalidEvent => .schema
  | notUtf8 _ => .encoding
  | missingFile _ => .missingFile
  | existingFile _ => .existingFile
  | isDirectory _ => .isDirectory
  | notDirectory _ => .notDirectory
  | nameTooLong _ | invalidArgument => .system
  | noMemory => .other "MemoryError"

/-- Why a file cannot be used, without the path and the number of the failure. -/
def fileReason? : Failure → Option String
  | missingFile _ => some "No such file or directory"
  | existingFile _ => some "File exists"
  | isDirectory _ => some "Is a directory"
  | notDirectory _ => some "Not a directory"
  | nameTooLong _ => some "File name too long"
  | _ => none

/-- The most characters of a quoted text that a message about integers shows. -/
def longestQuotation : Nat := 200

/-- What is said of integers whose decimal text is too long. -/
def digitLimit (detail : String) : String :=
  s!"Exceeds the limit ({mostDigits} digits) for integer string conversion" ++ detail ++
    "; use sys.set_int_max_str_digits() to increase the limit"

/-- The wording of a failure. -/
def message : Failure → String
  | floatDivision => "float division by zero"
  | intDivision => "division by zero"
  | ratioDivision n => s!"Fraction({n}, 0)"
  | zeroPower => "0.0 cannot be raised to a negative power"
  | powerRange => "(34, 'Numerical result out of range')"
  | complexPowerRange => "complex exponentiation"
  | functionDomain => "math domain error"
  | functionRange => "math range error"
  | intTooLarge => "int too large to convert to float"
  | quotientTooLarge => "integer division result too large for a float"
  | notFloat text => "could not convert string to float: " ++ Text.quoted text
  | notInt base text =>
    s!"invalid literal for int() with base {base}: " ++
      String.ofList ((Text.quoted text).toList.take longestQuotation)
  | digitsRead count => digitLimit s!": value has {count} digits"
  | digitsWritten => digitLimit ""
  | operandKinds operation left right =>
    s!"unsupported operand type(s) for {operation}: '{left}' and '{right}'"
  | joinedKinds kind other => s!"can only concatenate {kind} (not \"{other}\") to {kind}"
  | repeatKind kind => s!"can't multiply sequence by non-int of type '{kind}'"
  | repeatCount => "cannot fit 'int' into an index-sized integer"
  | repeatLength => "repeated string is too long"
  | negatedKind kind => s!"bad operand type for unary -: '{kind}'"
  | notReal kind => s!"must be real number, not {kind}"
  | notComplex kind => s!"complex() first argument must be a string or a number, not '{kind}'"
  | complexText => "complex() can't take second arg if first is a string"
  | notRatio text => "Invalid literal for Fraction: " ++ Text.quoted text
  | raised .key text => Text.quoted text
  | raised _ text => text
  | unknownTokenKind name => Text.quoted name ++ " is not a valid TokenKind"
  | unknownFunction name => Text.quoted ("Unknown function: " ++ Text.quoted name)
  | unknownConstant name => Text.quoted ("Unknown constant: " ++ Text.quoted name)
  | depthNotPositive depth => s!"max_depth must be positive, got {depth}"
  | depthTooLarge largest depth =>
    s!"max_depth must be at most {largest} for the current recursion limit, got {depth}"
  | formatKey name => Text.quoted name
  | formatIndex index =>
    s!"Replacement index {index} out of range for positional args tuple"
  | missingNumber n => toString n
  | itemIndex kind => kind ++ " index out of range"
  | noAttribute type name =>
    s!"'{type}' object has no attribute '{name}'"
  | noKindAttribute type name => s!"type object '{type}' has no attribute '{name}'"
  | unorderedMoments complaint => complaint
  | jsonNesting kind =>
    s!"maximum recursion depth exceeded while decoding a JSON {kind} from a unicode string"
  | jsonDepth => "maximum recursion depth exceeded while encoding a JSON object"
  | notEncodable unit first last =>
    let what :=
      if first = last then
        "character '\\u" ++ String.ofList (Text.hexPadded 4 unit) ++ s!"' in position {first}"
      else s!"characters in position {first}-{last}"
    s!"'utf-8' codec can't encode {what}: surrogates not allowed"
  | characterRange text => text
  | settings path complaint => path ++ ": " ++ complaint
  | unordered left right =>
    s!"'<' not supported between instances of '{left}' and '{right}'"
  | malformedScalar complaint => complaint
  | notUtf8 complaint => complaint
  | malformedDocument | invalidEvent | noMemory => ""
  | missingFile path => "[Errno 2] No such file or directory: " ++ Text.quoted path
  | existingFile path => "[Errno 17] File exists: " ++ Text.quoted path
  | isDirectory none => "[Errno 21] Is a directory"
  | isDirectory (some path) => "[Errno 21] Is a directory: " ++ Text.quoted path
  | notDirectory path => "[Errno 20] Not a directory: " ++ Text.quoted path
  | nameTooLong path => "[Errno 36] File name too long: " ++ Text.quoted path
  | invalidArgument => "[Errno 22] Invalid argument"
  | positionTooLarge => "Python int too large to convert to C long"
  | offsetTooLarge => "cannot fit 'int' into an offset-sized integer"
  | zeroByte => "embedded null byte"

/-- Failures of arithmetic and wrong values, which inside an expression are
reported at the operation that caused them. -/
def isContained (f : Failure) : Bool :=
  match f.kind with
  | .value | .arithmetic | .overflow | .zeroDivision => true
  | _ => false

end Failure

end Calculator
