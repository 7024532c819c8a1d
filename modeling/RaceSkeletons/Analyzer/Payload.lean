import RaceSkeletons.Analyzer.Outcome
import RaceSkeletons.Text.Blank
import RaceSkeletons.Text.Quoted

/-!
# The verdict document

The analyzer prints one JSON object about the fragment it inspected. This
module holds its fields, what they mean as an outcome, and the ways in
which a text can fail to be such a document. The reader is in
`RaceSkeletons.Analyzer.PayloadReader`, the printer in
`RaceSkeletons.Analyzer.PayloadPrinter`.
-/

namespace RaceSkeletons

/-- The document the analyzer prints. -/
structure Payload where
  file : String := ""
  hasWrite : Bool := false
  lineNumber : Option Nat := none
  lineContent : Option String := none
  error : Option String := none
  deriving Repr, DecidableEq, Inhabited

/-- The greatest line number. -/
def maxLineNumber : Nat := Nat.pow 2 64 - 1

/-- What a document says about its fragment: an error that is not blank is a
failure, and an empty line is no line. -/
def Payload.toOutcome (p : Payload) : Outcome :=
  match p.error with
  | some message =>
    if Text.allBlank message then .analyzed p.hasWrite (p.lineContent.filter (· ≠ ""))
    else .failed (.reported (Text.trimmed message))
  | none => .analyzed p.hasWrite (p.lineContent.filter (· ≠ ""))

/-- A value that stands where another kind of value is expected. -/
inductive FoundValue where
  | boolean (value : Bool)
  | integer (value : Int)
  /-- A number with a fraction or an exponent, by its text. -/
  | floating (text : String)
  | string (value : String)
  | null
  | sequence
  | map
  deriving Repr, DecidableEq

def FoundValue.describe : FoundValue → String
  | .boolean value => "boolean `" ++ toString value ++ "`"
  | .integer value => "integer `" ++ toString value ++ "`"
  | .floating text => "floating point `" ++ text ++ "`"
  | .string value => "string " ++ Text.quoted value
  | .null => "null"
  | .sequence => "sequence"
  | .map => "map"

/-- What is wrong with a text that is no verdict document. -/
inductive PayloadFault where
  | endInValue
  | endInString
  | endInList
  | endInObject
  | expectedColon
  | expectedListEnd
  | expectedObjectEnd
  | expectedLiteral
  | expectedValue
  | invalidEscape
  | invalidNumber
  | numberOutOfRange
  | loneSurrogate
  | unfinishedSurrogate
  | controlCharacter
  | keyNotString
  | trailingComma
  | trailingCharacters
  | duplicateField (name : String)
  | wrongType (found : FoundValue) (expected : String)
  | wrongValue (found : FoundValue) (expected : String)
  deriving Repr, DecidableEq

def PayloadFault.describe : PayloadFault → String
  | .endInValue => "EOF while parsing a value"
  | .endInString => "EOF while parsing a string"
  | .endInList => "EOF while parsing a list"
  | .endInObject => "EOF while parsing an object"
  | .expectedColon => "expected `:`"
  | .expectedListEnd => "expected `,` or `]`"
  | .expectedObjectEnd => "expected `,` or `\x7d`"
  | .expectedLiteral => "expected ident"
  | .expectedValue => "expected value"
  | .invalidEscape => "invalid escape"
  | .invalidNumber => "invalid number"
  | .numberOutOfRange => "number out of range"
  | .loneSurrogate => "lone leading surrogate in hex escape"
  | .unfinishedSurrogate => "unexpected end of hex escape"
  | .controlCharacter => "control character (\\u0000-\\u001F) found while parsing a string"
  | .keyNotString => "key must be a string"
  | .trailingComma => "trailing comma"
  | .trailingCharacters => "trailing characters"
  | .duplicateField name => "duplicate field `" ++ name ++ "`"
  | .wrongType found expected =>
    "invalid type: " ++ found.describe ++ ", expected " ++ expected
  | .wrongValue found expected =>
    "invalid value: " ++ found.describe ++ ", expected " ++ expected

/-- A place in a text. Lines count from one, columns count bytes. -/
structure TextPosition where
  line : Nat
  column : Nat
  deriving Repr, DecidableEq

/-- A fault and where it was found. -/
structure PayloadError where
  fault : PayloadFault
  position : TextPosition
  deriving Repr, DecidableEq

def PayloadError.message (e : PayloadError) : String :=
  e.fault.describe ++ " at line " ++ toString e.position.line ++
    " column " ++ toString e.position.column

end RaceSkeletons
