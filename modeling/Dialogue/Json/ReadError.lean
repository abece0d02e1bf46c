import Dialogue.Json.Basic
import Dialogue.Number.Written
import Dialogue.Text.Place
import Dialogue.Text.Quoted
/-!
# Why data cannot be read from JSON

Either the text is no JSON text, or its data is not what was expected. Each cause has its wording.
-/

namespace Dialogue.Json

/-- Why a text is no JSON text. -/
inductive Fault where
  | endInList
  | endInObject
  | endInText
  | endInValue
  | noColon
  | noListComma
  | noObjectComma
  /-- A word that is none of the three that JSON has. -/
  | strayWord
  | noValue
  | badEscape
  | badNumber
  | numberTooLarge
  | controlCharacter
  | keyIsNoText
  /-- Half of a surrogate pair without the other half. -/
  | halfPair
  /-- The first half of a surrogate pair, and then no escape. -/
  | brokenPair
  | trailingComma
  | trailingText
  | tooDeep
  deriving DecidableEq, Repr

def Fault.message : Fault → String
  | endInList => "EOF while parsing a list"
  | endInObject => "EOF while parsing an object"
  | endInText => "EOF while parsing a string"
  | endInValue => "EOF while parsing a value"
  | noColon => "expected `:`"
  | noListComma => "expected `,` or `]`"
  | noObjectComma => "expected `,` or `\x7d`"
  | strayWord => "expected ident"
  | noValue => "expected value"
  | badEscape => "invalid escape"
  | badNumber => "invalid number"
  | numberTooLarge => "number out of range"
  | controlCharacter => "control character (\\u0000-\\u001F) found while parsing a string"
  | keyIsNoText => "key must be a string"
  | halfPair => "lone leading surrogate in hex escape"
  | brokenPair => "unexpected end of hex escape"
  | trailingComma => "trailing comma"
  | trailingText => "trailing characters"
  | tooDeep => "recursion limit exceeded"

/-- What was found in place of the expected value. -/
inductive Found where
  | null
  | flag (b : Bool)
  | number (n : Number)
  | text (s : String)
  | sequence
  | map
  /-- A variant's name without its payload. -/
  | bareVariant

/-- Why data cannot be read from JSON. -/
inductive ReadError where
  /-- The text is no JSON text. -/
  | malformed (fault : Fault)
  | wrongType (found : Found) (expected : String)
  /-- A whole number that the expected type does not hold. -/
  | outOfRange (n : Int) (expected : String)
  /-- A sequence with too few or too many elements. -/
  | wrongLength (length : Nat) (expected : String)
  | duplicateField (name : String)
  | missingField (name : String)
  | unknownVariant (name : String) (known : List String)
  /-- A choice written as an object with no member or several. -/
  | notSingleKey

def Found.describe : Found → String
  | .null => "null"
  | .flag b => "boolean `" ++ (if b then "true" else "false") ++ "`"
  | .number (.whole n) => "integer `" ++ toString n ++ "`"
  | .number (.real x) => "floating point `" ++ Number.Style.json.write x ++ "`"
  | .text s => "string " ++ Text.QuoteStyle.message.quote s
  | .sequence => "sequence"
  | .map => "map"
  | .bareVariant => "unit variant"

def knownNames : List String → String
  | [] => "there are no variants"
  | [a] => "expected `" ++ a ++ "`"
  | [a, b] => "expected `" ++ a ++ "` or `" ++ b ++ "`"
  | names => "expected one of " ++ ", ".intercalate (names.map fun name => "`" ++ name ++ "`")

def ReadError.message : ReadError → String
  | .malformed fault => fault.message
  | .wrongType found expected => "invalid type: " ++ found.describe ++ ", expected " ++ expected
  | .outOfRange n expected => "invalid value: integer `" ++ toString n ++ "`, expected " ++ expected
  | .wrongLength length expected =>
    "invalid length " ++ toString length ++ ", expected " ++ expected
  | .duplicateField name => "duplicate field `" ++ name ++ "`"
  | .missingField name => "missing field `" ++ name ++ "`"
  | .unknownVariant name known => "unknown variant `" ++ name ++ "`, " ++ knownNames known
  | .notSingleKey => "invalid value: map, expected map with a single key"

/-- Whether the text is JSON as far as it was read, so that only its data is wrong. -/
def ReadError.isAboutData : ReadError → Bool
  | .malformed _ => false
  | _ => true

def describePlace (p : Text.Place) : String :=
  "line " ++ toString p.line ++ " column " ++ toString p.column

/-- Why data cannot be read from a text, and where in the text that shows. -/
abbrev TextError := Text.Placed ReadError

def placedMessage (e : TextError) : String := e.error.message ++ " at " ++ describePlace e.place

end Dialogue.Json
