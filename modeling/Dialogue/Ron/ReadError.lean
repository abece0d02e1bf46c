import Dialogue.Shape.Basic
import Dialogue.Text.Place
import Dialogue.Text.Quoted
/-!
# Why data cannot be read from RON

Each cause has its wording. Names in a wording are written as they would have to stand in RON text.
-/

namespace Dialogue.Ron

/-! ## Names -/

def isNameStart (c : Char) : Bool := c.isAlpha || c = '_'

def isNameChar (c : Char) : Bool := c.isAlphanum || c = '_'

/-- Whether the character may stand in a name that is written with `r#`. -/
def isRawNameChar (c : Char) : Bool := isNameChar c || c = '.' || c = '+' || c = '-'

/-- Whether the text is a name that needs no `r#`. -/
def isPlainName (s : String) : Bool :=
  match s.toList with
  | [] => false
  | c :: cs => isNameStart c && cs.all isNameChar

def describeName (s : String) : String := (if isPlainName s then "`" else "`r#") ++ s ++ "`"

def describeNames : List String → String
  | [] => "there are no variants"
  | [a] => "expected " ++ describeName a ++ " instead"
  | [a, b] => "expected either " ++ describeName a ++ " or " ++ describeName b ++ " instead"
  | names => "expected one of " ++ ", ".intercalate (names.map describeName) ++ " instead"

/-! ## Errors -/

/-- What is wrong with an escape. -/
inductive EscapeFault where
  | unknown
  | noDigit
  | noBrace
  | noDigits
  | noClosingBrace
  /-- The digits are the number of no character. -/
  | noCharacter
  deriving DecidableEq, Repr

/-- Why data cannot be read from RON. -/
inductive ReadError where
  | endOfText
  | noAttribute
  | noAttributeEnd
  | unknownExtension (name : String)
  | openComment
  /-- A byte that nothing can begin with, as the character of its number. -/
  | strayByte (b : Char)
  | trailingText
  | noComma
  | noColon
  | noText
  | noTextEnd
  | badEscape (fault : EscapeFault)
  | noLetter
  | noFlag
  | noWhole
  | leadingUnderscore
  | outOfRange
  | noReal
  | underscoreInReal
  | noOptional
  | noList
  | noTable
  | noParenthesis
  | noClosingParenthesis
  /-- No record of the title begins here. -/
  | noRecord (title : Title)
  /-- A record's name before one that is not called so. -/
  | otherRecord (expected found : String)
  | noName
  /-- A name that has to be written with `r#`. -/
  | rawName (name : String)
  | duplicateField (name : String) (owner : Title)
  | missingField (name : String) (owner : Title)
  | unknownVariant (name : String) (known : List String)
  | tooDeep

def EscapeFault.message : EscapeFault → String
  | unknown => "Unknown escape character"
  | noDigit => "Non-hex digit found"
  | noBrace => "Missing \x7b in Unicode escape"
  | noDigits => "Expected 1-6 digits, got 0 digits in Unicode escape"
  | noClosingBrace => "No \x7d at the end of Unicode escape"
  | noCharacter => "Not a valid char"

def describeByte (b : Char) : String :=
  String.ofList (['\''] ++ (if b = '"' then ['"'] else Text.QuoteStyle.file.escape b) ++ ['\''])

def titleName : Title → String
  | .record name => name
  | .variant _ name => name

def ReadError.message : ReadError → String
  | endOfText => "Unexpected end of RON"
  | noAttribute => "Expected an `#![enable(...)]` attribute"
  | noAttributeEnd => "Expected closing `)]` after the enable attribute"
  | unknownExtension name => "No RON extension named " ++ describeName name
  | openComment => "Unclosed block comment"
  | strayByte b => "Unexpected byte " ++ describeByte b
  | trailingText => "Non-whitespace trailing characters"
  | noComma => "Expected comma"
  | noColon => "Expected colon"
  | noText => "Expected string"
  | noTextEnd => "Expected end of string"
  | badEscape fault => fault.message
  | noLetter => "Expected char"
  | noFlag => "Expected boolean"
  | noWhole => "Expected integer"
  | leadingUnderscore => "Unexpected leading underscore in an integer"
  | outOfRange => "Integer is out of bounds"
  | noReal => "Expected float"
  | underscoreInReal => "Unexpected underscore in float"
  | noOptional => "Expected option"
  | noList => "Expected opening `[`"
  | noTable => "Expected opening `\x7b`"
  | noParenthesis => "Expected opening `(`"
  | noClosingParenthesis => "Expected closing `)`"
  | noRecord (.record name) => "Expected opening `(` for struct " ++ describeName name
  | noRecord (.variant _ _) => "Expected only opening `(`, no name, for un-nameable struct"
  | otherRecord expected found =>
    "Expected struct " ++ describeName expected ++ " but found " ++ describeName found
  | noName => "Expected identifier"
  | rawName name =>
    "Found invalid std identifier `" ++ name ++ "`, try the raw identifier `r#" ++ name ++
      "` instead"
  | duplicateField name owner =>
    "Unexpected duplicate field named " ++ describeName name ++ " in " ++
      describeName (titleName owner)
  | missingField name owner =>
    "Unexpected missing field named " ++ describeName name ++ " in " ++
      describeName (titleName owner)
  | unknownVariant name known =>
    "Unexpected enum variant named " ++ describeName name ++ ", " ++ describeNames known
  | tooDeep =>
    "Exceeded recursion limit, try increasing the limit and using `serde_stacker` to protect " ++
      "against a stack overflow"

/-- Why data cannot be read from a text, and where in the text that shows. -/
abbrev TextError := Text.Placed ReadError

/-- The wording of an error behind its place: the line and the byte in it, counted from one. -/
def placedMessage (e : TextError) : String :=
  toString e.place.line ++ ":" ++ toString (e.place.column + 1) ++ ": " ++ e.error.message

end Dialogue.Ron
