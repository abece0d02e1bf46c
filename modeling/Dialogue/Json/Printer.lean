import Dialogue.Json.Basic
import Dialogue.Number.Written
/-!
# JSON text

A JSON value is written either compactly or over several lines, with two spaces for each level.
-/

namespace Dialogue.Json

def Number.chars : Number → List Char
  | .whole n => (toString n).toList
  | .real x => (Number.Style.json.write x).toList

/-- A control character in JSON text, by its code point in four hexadecimal digits. -/
def controlEscape (c : Char) : List Char :=
  ['\\', 'u', '0', '0'] ++ (if c.toNat < 0x10 then ['0'] else []) ++ Nat.toDigits 16 c.toNat

def escape (c : Char) : List Char :=
  if c = '"' then ['\\', '"']
  else if c = '\\' then ['\\', '\\']
  else if c = '\x08' then ['\\', 'b']
  else if c = '\x0c' then ['\\', 'f']
  else if c = '\n' then ['\\', 'n']
  else if c = '\r' then ['\\', 'r']
  else if c = '\t' then ['\\', 't']
  else if c.toNat < 0x20 then controlEscape c
  else [c]

def quoted (s : String) : List Char := '"' :: s.toList.flatMap escape ++ ['"']

/-- The white space of a way of writing. -/
structure Spacing where
  /-- What stands before an item, a member or a closing bracket, at a level of nesting. -/
  lineBreak : Nat → List Char
  /-- What stands between a key's colon and its value. -/
  afterColon : List Char

def Spacing.compact : Spacing := ⟨fun _ => [], []⟩

/-- Each item and member on a line of its own, two spaces further in than what holds it. -/
def Spacing.pretty : Spacing := ⟨fun level => '\n' :: List.replicate (2 * level) ' ', [' ']⟩

mutual

/-- A value as text, at a level of nesting. -/
def chars (spacing : Spacing) (level : Nat) : Json → List Char
  | .null => ['n', 'u', 'l', 'l']
  | .flag true => ['t', 'r', 'u', 'e']
  | .flag false => ['f', 'a', 'l', 's', 'e']
  | .number n => n.chars
  | .text s => quoted s
  | .array [] => ['[', ']']
  | .array (item :: items) =>
    '[' :: spacing.lineBreak (level + 1) ++ chars spacing (level + 1) item ++
      itemsChars spacing (level + 1) items ++ spacing.lineBreak level ++ [']']
  | .object [] => ['{', '}']
  | .object ((key, value) :: members) =>
    '{' :: spacing.lineBreak (level + 1) ++ quoted key ++ ':' :: spacing.afterColon ++
      chars spacing (level + 1) value ++ membersChars spacing (level + 1) members ++
      spacing.lineBreak level ++ ['}']

/-- The items behind the first one. -/
def itemsChars (spacing : Spacing) (level : Nat) : List Json → List Char
  | [] => []
  | item :: items =>
    ',' :: spacing.lineBreak level ++ chars spacing level item ++ itemsChars spacing level items

/-- The members behind the first one. -/
def membersChars (spacing : Spacing) (level : Nat) : List (String × Json) → List Char
  | [] => []
  | (key, value) :: members =>
    ',' :: spacing.lineBreak level ++ quoted key ++ ':' :: spacing.afterColon ++
      chars spacing level value ++ membersChars spacing level members

end

/-- A value as text without white space. -/
def compact (j : Json) : String := String.ofList (chars .compact 0 j)

def pretty (j : Json) : String := String.ofList (chars .pretty 0 j)

end Dialogue.Json
