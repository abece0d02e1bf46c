import Dialogue.Text.Unprintable
/-!
# Quoted text

A text between double quotes, with escapes for the characters that would break the quotes or
would not show.
-/

namespace Dialogue.Text

/-- Which quotes a quoted text escapes: always the double one, and the single one if asked. -/
structure QuoteStyle where
  escapesApostrophe : Bool

def QuoteStyle.message : QuoteStyle := ⟨false⟩

def QuoteStyle.file : QuoteStyle := ⟨true⟩

/-- The code point of a character in lower-case hexadecimal digits. -/
def hexDigits (c : Char) : List Char := Nat.toDigits 16 c.toNat

def QuoteStyle.escape (style : QuoteStyle) (c : Char) : List Char :=
  if c = '\t' then ['\\', 't']
  else if c = '\r' then ['\\', 'r']
  else if c = '\n' then ['\\', 'n']
  else if c = '\x00' then ['\\', '0']
  else if c = '\\' then ['\\', '\\']
  else if c = '"' then ['\\', '"']
  else if c = '\'' then if style.escapesApostrophe then ['\\', '\''] else ['\'']
  else if isUnprintable c then ['\\', 'u', '{'] ++ hexDigits c ++ ['}']
  else [c]

def QuoteStyle.quote (style : QuoteStyle) (s : String) : String :=
  String.ofList ('"' :: s.toList.flatMap style.escape ++ ['"'])

end Dialogue.Text
