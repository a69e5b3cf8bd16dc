import TerraStack.Text.Lines

namespace TerraStack.Text.Json

/-- A digit of a number in base sixteen. -/
def hexDigit (n : Nat) : Char :=
  if n < 10 then .ofNat ('0'.toNat + n) else .ofNat ('a'.toNat + (n - 10))

/-- A character as it stands in a string. Control characters are escaped, by a letter where there is
one; all others but the quote and the backslash stand for themselves. -/
def escape (c : Char) : List Char :=
  if c = '"' || c = '\\' then ['\\', c]
  else if c = '\n' then ['\\', 'n']
  else if c = '\r' then ['\\', 'r']
  else if c = '\t' then ['\\', 't']
  else if c = '\u0008' then ['\\', 'b']
  else if c = '\u000c' then ['\\', 'f']
  else if c.toNat < 32 then ['\\', 'u', '0', '0', hexDigit (c.toNat / 16), hexDigit (c.toNat % 16)]
  else [c]

/-- A text as a string. -/
def string (text : String) : String :=
  .ofList ('"' :: text.toList.flatMap escape ++ ['"'])

/-- Texts as an array of strings in JSON, on one line and without spaces. -/
def array (texts : List String) : String :=
  "[" ++ join "," (texts.map string) ++ "]"

end TerraStack.Text.Json
