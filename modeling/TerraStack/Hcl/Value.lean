import TerraStack.Decimal.Layout
import TerraStack.Text.Affix
import TerraStack.Text.Lines

namespace TerraStack.Hcl

/-- A value of the configuration language. -/
inductive Value where
  | null
  | bool (value : Bool)
  | integer (value : Int)
  | float (value : Float)
  | string (text : String)
  | list (items : List Value)
  /-- Entries in order, each name once. -/
  | map (entries : List (String × Value))
  deriving Inhabited

/-- What a string starts with if it refers to another part of the configuration. -/
def referencePrefixes : List String :=
  ["var.", "local.", "data.", "module."]

/-- Whether a string is an expression that refers to another part of the configuration, as one is
that starts with `var.` or `module.`. It is written as it stands. -/
def isReference (text : String) : Bool :=
  referencePrefixes.any (Text.startsWith · text)

/-- Numbers have the fewest digits that read back, without an exponent and without an empty
fraction. -/
def numberLayout : Decimal.Layout where
  tie := .up
  isPositional _ := true
  marksWhole := false
  infinity := "inf"
  notANumber := "NaN"

/-- A text between double quotes. Quotes inside it are not escaped, so a text with a quote in it has
no literal of its own. -/
def quote (text : String) : String :=
  "\"" ++ text ++ "\""

namespace Value

/-- The literal of a string: itself if it is a reference, else quoted. -/
def formatString (text : String) : String :=
  if isReference text then text else quote text

/-- The literal of a float. The infinities and the undefined number have none, so they are quoted. -/
def formatFloat (x : Float) : String :=
  let text := numberLayout.write x
  if x.isFinite then text else quote text

mutual

/-- The literal of a value. -/
def format : Value → String
  | .null => "null"
  | .bool true => "true"
  | .bool false => "false"
  | .integer value => toString value
  | .float value => formatFloat value
  | .string text => formatString text
  | .list items => "[" ++ Text.join ", " (formatAll items) ++ "]"
  | .map entries => "\x7b\n  " ++ Text.join "\n  " (formatEntries entries) ++ "\n\x7d"

/-- The literals of the items of a list. -/
def formatAll : List Value → List String
  | [] => []
  | item :: rest => item.format :: formatAll rest

/-- The assignments of a map. -/
def formatEntries : List (String × Value) → List String
  | [] => []
  | (name, value) :: rest => (name ++ " = " ++ value.format) :: formatEntries rest

end

/-- The text of a value where it is put between quotes whatever it is: a string as it stands. -/
def plain : Value → String
  | .string text => text
  | value => value.format

/-- The string that a value is, if it is one. -/
def string? : Value → Option String
  | .string text => some text
  | _ => none

end Value

end TerraStack.Hcl
