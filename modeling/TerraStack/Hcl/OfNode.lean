import TerraStack.Hcl.Value
import TerraStack.OrderedMap
import TerraStack.Yaml.Node

namespace TerraStack

/-- Numbers in the text of a key have the fewest digits that read back, an exponent where the point
would be far away, and `.0` where they are whole. -/
def Yaml.numberLayout : Decimal.Layout where
  tie := .toEven
  isPositional point := -5 < point ∧ point ≤ 16
  marksWhole := true
  infinity := ".inf"
  notANumber := ".nan"

/-- The text of a number, a truth value or a string, and of nothing else. -/
def Yaml.Node.scalarText? : Yaml.Node → Option String
  | .string text => some text
  | .integer value => some (toString value)
  | .float value => some (Yaml.numberLayout.write value)
  | .bool value => some (if value then "true" else "false")
  | _ => none

namespace Hcl

/-- The text of a mapping key, given the value that the key converts to. -/
def keyTextWith (key : Yaml.Node) (value : Value) : String :=
  match key with
  | .null => "null"
  | key => key.scalarText?.getD value.format

mutual

/-- The configuration value of a node. Tags are dropped. -/
def Value.ofNode : Yaml.Node → Value
  | .null => .null
  | .bool value => .bool value
  | .integer value => .integer value
  | .float value => .float value
  | .string text => .string text
  | .sequence items => .list (valuesOfNodes items)
  | .mapping entries => .map (OrderedMap.ofList (namedValues entries)).entries
  | .tagged _ node => Value.ofNode node

/-- The configuration values of the items of a sequence. -/
def valuesOfNodes : List Yaml.Node → List Value
  | [] => []
  | item :: rest => Value.ofNode item :: valuesOfNodes rest

/-- The entries of a mapping with their keys as text, not yet merged: where two keys have the same
text, the first is to give the place and the last the value. -/
def namedValues : List (Yaml.Node × Yaml.Node) → List (String × Value)
  | [] => []
  | (key, value) :: rest =>
    (keyTextWith key (Value.ofNode key), Value.ofNode value) :: namedValues rest

end

/-- The text of a mapping key. -/
def keyText (key : Yaml.Node) : String :=
  keyTextWith key (Value.ofNode key)

/-- The settings in a mapping. A tagged mapping, or any other node, has none. -/
def settings : Option Yaml.Node → OrderedMap String Value
  | some (.mapping entries) => .ofList (namedValues entries)
  | _ => ∅

end Hcl
end TerraStack
