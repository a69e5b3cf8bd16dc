import TerraStack.Hcl.Value
import TerraStack.OrderedMap

namespace TerraStack.Hcl

/-- What stands in a file of the configuration language: an argument, or a block that has a head,
such as `provider "aws"`, and items between braces. -/
inductive Item where
  | argument (name expression : String)
  | block (head : String) (items : List Item)

mutual

/-- The lines of an item, indented by two spaces for each block around it. An expression is written
as it stands, even over several lines. -/
def Item.lines (indent : String) : Item → List String
  | .argument name expression => [indent ++ name ++ " = " ++ expression]
  | .block head items =>
    (indent ++ head ++ " \x7b") :: (itemLines (indent ++ "  ") items ++ [indent ++ "\x7d"])

/-- The lines of items one after another. -/
def itemLines (indent : String) : List Item → List String
  | [] => []
  | item :: rest => item.lines indent ++ itemLines indent rest

end

/-- The text of an item that no block encloses. -/
def Item.text (item : Item) : String :=
  Text.unlines (item.lines "")

/-- No item is written as an empty text: it has an equal sign or a brace at least. -/
theorem Item.text_ne_empty (item : Item) : item.text ≠ "" := by
  cases item with
  | argument name expression => simp [text, lines, Text.unlines]
  | block head items =>
    rw [text, lines]
    exact Text.join_cons_ne_empty (by simp) _

/-- The head of a block with labels. -/
def head (kind : String) (labels : List String) : String :=
  Text.join " " (kind :: labels.map quote)

/-- The argument that a setting becomes. -/
def Item.ofSetting (setting : String × Value) : Item :=
  .argument setting.1 setting.2.format

/-- The arguments that settings become, in their order. -/
def itemsOfSettings (settings : OrderedMap String Value) : List Item :=
  settings.entries.map Item.ofSetting

/-- A name filled up with spaces to a width. -/
def padTo (width : Nat) (name : String) : String :=
  name ++ .ofList (List.replicate (width - name.length) ' ')

/-- Arguments with their equal signs in one column. -/
def alignedArguments (arguments : List (String × String)) : List Item :=
  let width := (arguments.map (·.1.length)).foldl max 0
  arguments.map fun (name, expression) => .argument (padTo width name) expression

end TerraStack.Hcl
