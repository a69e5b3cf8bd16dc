namespace TerraStack.Yaml

/-- What a YAML document says once its notation is forgotten: block or flow form, quoting, anchors
and comments leave no trace. Tags that name no core type stay around the node they stand on. The
keys of a mapping are nodes of any kind, and no two of them are the same value. -/
inductive Node where
  | null
  | bool (value : Bool)
  | integer (value : Int)
  | float (value : Float)
  | string (text : String)
  | sequence (items : List Node)
  | mapping (entries : List (Node × Node))
  /-- A node with an application's own tag, which is written with its exclamation mark. -/
  | tagged (tag : String) (node : Node)
  deriving Inhabited

namespace Node

/-- The node without the tags around it. -/
def untagged : Node → Node
  | .tagged _ node => node.untagged
  | node => node

/-- The entries of a mapping, looking through tags. -/
def entries? (node : Node) : Option (List (Node × Node)) :=
  match node.untagged with
  | .mapping entries => some entries
  | _ => none

/-- Whether the node is a mapping, looking through tags. -/
def isMapping (node : Node) : Bool :=
  node.entries?.isSome

/-- Whether the node is null, looking through tags. -/
def isNull (node : Node) : Bool :=
  match node.untagged with
  | .null => true
  | _ => false

/-- Whether the node is this plain string. -/
def isString (text : String) : Node → Bool
  | .string other => other == text
  | _ => false

end Node

/-- The value under a string key. Keys of other kinds and tagged keys do not match. -/
def lookup? (name : String) (entries : List (Node × Node)) : Option Node :=
  (entries.find? fun entry => entry.1.isString name).map Prod.snd

end TerraStack.Yaml
