import TerraStack.Text.Bytes

namespace TerraStack.Yaml

/-- The tag of a node, spelled out in full. It is bytes, for its notation can name any byte but
zero. A tag that starts with an exclamation mark and is text is an application's own; it stays on
the node. -/
structure Tag where
  bytes : List UInt8
  deriving Repr, DecidableEq

namespace Tag

/-- The tag that a text spells out. -/
def ofText (text : String) : Tag :=
  ⟨Text.encode text⟩

/-- How the tags of the core types start. -/
def coreStart : List UInt8 :=
  Text.encode "tag:yaml.org,2002:"

/-- The tag of a core type. -/
def core (name : String) : Tag :=
  ⟨coreStart ++ Text.encode name⟩

/-- The exclamation mark with which an application's tags start. -/
def mark : List UInt8 :=
  Text.encode "!"

def hasMark (tag : Tag) : Bool :=
  mark.isPrefixOf tag.bytes

/-- The text of an application's own tag. -/
def ownText? (tag : Tag) : Option String :=
  if tag.hasMark then Text.decode? tag.bytes else none

end Tag
end TerraStack.Yaml
