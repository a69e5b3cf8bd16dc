import TerraStack.Hcl.OfNode

namespace TerraStack

/-- The text of a value in a mapping, if there is one that is not null. -/
def plainText? (name : String) (entries : List (Yaml.Node × Yaml.Node)) : Option String :=
  ((Yaml.lookup? name entries).filter (!·.isNull)).map fun node => (Hcl.Value.ofNode node).plain

/-- Whether a value in a mapping is the truth value true. -/
def isTrue (name : String) (entries : List (Yaml.Node × Yaml.Node)) : Bool :=
  match Yaml.lookup? name entries with
  | some (.bool value) => value
  | _ => false

/-- A condition that the value of a variable has to meet. -/
structure Validation where
  condition : Option String
  errorMessage : Option String

/-- A variable as a stack declares it. -/
structure Variable where
  description : Option String := none
  /-- A type expression such as `list(string)`. -/
  type : Option String := none
  default : Option Hcl.Value := none
  sensitive : Bool := false
  validation : Option Validation := none

/-- The variable that an entry of the section declares. One that is no mapping declares a variable
about which nothing is said. -/
def Variable.ofNode (node : Yaml.Node) : Variable :=
  match node.entries? with
  | none => {}
  | some entries => {
      description := plainText? "description" entries
      type := plainText? "type" entries
      default := (Yaml.lookup? "default" entries).map Hcl.Value.ofNode
      sensitive := isTrue "sensitive" entries
      validation := (Yaml.lookup? "validation" entries).map fun node =>
        let entries := node.entries?.getD []
        ⟨plainText? "condition" entries, plainText? "error_message" entries⟩ }

/-- An output of the stack itself. -/
structure Output where
  description : Option String := none
  /-- An expression. -/
  value : Option String := none
  sensitive : Bool := false

/-- The output that an entry of the section declares. -/
def Output.ofNode (node : Yaml.Node) : Output :=
  match node.entries? with
  | none => {}
  | some entries => {
      description := plainText? "description" entries
      value := plainText? "value" entries
      sensitive := isTrue "sensitive" entries }

/-- A data source as a stack declares it. -/
structure DataSource where
  type : String
  name : String
  config : OrderedMap String Hcl.Value

/-- The data source that an item of the section declares, which has to be a mapping. -/
def DataSource.ofNode? (node : Yaml.Node) : Option DataSource :=
  node.entries?.map fun entries =>
    ⟨(plainText? "type" entries).getD "", (plainText? "name" entries).getD "",
      Hcl.settings (Yaml.lookup? "config" entries)⟩

/-- The data sources of a section, which has to be a sequence. -/
def dataSourcesOfNode : Option Yaml.Node → List DataSource
  | some (.sequence items) => items.filterMap DataSource.ofNode?
  | _ => []

/-- The entries of a section with their keys as text. A section that is no mapping has none. -/
def namedEntries (node : Option Yaml.Node) : List (String × Yaml.Node) :=
  ((node.bind (·.entries?)).getD []).map fun (key, value) => (Hcl.keyText key, value)

end TerraStack
