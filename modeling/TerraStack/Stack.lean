import TerraStack.Stack.Declaration
import TerraStack.Stack.Error
import TerraStack.Stack.Module
import TerraStack.Stack.Settings
import TerraStack.Yaml.Document

namespace TerraStack

/-- A stack, as a stack file describes it. -/
structure Stack where
  terraform : Settings := {}
  modules : OrderedMap String Module := ∅
  /-- The variables that have a declaration of their own. -/
  declared : OrderedMap String Variable := ∅
  outputs : OrderedMap String Output := ∅
  locals : OrderedMap String Hcl.Value := ∅
  dataSources : List DataSource := []
  /-- The settings of each provider that has a section. -/
  providerConfigs : OrderedMap String (OrderedMap String Hcl.Value) := ∅
  /-- The values of all other keys. -/
  topLevel : OrderedMap String Hcl.Value := ∅

namespace Stack

/-- The keys that name sections with a meaning of their own. -/
def reservedSections : List String :=
  ["modules", "terraform", "variables", "outputs", "locals", "data_sources"]

/-- What a key ends with that configures a provider. -/
def providerEnding : String := "_config"

/-- What an entry at the root is to a stack. Six keys name sections with a meaning of their own. A
key `p_config` with a mapping as its value configures the provider `p`. Any other key gives a value
that variables of the same name take. -/
inductive RootEntry where
  | reserved
  | provider (name : String) (settings : OrderedMap String Hcl.Value)
  | value (name : String) (value : Hcl.Value)

/-- What an entry at the root is to a stack, by its key and its value. -/
def RootEntry.ofEntry (key value : Yaml.Node) : RootEntry :=
  let name := Hcl.keyText key
  if reservedSections.contains name then .reserved
  else match Text.beforeEnd? providerEnding name with
    | some owner =>
      if value.isMapping then .provider owner (Hcl.settings (some value))
      else .value name (.ofNode value)
    | none => .value name (.ofNode value)

/-- Note an entry at the root. -/
def addRootEntry (stack : Stack) : RootEntry → Stack
  | .reserved => stack
  | .provider name settings =>
    { stack with providerConfigs := stack.providerConfigs.insert name settings }
  | .value name value => { stack with topLevel := stack.topLevel.insert name value }

/-- The sections of a root mapping that have a meaning of their own. -/
def ofSections (root : List (Yaml.Node × Yaml.Node)) : Stack :=
  let get (name : String) := Yaml.lookup? name root
  { terraform := .ofNode (get "terraform")
    modules := (get "modules").elim ∅ modulesOfNode
    declared := .ofList ((namedEntries (get "variables")).map fun (name, node) =>
      (name, Variable.ofNode node))
    outputs := .ofList ((namedEntries (get "outputs")).map fun (name, node) =>
      (name, Output.ofNode node))
    locals := Hcl.settings (get "locals")
    dataSources := dataSourcesOfNode (get "data_sources") }

/-- The stack that a root mapping describes. -/
def ofRoot (root : List (Yaml.Node × Yaml.Node)) : Stack :=
  (root.map fun (key, value) => RootEntry.ofEntry key value).foldl addRootEntry (ofSections root)

/-- The stack that a document describes. Its root has to be a mapping without a tag. -/
def ofNode : Yaml.Node → Except StackError Stack
  | .mapping root => .ok (ofRoot root)
  | .null => .error .emptyDocument
  | _ => .error .notMapping

/-- The stack that the text of a stack file describes. -/
def parse (text : String) : Except StackError Stack :=
  match Yaml.Node.read text with
  | .ok node => ofNode node
  | .error error => .error (.yaml error)

/-- The stack that the file at a path describes. -/
def load (fs : FileSystem) (path : String) : Except StackError Stack :=
  if fs.contains path then
    match fs.readText path with
    | .ok text => parse text
    | .error error => .error (.file error)
  else .error (.missingFile path)

end Stack
end TerraStack
