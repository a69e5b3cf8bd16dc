import TerraStack.Hcl.OfNode
import TerraStack.Stack.Source

namespace TerraStack

/-- A module as a stack declares it. -/
structure Module where
  name : String
  enabled : Bool
  source : Source
  version : Option String
  /-- The modules it needs, as declared. -/
  dependsOn : List String
  inputs : OrderedMap String Hcl.Value
  /-- The outputs it is expected to have. -/
  outputs : List String

namespace Module

/-- An enabled module with nothing but a source. -/
def ofAddress (name address : String) : Module where
  name
  enabled := true
  source := .ofAddress address
  version := none
  dependsOn := []
  inputs := ∅
  outputs := []

/-- The module with another version. -/
def withVersion (module : Module) (version : String) : Module :=
  { module with version := some version }

/-- The module with more dependencies. -/
def needing (module : Module) (names : List String) : Module :=
  { module with dependsOn := module.dependsOn ++ names }

/-- The module with one more input. -/
def withInput (module : Module) (name : String) (value : Hcl.Value) : Module :=
  { module with inputs := module.inputs.insert name value }

/-- The module with one more output. -/
def withOutput (module : Module) (output : String) : Module :=
  { module with outputs := module.outputs ++ [output] }

/-- The module, turned off. -/
def disabled (module : Module) : Module :=
  { module with enabled := false }

end Module

/-- The strings of a list. Items that are no scalars are left out, and a string is a list of one. -/
def stringList : Option Yaml.Node → List String
  | some (.sequence items) => items.filterMap (·.scalarText?)
  | some (.string text) => [text]
  | _ => []

/-- Whether a module is enabled. Only the truth value false turns it off. -/
def isEnabled : Option Yaml.Node → Bool
  | some (.bool value) => value
  | _ => true

/-- The module that an entry of the section describes, which has to be a mapping. -/
def Module.ofNode? (name : String) (node : Yaml.Node) : Option Module :=
  node.entries?.map fun entries =>
    let get (key : String) := Yaml.lookup? key entries
    { name
      enabled := isEnabled (get "enabled")
      source := .ofAddress (((get "source").bind (·.scalarText?)).getD "")
      version := ((get "version").bind (·.scalarText?)).filter (· ≠ "")
      dependsOn := stringList (get "depends_on")
      inputs := Hcl.settings (get "variables")
      outputs := stringList (get "outputs") }

/-- The modules of a section. Entries that describe none are left out, and of two with the same name
the later one counts, in the place of the earlier. -/
def modulesOfNode (section_ : Yaml.Node) : OrderedMap String Module :=
  .ofList <| (section_.entries?.getD []).filterMap fun (key, value) =>
    let name := Hcl.keyText key
    (Module.ofNode? name value).map (name, ·)

end TerraStack
