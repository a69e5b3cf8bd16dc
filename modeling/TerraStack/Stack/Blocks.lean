import TerraStack.Hcl.Block
import TerraStack.Stack
import TerraStack.Stack.Convention
import TerraStack.Stack.WellKnown

namespace TerraStack

open Hcl (Item)

/-- The reference to a variable. -/
def variableReference (name : String) : String :=
  "var." ++ name

/-- The block for terraform itself. What is required of a provider is written between quotes, as are
all strings that say where the state is kept. -/
def Settings.block (settings : Settings) : Item :=
  let provider (name : String) (required : OrderedMap String Hcl.Value) : Item :=
    .block (name ++ " =") (required.entries.map fun (key, value) =>
      .argument key (Hcl.quote value.plain))
  let setting (key : String) (value : Hcl.Value) : Item :=
    .argument key (match value with
      | .string text => Hcl.quote text
      | value => value.format)
  let providers :=
    if settings.requiredProviders.isEmpty then []
    else [.block "required_providers"
      (settings.requiredProviders.entries.map fun (name, required) => provider name required)]
  let backend := settings.backend.toList.map fun backend =>
    .block (Hcl.head "backend" [backend.type])
      (backend.settings.entries.map fun (key, value) => setting key value)
  .block "terraform"
    (.argument "required_version" (Hcl.quote settings.requiredVersion) :: (providers ++ backend))

/-- The settings that conventions add to a provider's own, each with the key whose variable it
takes: for each convention whose setting is left open, the first key that the root of the stack
has. -/
def injectedSettings (conventions : List Convention) (own topLevel : OrderedMap String Hcl.Value) :
    List (String × String) :=
  conventions.filterMap fun convention =>
    if own.contains convention.setting then none
    else (convention.select topLevel.contains).map (convention.setting, ·)

/-- The block of a provider: its own settings, then those that conventions add. -/
def providerBlock (provider : String) (conventions : List Convention)
    (own topLevel : OrderedMap String Hcl.Value) : Item :=
  .block (Hcl.head "provider" [provider])
    (Hcl.itemsOfSettings own ++ (injectedSettings conventions own topLevel).map fun (setting, key) =>
      .argument setting (variableReference key))

/-- The blocks of the required providers. -/
def providerBlocks (stack : Stack) (conventions : Conventions) : List Item :=
  stack.terraform.requiredProviders.keys.map fun provider =>
    providerBlock provider (conventions.of provider)
      ((stack.providerConfigs.find? provider).getD ∅) stack.topLevel

/-- The block of local values, if there are any. -/
def localsBlock? (locals : OrderedMap String Hcl.Value) : Option Item :=
  if locals.isEmpty then none else some (.block "locals" (Hcl.itemsOfSettings locals))

/-- The block of a data source. -/
def DataSource.block (source : DataSource) : Item :=
  .block (Hcl.head "data" [source.type, source.name]) (Hcl.itemsOfSettings source.config)

/-- The common variables that a module gets: those that the stack has a value for and declares, and
that the module does not set itself. -/
def forwardedVariables (module : Module) (topLevel : OrderedMap String Hcl.Value)
    (declared : OrderedMap String Variable) : List String :=
  commonVariables.filter fun name =>
    topLevel.contains name && declared.contains name && !module.inputs.contains name

/-- The argument that lists the modules a module needs. -/
def needsArgument (names : List String) : Item :=
  .argument "depends_on" ("[" ++ Text.join ", " (names.map ("module." ++ ·)) ++ "]")

/-- The block of a module: its source, the common variables that it is given, its own inputs and the
modules that it needs. -/
def Module.block (module : Module) (topLevel : OrderedMap String Hcl.Value)
    (declared : OrderedMap String Variable) : Item :=
  .block (Hcl.head "module" [module.name])
    ([.argument "source" (Hcl.quote module.source.address)]
      ++ module.version.toList.map (fun version => .argument "version" (Hcl.quote version))
      ++ (forwardedVariables module topLevel declared).map
        (fun name => .argument name (variableReference name))
      ++ Hcl.itemsOfSettings module.inputs
      ++ (if module.dependsOn.isEmpty then [] else [needsArgument module.dependsOn]))

/-- The block that hands on an output of a module. -/
def moduleOutputBlock (module output : String) : Item :=
  .block (Hcl.head "output" [module ++ "_" ++ output]) [
    .argument "description" (Hcl.quote (output ++ " from " ++ module ++ " module")),
    .argument "value" ("module." ++ module ++ "." ++ output)]

/-- The block of an output of the stack itself. -/
def Output.block (name : String) (output : Output) : Item :=
  .block (Hcl.head "output" [name])
    ([.argument "description" (Hcl.quote (output.description.getD name)),
      .argument "value" (output.value.getD "null")]
      ++ if output.sensitive then [.argument "sensitive" "true"] else [])

/-- The outputs of the modules in their order, and behind them those of the stack itself. -/
def outputBlocks (modules : List Module) (outputs : OrderedMap String Output) : List Item :=
  modules.flatMap (fun module => module.outputs.map (moduleOutputBlock module.name))
    ++ outputs.entries.map fun (name, output) => output.block name

/-- The block of a condition, within the block of its variable. -/
def Validation.block (validation : Validation) : Item :=
  .block "validation" (Hcl.alignedArguments [
    ("condition", validation.condition.getD "true"),
    ("error_message", Hcl.quote (validation.errorMessage.getD "Invalid value"))])

/-- The block that declares a variable. -/
def Variable.block (name : String) (variable_ : Variable) : Item :=
  .block (Hcl.head "variable" [name])
    (variable_.description.toList.map (fun text => .argument "description" (Hcl.quote text))
      ++ variable_.type.toList.map (.argument "type")
      ++ variable_.default.toList.map (fun value => .argument "default" value.format)
      ++ (if variable_.sensitive then [.argument "sensitive" "true"] else [])
      ++ variable_.validation.toList.map Validation.block)

/-- The blocks of the variables that a stack has. -/
def variableBlocks (declared : OrderedMap String Variable) (topLevel : OrderedMap String Hcl.Value) :
    List Item :=
  (allVariables declared topLevel).entries.map fun (name, variable_) => variable_.block name

end TerraStack
