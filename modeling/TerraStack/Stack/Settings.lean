import TerraStack.Hcl.OfNode

namespace TerraStack

/-- Where the state is kept. -/
structure Backend where
  type : String
  settings : OrderedMap String Hcl.Value

/-- The backend of a section, which has to be a mapping. -/
def Backend.ofNode? (node : Yaml.Node) : Option Backend :=
  if node.isMapping then
    let settings := Hcl.settings (some node)
    some ⟨((settings.find? "type").map (·.plain)).getD "local", settings.erase "type"⟩
  else none

/-- What a stack says about terraform itself: the version, the providers and where the state is
kept. -/
structure Settings where
  requiredVersion : String := ">= 1.0"
  /-- What is required of each provider. -/
  requiredProviders : OrderedMap String (OrderedMap String Hcl.Value) := ∅
  backend : Option Backend := none

/-- The settings of a section. Without a section the defaults hold, as they do for a section that is
no mapping. -/
def Settings.ofNode : Option Yaml.Node → Settings
  | some (.mapping entries) => {
      requiredVersion :=
        ((Yaml.lookup? "version" entries).map fun node => (Hcl.Value.ofNode node).plain).getD ">= 1.0"
      requiredProviders := match Yaml.lookup? "required_providers" entries with
        | some (.mapping providers) =>
          .ofList (providers.map fun (name, node) => (Hcl.keyText name, Hcl.settings (some node)))
        | _ => ∅
      backend := ((Yaml.lookup? "backend" entries).filter (!·.isNull)).bind Backend.ofNode? }
  | _ => {}

end TerraStack
