import TerraStack.Proofs.Stack.ProviderBlocks
import TerraStack.Proofs.Tfvars.Merge

namespace TerraStack

open Hcl (Item Value)

variable {stack : Stack} {module : Module} {name expression : String}

/-- A stack hands a common variable on to a module: it has a value and a declaration for it, and the
module leaves it open. -/
structure HandsOn (stack : Stack) (module : Module) (name : String) : Prop where
  common : name ∈ commonVariables
  given : stack.topLevel.contains name = true
  declared : stack.declared.contains name = true
  isOpen : module.inputs.contains name = false

/-- The variables that a module gets without asking are those that are handed on to it. -/
theorem mem_forwardedVariables_iff :
    name ∈ forwardedVariables module stack.topLevel stack.declared ↔ HandsOn stack module name := by
  unfold forwardedVariables
  rw [List.mem_filter, Bool.and_eq_true, Bool.and_eq_true, Bool.not_eq_true']
  constructor
  · rintro ⟨hcommon, ⟨hgiven, hdeclared⟩, hopen⟩
    exact ⟨hcommon, hgiven, hdeclared, hopen⟩
  · intro hhandsOn
    exact ⟨hhandsOn.common, ⟨hhandsOn.given, hhandsOn.declared⟩, hhandsOn.isOpen⟩

/-- No common variable is listed twice. -/
theorem nodup_commonVariables : commonVariables.Nodup := by
  decide

/-- What a module gets is not among what it sets, so no name comes twice. -/
theorem nodup_forwardedVariables_append (stack : Stack) (module : Module) :
    (forwardedVariables module stack.topLevel stack.declared ++ module.inputs.keys).Nodup := by
  rw [List.nodup_append]
  refine ⟨nodup_commonVariables.filter _, module.inputs.distinct, ?_⟩
  rintro name hforwarded _ hinput rfl
  have hopen := (mem_forwardedVariables_iff.mp hforwarded).isOpen
  rw [← Bool.not_eq_true, OrderedMap.contains_iff_mem_keys] at hopen
  exact hopen hinput

/-- A line that assigns a common variable in a module's block is there because the variable is
handed on, or because the module sets it. -/
theorem mem_moduleArguments_iff (hcommon : name ∈ commonVariables) :
    (name, expression) ∈ moduleArguments module stack.topLevel stack.declared ↔
      HandsOn stack module name ∧ expression = variableReference name ∨
        ∃ value, module.inputs.find? name = some value ∧ value.format = expression := by
  have hnames : ∀ name ∈ commonVariables, name ≠ "source" ∧ name ≠ "version" ∧ name ≠ "depends_on" := by
    decide
  obtain ⟨hsource, hversion, hneeds⟩ := hnames name hcommon
  unfold moduleArguments
  simp only [List.mem_append]
  constructor
  · rintro ((((hmem | hmem) | hforwarded) | hinput) | hmem)
    · exact absurd (Prod.mk.inj (List.mem_singleton.mp hmem)).1 hsource
    · obtain ⟨_, _, heq⟩ := List.mem_map.mp hmem
      exact absurd (Prod.mk.inj heq).1.symm hversion
    · obtain ⟨_, hmember, heq⟩ := List.mem_map.mp hforwarded
      obtain ⟨rfl, rfl⟩ := Prod.mk.inj heq
      exact .inl ⟨mem_forwardedVariables_iff.mp hmember, rfl⟩
    · obtain ⟨⟨_, value⟩, hentry, heq⟩ := List.mem_map.mp hinput
      obtain ⟨rfl, rfl⟩ := Prod.mk.inj heq
      exact .inr ⟨value, OrderedMap.find?_eq_some_iff.mpr hentry, rfl⟩
    · split at hmem
      · cases hmem
      · exact absurd (Prod.mk.inj (List.mem_singleton.mp hmem)).1 hneeds
  · rintro (⟨hhandsOn, rfl⟩ | ⟨value, hvalue, rfl⟩)
    · have hmember := mem_forwardedVariables_iff.mpr hhandsOn
      exact .inl (.inl (.inr (List.mem_map_of_mem hmember)))
    · have hentry := OrderedMap.find?_eq_some_iff.mp hvalue
      exact .inl (.inr (List.mem_map_of_mem hentry))

namespace Tfvars

/-- No common variable has a name that could configure a provider. -/
theorem endsWith_providerEnding_of_common (hcommon : name ∈ commonVariables) :
    Text.endsWith Stack.providerEnding name = false := by
  revert name
  decide

/-- A value that belongs to a declared variable is an entry, unless its key could configure a
provider. -/
theorem find?_generated {value : Value} (hgiven : stack.topLevel.find? name = some value)
    (hdeclared : (allVariables stack.declared stack.topLevel).contains name = true)
    (hending : Text.endsWith Stack.providerEnding name = false) :
    (generated stack).find? name = some value := by
  refine OrderedMap.find?_filter.mpr ⟨hgiven, ?_⟩
  rw [hending, hdeclared]
  rfl

/-- Whatever a text has under the name, the merge has one entry with it, which the stack generates. -/
theorem filter_mergedEntries {value : Value} (hfound : (generated stack).find? name = some value)
    (existing : Option String) :
    (mergedEntries stack existing).filter (fun entry => entry.1 = name) = [(name, value.format)] := by
  have hown : (generatedEntries stack).filter (fun entry => entry.1 = name) =
      [(name, value.format)] := by
    have hnames : (fun entry : String × String => decide (entry.1 = name)) ∘
        (fun entry : String × Value => (entry.1, entry.2.format)) =
          fun entry : String × Value => decide (entry.1 = name) := rfl
    unfold generatedEntries
    rw [List.filter_map, hnames, OrderedMap.filter_entries_of_find? hfound]
    rfl
  have hcontains : (generated stack).contains name = true := by
    simp [OrderedMap.contains, hfound]
  unfold mergedEntries
  rw [List.filter_append, hown, List.filter_filter]
  have hkept (kept : List (String × String)) : kept.filter (fun entry =>
      decide (entry.1 = name) && !(generated stack).contains entry.1) = [] := by
    refine List.filter_eq_nil_iff.mpr fun entry _ hentry => ?_
    rw [Bool.and_eq_true, decide_eq_true_iff] at hentry
    obtain ⟨rfl, hmissing⟩ := hentry
    rw [hcontains] at hmissing
    cases hmissing
  rw [hkept, List.append_nil]

/-- Where a value is generated there is a file with values, made of the entries of the merge. -/
theorem render_of_find?_generated {value : Value}
    (hfound : (generated stack).find? name = some value) (existing : Option String) :
    render stack existing = some (entriesText (mergedEntries stack existing)) := by
  unfold render
  split
  · next hnil =>
    have hentry := filter_mergedEntries hfound existing
    rw [hnil] at hentry
    cases hentry
  · rfl

end Tfvars

/-- What the files have of a variable: the block that declares it as the stack does, and one entry
with the value that the stack has for it. No text that values are merged into has a part in that
entry. -/
structure Presents (stack : Stack) (name : String) : Prop where
  block : ∃ variable_, stack.declared.find? name = some variable_ ∧
    variable_.block name ∈ variableBlocks stack.declared stack.topLevel
  entry : ∃ value, stack.topLevel.find? name = some value ∧
    (name, value.format) ∈ Tfvars.generatedEntries stack ∧
    ∀ existing, Tfvars.render stack existing =
        some (Text.unlines ((Tfvars.mergedEntries stack existing).map Tfvars.entryText)) ∧
      (Tfvars.mergedEntries stack existing).filter (fun entry => entry.1 = name) =
        [(name, value.format)]

/-- What is handed on is declared and has its value among the values. The tests for the three are
made apart from each other, and what passes the first passes the others. -/
theorem HandsOn.presents (hhandsOn : HandsOn stack module name) : Presents stack name := by
  obtain ⟨variable_, hvariable⟩ := Option.isSome_iff_exists.mp hhandsOn.declared
  obtain ⟨value, hvalue⟩ := Option.isSome_iff_exists.mp hhandsOn.given
  have hfound : (Tfvars.generated stack).find? name = some value :=
    Tfvars.find?_generated hvalue (contains_allVariables.mpr (.inl hhandsOn.declared))
      (Tfvars.endsWith_providerEnding_of_common hhandsOn.common)
  constructor
  · have hkept : (allVariables stack.declared stack.topLevel).find? name = some variable_ :=
      find?_allVariables_of_declared hvariable
    have hentry := OrderedMap.find?_eq_some_iff.mp hkept
    exact ⟨variable_, hvariable, List.mem_map.mpr ⟨(name, variable_), hentry, rfl⟩⟩
  · refine ⟨value, hvalue, List.mem_map_of_mem (OrderedMap.find?_eq_some_iff.mp hfound), ?_⟩
    intro existing
    exact ⟨Tfvars.render_of_find?_generated hfound existing, Tfvars.filter_mergedEntries hfound existing⟩

/-- An enabled module has its place among the modules of a generation. -/
theorem Stack.mem_modulesNamed {order : List String} {modules : List Module} {key : String}
    (hnamed : stack.modulesNamed order = .ok modules) (hkey : key ∈ order)
    (hmodule : stack.modules.find? key = some module) : module ∈ modules := by
  have hfound : stack.modules.find? key ∈ order.map stack.modules.find? := List.mem_map_of_mem hkey
  rw [Stack.modulesNamed_eq_ok hnamed, hmodule] at hfound
  obtain ⟨_, hmem, heq⟩ := List.mem_map.mp hfound
  exact Option.some.inj heq ▸ hmem

/-- How a generation gives common variables to a module. -/
structure Forwards (stack : Stack) (conventions : Conventions) (modules : List Module)
    (module : Module) : Prop where
  block : module.block stack.topLevel stack.declared ∈ stack.mainBlocks conventions modules
  text : (module.block stack.topLevel stack.declared).text =
    Text.unlines (argumentLines (moduleHead module.name)
      (module.block stack.topLevel stack.declared).arguments)
  handsOn_iff : ∀ name,
    name ∈ forwardedVariables module stack.topLevel stack.declared ↔ HandsOn stack module name
  /-- What the lines of the block assign to common variables. -/
  assigns_iff : ∀ name ∈ commonVariables, ∀ expression,
    (name, expression) ∈ (module.block stack.topLevel stack.declared).arguments ↔
      HandsOn stack module name ∧ expression = variableReference name ∨
        ∃ value, module.inputs.find? name = some value ∧ value.format = expression
  distinct : (forwardedVariables module stack.topLevel stack.declared ++ module.inputs.keys).Nodup

/-- A generation gives each of its modules what the stack hands on to it. -/
theorem forwards_of_mem {conventions : Conventions} {modules : List Module}
    (hmodule : module ∈ modules) : Forwards stack conventions modules module where
  block := List.mem_cons_of_mem _ (List.mem_append_right _ (List.mem_map_of_mem hmodule))
  text := by rw [Module.block_eq, text_argumentBlock, arguments_argumentBlock]
  handsOn_iff _ := mem_forwardedVariables_iff
  assigns_iff name hcommon expression := by
    rw [Module.block_eq, arguments_argumentBlock]
    exact mem_moduleArguments_iff hcommon
  distinct := nodup_forwardedVariables_append stack module

/-- In every generation each enabled module gets the common variables that the stack has a value for
and declares and that the module leaves open, and no others. What it gets is declared in the file
with the variables, and is an entry of the values with the value that the stack has for it. -/
theorem generate_forwards_variables {conventions : Conventions} {generated : Generated}
    (hgenerate : stack.generate conventions = .ok generated) {key : String}
    (hmodule : stack.modules.find? key = some module) (henabled : module.enabled = true) :
    ∃ modules, stack.modulesNamed generated.order = .ok modules ∧ module ∈ modules ∧
      generated.artifacts.main = fileText (stack.mainBlocks conventions modules) ∧
      generated.artifacts.declarations = fileText (variableBlocks stack.declared stack.topLevel) ∧
      Forwards stack conventions modules module ∧
      ∀ name, HandsOn stack module name → Presents stack name := by
  obtain ⟨modules, hnamed, hartifacts⟩ := Stack.blocks_of_generate hgenerate
  have hkey : key ∈ generated.order :=
    ((Stack.sorted_of_generate hgenerate).mem_iff key).mpr ⟨module, hmodule, henabled⟩
  have hmem := Stack.mem_modulesNamed hnamed hkey hmodule
  exact ⟨modules, hnamed, hmem, by rw [hartifacts], by rw [hartifacts], forwards_of_mem hmem,
    fun name => HandsOn.presents⟩

/-- A network that sets its environment itself. -/
def networkModule : Module :=
  (Module.ofAddress "vpc" "./vpc").withInput "environment" (.string "prod")

/-- A stack that has a zone which it does not declare, and declares a project which it does not
have. -/
def sharingStack : Stack where
  modules := .ofList [("vpc", networkModule)]
  declared := .ofList [("region", {}), ("environment", {}), ("project", {})]
  topLevel := .ofList [("region", .string "us-east-1"), ("environment", .string "dev"),
    ("zone", .string "us-east-1a")]

/-- The network gets the region, and nothing else. The region that stood among the values gives way. -/
theorem sharingStack_forwards :
    ∃ generated modules, sharingStack.generate = .ok generated ∧
      sharingStack.modules.find? "vpc" = some networkModule ∧ networkModule.enabled = true ∧
      Forwards sharingStack .standard modules networkModule ∧
      HandsOn sharingStack networkModule "region" ∧ Presents sharingStack "region" ∧
      (networkModule.block sharingStack.topLevel sharingStack.declared).arguments =
        [("source", "\"../vpc\""), ("region", "var.region"), ("environment", "\"prod\"")] ∧
      Tfvars.render sharingStack (some "team = 1\nregion = \"old\"") =
        some "region = \"us-east-1\"\nenvironment = \"dev\"\nzone = \"us-east-1a\"\nteam = 1" := by
  obtain ⟨generated, hgenerate⟩ : ∃ generated, sharingStack.generate = .ok generated := ⟨_, rfl⟩
  have hmodule : sharingStack.modules.find? "vpc" = some networkModule := rfl
  obtain ⟨modules, -, -, -, -, hforwards, hpresents⟩ :=
    generate_forwards_variables hgenerate hmodule rfl
  have hregion : HandsOn sharingStack networkModule "region" :=
    (hforwards.handsOn_iff "region").mp (by decide)
  refine ⟨generated, modules, hgenerate, hmodule, rfl, hforwards, hregion, hpresents "region" hregion,
    ?_, ?_⟩
  · decide
  · decide +kernel

end TerraStack
