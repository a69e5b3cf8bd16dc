import TerraStack.Proofs.Result
import TerraStack.Proofs.Stack.AddedVariables
import TerraStack.Stack.Artifacts

namespace TerraStack

open Hcl (Item)

/-- The block of a variable says which variable it is of. -/
theorem Variable.block_inj {name other : String} {left right : Variable}
    (hblock : left.block name = right.block other) : name = other := by
  have hhead := (Item.block.inj hblock).1
  simpa [Hcl.head, Text.join, Hcl.quote] using hhead

/-- There is a block for the variable among the blocks of a stack. -/
def Declares (stack : Stack) (name : String) : Prop :=
  ∃ variable_ : Variable, variable_.block name ∈ variableBlocks stack.declared stack.topLevel

/-- There is a block for a variable exactly if it is among the variables of the stack. -/
theorem declares_iff {stack : Stack} {name : String} :
    Declares stack name ↔ (allVariables stack.declared stack.topLevel).contains name = true := by
  rw [OrderedMap.contains_iff_mem_keys]
  constructor
  · rintro ⟨variable_, hblock⟩
    obtain ⟨⟨other, found⟩, hfound, heq⟩ := List.mem_map.mp hblock
    exact Variable.block_inj heq ▸ List.mem_map_of_mem hfound
  · intro hname
    obtain ⟨⟨other, found⟩, hfound, rfl⟩ := List.mem_map.mp hname
    exact ⟨found, List.mem_map_of_mem hfound⟩

/-- The settings that a stack gives a provider itself. -/
def Stack.ownSettings (stack : Stack) (provider : String) : OrderedMap String Hcl.Value :=
  (stack.providerConfigs.find? provider).getD ∅

/-- The generator refers to a variable on its own, in the block of a provider or of a module. -/
inductive Injects (stack : Stack) (conventions : Conventions) (modules : List Module)
    (name : String) : Prop
  | convention (provider setting : String)
      (hrequired : provider ∈ stack.terraform.requiredProviders.keys)
      (hinjected : (setting, name) ∈
        injectedSettings (conventions.of provider) (stack.ownSettings provider) stack.topLevel)
  | forwarded (module : Module) (hmodule : module ∈ modules)
      (hforwarded : name ∈ forwardedVariables module stack.topLevel stack.declared)

/-- Some block has an argument that is a reference to the variable. -/
def RefersTo (blocks : List Item) (name : String) : Prop :=
  ∃ head items argument, Item.block head items ∈ blocks ∧
    Item.argument argument (variableReference name) ∈ items

/-- What is injected is referred to in some block. -/
theorem Injects.refersTo {stack : Stack} {conventions : Conventions} {modules : List Module}
    {name : String} (hinjects : Injects stack conventions modules name) :
    RefersTo (stack.mainBlocks conventions modules) name := by
  cases hinjects with
  | convention provider setting hrequired hinjected =>
    have hblock : providerBlock provider (conventions.of provider) (stack.ownSettings provider)
        stack.topLevel ∈ stack.mainBlocks conventions modules := by
      have hproviders : _ ∈ providerBlocks stack conventions := List.mem_map_of_mem hrequired
      simp only [Stack.mainBlocks, List.mem_cons, List.mem_append]
      exact .inr (.inl (.inl (.inl hproviders)))
    exact ⟨_, _, setting, hblock, List.mem_append_right _ (List.mem_map_of_mem hinjected)⟩
  | forwarded module hmodule hforwarded =>
    have hblock : module.block stack.topLevel stack.declared ∈ stack.mainBlocks conventions modules :=
      List.mem_cons_of_mem _ (List.mem_append_right _ (List.mem_map_of_mem hmodule))
    refine ⟨_, _, name, hblock, ?_⟩
    simp only [List.mem_append]
    exact .inl (.inl (.inr (List.mem_map_of_mem hforwarded)))

/-- A setting is injected by a convention that the section leaves open, with the first of its keys
that the root has. -/
theorem mem_injectedSettings {conventions : List Convention}
    {own topLevel : OrderedMap String Hcl.Value} {setting name : String} :
    (setting, name) ∈ injectedSettings conventions own topLevel ↔
      ∃ convention ∈ conventions, convention.setting = setting ∧
        own.contains setting = false ∧ convention.select topLevel.contains = some name := by
  unfold injectedSettings
  rw [List.mem_filterMap]
  refine exists_congr fun convention => and_congr_right fun _ => ?_
  split
  · next hown =>
    refine iff_of_false (Option.some_ne_none _).symm ?_
    rintro ⟨rfl, hopen, -⟩
    exact Bool.false_ne_true (hopen.symm.trans hown)
  · next hopen =>
    rw [Bool.not_eq_true] at hopen
    rw [Option.map_eq_some_iff]
    grind

/-- The key that a convention takes is one of its own, and is there. -/
theorem Convention.mem_keys_of_select {convention : Convention} {isPresent : String → Bool}
    {name : String} (hselect : convention.select isPresent = some name) :
    name ∈ convention.keys ∧ isPresent name = true :=
  ⟨List.mem_of_find?_eq_some hselect, List.find?_some hselect⟩

/-- A convention stands in the table under its provider. -/
theorem Conventions.mem_entries_of_mem {conventions : Conventions} {provider : String}
    {convention : Convention} (hmem : convention ∈ conventions.of provider) :
    (provider, conventions.of provider) ∈ conventions.entries := by
  unfold Conventions.of at hmem ⊢
  cases hfound : conventions.find? provider with
  | none => simp [hfound] at hmem
  | some found => exact OrderedMap.find?_eq_some_iff.mp hfound

/-- An injected variable is declared, unless a convention takes it from a key that is not well
known. -/
theorem Injects.declares_or {stack : Stack} {conventions : Conventions} {modules : List Module}
    {name : String} (hinjects : Injects stack conventions modules name) :
    Declares stack name ∨
      ∃ provider ∈ stack.terraform.requiredProviders.keys, ∃ convention ∈ conventions.of provider,
        (stack.ownSettings provider).contains convention.setting = false ∧
        name ∈ convention.keys ∧ stack.topLevel.contains name = true ∧
        name ∉ wellKnownVariables.map WellKnownVariable.name := by
  rw [declares_iff, contains_allVariables]
  cases hinjects with
  | convention provider setting hrequired hinjected =>
    obtain ⟨convention, hconvention, rfl, hopen, hselect⟩ := mem_injectedSettings.mp hinjected
    obtain ⟨hkey, hgiven⟩ := Convention.mem_keys_of_select hselect
    -- The key has a value, so to be well known is enough for it to be declared.
    by_cases hknown : name ∈ wellKnownVariables.map WellKnownVariable.name
    · exact .inl (.inr ⟨hgiven, hknown⟩)
    · exact .inr ⟨provider, hrequired, convention, hconvention, hopen, hkey, hgiven, hknown⟩
  | forwarded module hmodule hforwarded =>
    -- Modules get only what the stack declares, so here no table has to know the variable.
    have hgiven := (List.mem_filter.mp hforwarded).2
    rw [Bool.and_eq_true, Bool.and_eq_true] at hgiven
    exact .inl (.inl hgiven.1.2)

/-- The key of the standard conventions that no table of variables knows. -/
def awsRegion : String := "aws_region"

/-- The standard conventions look for well-known variables only, but for the one key that gives
`aws` its region. -/
theorem Conventions.wellKnown_of_mem_standard {provider key : String} {convention : Convention}
    (hmem : convention ∈ Conventions.standard.of provider) (hkey : key ∈ convention.keys) :
    key ∈ wellKnownVariables.map WellKnownVariable.name ∨
      provider = "aws" ∧ convention.setting = "region" ∧ key = awsRegion := by
  -- Only here are the tables of conventions and of variables compared.
  have htable : ∀ entry ∈ Conventions.standard.entries, ∀ convention ∈ entry.2,
      ∀ key ∈ convention.keys, key ∈ wellKnownVariables.map WellKnownVariable.name ∨
        entry.1 = "aws" ∧ convention.setting = "region" ∧ key = awsRegion := by decide
  exact htable _ (Conventions.mem_entries_of_mem hmem) convention hmem key hkey

/-- A stack that gives the region of `aws` under the key of its own that conventions look for, and
declares no such variable. -/
structure TakesUndeclaredRegion (stack : Stack) : Prop where
  required : "aws" ∈ stack.terraform.requiredProviders.keys
  isOpen : (stack.ownSettings "aws").contains "region" = false
  given : stack.topLevel.contains awsRegion = true
  undeclared : stack.declared.contains awsRegion = false

/-- The key for the region of `aws` is in the table of conventions and not in the table of
variables. -/
theorem awsRegion_not_wellKnown : awsRegion ∉ wellKnownVariables.map WellKnownVariable.name := by
  decide

/-- Under the standard conventions the region of `aws` is the only variable that can be injected
without a declaration. -/
theorem Injects.takesUndeclaredRegion {stack : Stack} {modules : List Module} {name : String}
    (hinjects : Injects stack .standard modules name) (hundeclared : ¬ Declares stack name) :
    name = awsRegion ∧ TakesUndeclaredRegion stack := by
  obtain ⟨provider, hrequired, convention, hconvention, hopen, hkey, hgiven, hunknown⟩ :=
    hinjects.declares_or.resolve_left hundeclared
  obtain ⟨rfl, hsetting, rfl⟩ :=
    (Conventions.wellKnown_of_mem_standard hconvention hkey).resolve_left hunknown
  rw [declares_iff, contains_allVariables, not_or, Bool.not_eq_true] at hundeclared
  exact ⟨rfl, {
    required := hrequired
    isOpen := hsetting ▸ hopen
    given := hgiven
    undeclared := hundeclared.1 }⟩

/-- A stack that gives the region in that way has it injected. -/
theorem TakesUndeclaredRegion.injects {stack : Stack} (htakes : TakesUndeclaredRegion stack)
    (modules : List Module) : Injects stack .standard modules awsRegion := by
  have hconvention : ⟨"region", [awsRegion, "region"]⟩ ∈ Conventions.standard.of "aws" := by decide
  refine .convention "aws" "region" htakes.required
    (mem_injectedSettings.mpr ⟨_, hconvention, rfl, htakes.isOpen, ?_⟩)
  exact List.find?_cons_of_pos htakes.given

theorem TakesUndeclaredRegion.not_declares {stack : Stack} (htakes : TakesUndeclaredRegion stack) :
    ¬ Declares stack awsRegion := by
  rw [declares_iff, contains_allVariables, not_or, Bool.not_eq_true]
  exact ⟨htakes.undeclared, fun hknown => awsRegion_not_wellKnown hknown.2⟩

/-- The files of a generation are the texts of blocks. -/
theorem Stack.blocks_of_generate {stack : Stack} {conventions : Conventions} {generated : Generated}
    (hgenerate : stack.generate conventions = .ok generated) :
    ∃ modules, stack.modulesNamed generated.order = .ok modules ∧
      generated.artifacts = {
        main := fileText (stack.mainBlocks conventions modules)
        declarations := fileText (variableBlocks stack.declared stack.topLevel)
        outputs := fileText (outputBlocks modules stack.outputs) } := by
  obtain ⟨order, -, hgenerate⟩ := bind_eq_ok.mp hgenerate
  obtain ⟨artifacts, hartifacts, hgenerate⟩ := bind_eq_ok.mp hgenerate
  obtain ⟨modules, hmodules, hartifacts⟩ := bind_eq_ok.mp hartifacts
  obtain rfl := Except.ok.inj hgenerate
  refine ⟨modules, hmodules, ?_⟩
  rw [← Stack.mainText_eq_fileText]
  exact (Except.ok.inj hartifacts).symm

/-- All variables that a generation refers to on its own are declared in it, unless the stack takes
an undeclared region. The region is then the only such variable. -/
theorem generate_declares_iff {stack : Stack} {generated : Generated}
    (hgenerate : stack.generate = .ok generated) :
    ∃ modules, stack.modulesNamed generated.order = .ok modules ∧
      generated.artifacts.main = fileText (stack.mainBlocks .standard modules) ∧
      generated.artifacts.declarations = fileText (variableBlocks stack.declared stack.topLevel) ∧
      (∀ name, Injects stack .standard modules name →
        RefersTo (stack.mainBlocks .standard modules) name) ∧
      ((∀ name, Injects stack .standard modules name → Declares stack name) ↔
        ¬ TakesUndeclaredRegion stack) ∧
      ∀ name, Injects stack .standard modules name → ¬ Declares stack name → name = awsRegion := by
  obtain ⟨modules, hmodules, hartifacts⟩ := Stack.blocks_of_generate hgenerate
  refine ⟨modules, hmodules, by rw [hartifacts], by rw [hartifacts], fun _ => Injects.refersTo,
    ⟨?_, ?_⟩, fun name hinjects hundeclared => (hinjects.takesUndeclaredRegion hundeclared).1⟩
  · intro hdeclares htakes
    exact htakes.not_declares (hdeclares awsRegion (htakes.injects modules))
  · intro hregion name hinjects
    refine Classical.byContradiction fun hundeclared => ?_
    exact hregion (hinjects.takesUndeclaredRegion hundeclared).2

/-- A network for `google`, in a stack that declares its region and not its project. -/
def networkStack : Stack where
  terraform := { requiredProviders := .ofList [("google", ∅)] }
  modules := .ofList [("network", .ofAddress "network" "./network")]
  declared := .ofList [("region", {})]
  topLevel := .ofList [("project_id", .string "acme"), ("region", .string "us-east1")]

/-- Both the project and the region of the network are declared. -/
theorem networkStack_declares :
    ∃ generated modules, networkStack.generate = .ok generated ∧
      networkStack.modulesNamed generated.order = .ok modules ∧
      Injects networkStack .standard modules "project_id" ∧
      Injects networkStack .standard modules "region" ∧
      ∀ name, Injects networkStack .standard modules name → Declares networkStack name := by
  obtain ⟨generated, hgenerate⟩ : ∃ generated, networkStack.generate = .ok generated := ⟨_, rfl⟩
  obtain ⟨modules, hmodules, -, -, -, hdeclares, -⟩ := generate_declares_iff hgenerate
  have hother : ¬ TakesUndeclaredRegion networkStack := fun htakes =>
    absurd htakes.required (by decide)
  refine ⟨generated, modules, hgenerate, hmodules, ?_, ?_, hdeclares.mpr hother⟩
  · exact .convention "google" "project" (by decide) (by decide)
  · exact .convention "google" "region" (by decide) (by decide)

/-- A stack that gives a region to `aws` and has nothing else. -/
def awsStack : Stack where
  terraform := {
    requiredProviders := .ofList [("aws", .ofList [("source", .string "hashicorp/aws")])] }
  topLevel := .ofList [("aws_region", .string "eu-west-1")]

/-- The block of `aws` refers to a variable, and no variable is declared. -/
theorem awsStack_undeclared :
    ∃ generated, awsStack.generate = .ok generated ∧
      Injects awsStack .standard [] "aws_region" ∧ ¬ Declares awsStack "aws_region" ∧
      generated.artifacts = {
        main := "terraform \x7b\n  required_version = \">= 1.0\"\n  required_providers \x7b\n" ++
          "    aws = \x7b\n      source = \"hashicorp/aws\"\n    \x7d\n  \x7d\n\x7d\n\n" ++
          "provider \"aws\" \x7b\n  region = var.aws_region\n\x7d\n"
        declarations := ""
        outputs := "" } := by
  refine ⟨_, rfl, ?_, ?_, ?_⟩
  · exact .convention "aws" "region" (by decide) (by decide)
  · rw [declares_iff]
    decide
  · decide +kernel

end TerraStack
