import TerraStack.Proofs.Hcl.BlockText
import TerraStack.Proofs.Stack.ModuleBlocks

namespace TerraStack

open Hcl (AreTidy Item Value areTidy_alignedArguments areTidy_append areTidy_cons areTidy_flatMap
  areTidy_map areTidy_nil isFeedFree_head isFeedFree_head_singleton isParagraph_format
  isParagraph_quote isTidy_quoted)
open Text (AreFeedFree IsFeedFree IsParagraph HasNoBlankLine areFeedFree_append areFeedFree_cons
  areFeedFree_flatMap isFeedFree_append)

/-- The keys of a map and the strings in its values. -/
def OrderedMap.texts {α : Type} (textsOf : α → List String) (map : OrderedMap String α) :
    List String :=
  map.entries.flatMap fun entry => entry.1 :: textsOf entry.2

/-- The strings of a backend. -/
def Backend.texts (backend : Backend) : List String :=
  backend.type :: backend.settings.texts Value.texts

/-- The strings of the section with the settings. -/
def Settings.texts (settings : Settings) : List String :=
  settings.requiredVersion :: (settings.requiredProviders.texts (·.texts Value.texts)
    ++ settings.backend.toList.flatMap Backend.texts)

/-- The strings of a module. -/
def Module.texts (module : Module) : List String :=
  module.name :: module.source.address :: (module.version.toList ++ module.dependsOn
    ++ module.inputs.texts Value.texts ++ module.outputs)

/-- The strings of a validation. -/
def Validation.texts (validation : Validation) : List String :=
  validation.condition.toList ++ validation.errorMessage.toList

/-- The strings of a variable. -/
def Variable.texts (variable_ : Variable) : List String :=
  variable_.description.toList ++ variable_.type.toList
    ++ variable_.default.toList.flatMap Value.texts
    ++ variable_.validation.toList.flatMap Validation.texts

/-- The strings of an output. -/
def Output.texts (output : Output) : List String :=
  output.description.toList ++ output.value.toList

/-- The strings of a data source. -/
def DataSource.texts (source : DataSource) : List String :=
  source.type :: source.name :: source.config.texts Value.texts

/-- All strings of a stack: names, keys, expressions, and strings in values at every depth. -/
def Stack.texts (stack : Stack) : List String :=
  stack.terraform.texts ++ stack.modules.texts Module.texts ++ stack.declared.texts Variable.texts
    ++ stack.outputs.texts Output.texts ++ stack.locals.texts Value.texts
    ++ stack.dataSources.flatMap DataSource.texts
    ++ stack.providerConfigs.texts (·.texts Value.texts) ++ stack.topLevel.texts Value.texts

/-- The strings of a convention. -/
def Convention.texts (convention : Convention) : List String :=
  convention.setting :: convention.keys

/-- The strings of a table of conventions. -/
def Conventions.texts (conventions : Conventions) : List String :=
  OrderedMap.texts (·.flatMap Convention.texts) conventions

section map

variable {α : Type} {textsOf : α → List String} {map : OrderedMap String α}

/-- A map has no line feed in its strings if no key has one and no value does. -/
theorem areFeedFree_texts : AreFeedFree (map.texts textsOf) ↔
    ∀ entry ∈ map.entries, IsFeedFree entry.1 ∧ AreFeedFree (textsOf entry.2) := by
  unfold OrderedMap.texts
  rw [areFeedFree_flatMap]
  simp only [areFeedFree_cons]

theorem areFeedFree_of_find? (hmap : AreFeedFree (map.texts textsOf)) {key : String} {value : α}
    (hvalue : map.find? key = some value) : AreFeedFree (textsOf value) :=
  (areFeedFree_texts.mp hmap _ (OrderedMap.find?_eq_some_iff.mp hvalue)).2

theorem isFeedFree_of_mem_keys (hmap : AreFeedFree (map.texts textsOf)) {key : String}
    (hkey : key ∈ map.keys) : IsFeedFree key := by
  obtain ⟨entry, hentry, rfl⟩ := List.mem_map.mp hkey
  exact (areFeedFree_texts.mp hmap entry hentry).1

end map

theorem isFeedFree_getD {text? : Option String} (htexts : AreFeedFree text?.toList) {fallback : String}
    (hfallback : IsFeedFree fallback) : IsFeedFree (text?.getD fallback) := by
  cases text? with
  | none => exact hfallback
  | some text => exact htexts text List.mem_cons_self

/-- No section of a stack has a string with a line feed. -/
structure Stack.SectionsFeedFree (stack : Stack) : Prop where
  terraform : AreFeedFree stack.terraform.texts
  modules : AreFeedFree (stack.modules.texts Module.texts)
  declared : AreFeedFree (stack.declared.texts Variable.texts)
  outputs : AreFeedFree (stack.outputs.texts Output.texts)
  locals : AreFeedFree (stack.locals.texts Value.texts)
  dataSources : ∀ source ∈ stack.dataSources, AreFeedFree source.texts
  providerConfigs : AreFeedFree (stack.providerConfigs.texts (·.texts Value.texts))
  topLevel : AreFeedFree (stack.topLevel.texts Value.texts)

/-- A stack without line feeds has none in any section. -/
theorem Stack.sectionsFeedFree {stack : Stack} (hstack : AreFeedFree stack.texts) :
    stack.SectionsFeedFree := by
  simp only [Stack.texts, areFeedFree_append, areFeedFree_flatMap] at hstack
  obtain ⟨⟨⟨⟨⟨⟨⟨hterraform, hmodules⟩, hdeclared⟩, houtputs⟩, hlocals⟩, hdataSources⟩, hconfigs⟩,
    htopLevel⟩ := hstack
  exact ⟨hterraform, hmodules, hdeclared, houtputs, hlocals, hdataSources, hconfigs, htopLevel⟩

/-- Settings without line feeds become tidy arguments. -/
theorem areTidy_itemsOfSettings {settings : OrderedMap String Value}
    (hsettings : AreFeedFree (settings.texts Value.texts)) :
    AreTidy (Hcl.itemsOfSettings settings) := by
  refine areTidy_map.mpr fun entry hentry => ?_
  obtain ⟨hname, hvalue⟩ := areFeedFree_texts.mp hsettings entry hentry
  exact .argument hname (isParagraph_format hvalue).toHasNoBlankLine

/-- A value that is written without quotes brings no blank line. -/
theorem hasNoBlankLine_plain {value : Value} (hvalue : AreFeedFree value.texts) :
    HasNoBlankLine value.plain.toList := by
  cases value with
  | string text => exact (hvalue text List.mem_cons_self).hasNoBlankLine
  | _ => exact (isParagraph_format hvalue).toHasNoBlankLine

/-- The block with the settings is tidy. -/
theorem Settings.isTidy_block {settings : Settings} (hsettings : AreFeedFree settings.texts) :
    settings.block.IsTidy := by
  simp only [Settings.texts, areFeedFree_cons, areFeedFree_append, areFeedFree_flatMap] at hsettings
  obtain ⟨hversion, hrequired, hbackend⟩ := hsettings
  refine .block (by decide) (areTidy_cons.mpr ⟨isTidy_quoted (by decide) hversion.hasNoBlankLine, ?_⟩)
  refine areTidy_append.mpr ⟨?_, areTidy_map.mpr ?_⟩
  · split
    · exact areTidy_nil
    · refine areTidy_cons.mpr ⟨.block (by decide) (areTidy_map.mpr ?_), areTidy_nil⟩
      intro provider hprovider
      obtain ⟨hname, hrequirements⟩ := areFeedFree_texts.mp hrequired provider hprovider
      refine .block (isFeedFree_append.mpr ⟨hname, by decide⟩) (areTidy_map.mpr ?_)
      intro entry hentry
      obtain ⟨hkey, hvalue⟩ := areFeedFree_texts.mp hrequirements entry hentry
      exact isTidy_quoted hkey (hasNoBlankLine_plain hvalue)
  · intro backend hmem
    obtain ⟨htype, hown⟩ := areFeedFree_cons.mp (hbackend backend hmem)
    refine .block (isFeedFree_head_singleton (by decide) htype)
      (areTidy_map.mpr ?_)
    rintro ⟨key, value⟩ hentry
    obtain ⟨hkey, hvalue⟩ := areFeedFree_texts.mp hown _ hentry
    -- Strings are quoted here even where they are references, all other values are as elsewhere.
    cases value with
    | string text => exact isTidy_quoted hkey (hvalue text List.mem_cons_self).hasNoBlankLine
    | _ => exact .argument hkey (isParagraph_format hvalue).toHasNoBlankLine

/-- An argument that refers to a variable is tidy. -/
theorem isTidy_reference {name key : String} (hname : IsFeedFree name) (hkey : IsFeedFree key) :
    (Item.argument name (variableReference key)).IsTidy := by
  have hreference : IsFeedFree (variableReference key) :=
    isFeedFree_append.mpr ⟨by decide, hkey⟩
  exact .argument hname hreference.hasNoBlankLine

/-- The block of a provider is tidy, with its own settings and those of the conventions. -/
theorem isTidy_providerBlock {provider : String} (hprovider : IsFeedFree provider)
    {conventions : List Convention} (hconventions : AreFeedFree (conventions.flatMap Convention.texts))
    {own : OrderedMap String Value} (hown : AreFeedFree (own.texts Value.texts))
    (topLevel : OrderedMap String Value) :
    (providerBlock provider conventions own topLevel).IsTidy := by
  refine .block (isFeedFree_head_singleton (by decide) hprovider) ?_
  refine areTidy_append.mpr ⟨areTidy_itemsOfSettings hown, areTidy_map.mpr ?_⟩
  rintro ⟨setting, key⟩ hinjected
  obtain ⟨convention, hconvention, rfl, -, hselect⟩ := mem_injectedSettings.mp hinjected
  obtain ⟨hsetting, hkeys⟩ :=
    areFeedFree_cons.mp (areFeedFree_flatMap.mp hconventions convention hconvention)
  exact isTidy_reference hsetting (hkeys key (Convention.mem_keys_of_select hselect).1)

theorem areTidy_providerBlocks {stack : Stack} (hstack : stack.SectionsFeedFree)
    {conventions : Conventions} (hconventions : AreFeedFree conventions.texts) :
    AreTidy (providerBlocks stack conventions) := by
  have hterraform := hstack.terraform
  simp only [Settings.texts, areFeedFree_append, areFeedFree_cons] at hterraform
  obtain ⟨-, hrequired, -⟩ := hterraform
  refine areTidy_map.mpr fun provider hprovider => ?_
  refine isTidy_providerBlock (isFeedFree_of_mem_keys hrequired hprovider) ?_ ?_ stack.topLevel
  · unfold Conventions.of
    cases hfound : conventions.find? provider with
    | none => exact nofun
    | some found => exact areFeedFree_of_find? hconventions hfound
  · cases hfound : stack.providerConfigs.find? provider with
    | none => exact nofun
    | some own => exact areFeedFree_of_find? hstack.providerConfigs hfound

/-- The block with the locals is tidy, if there is one. -/
theorem areTidy_localsBlock? {locals : OrderedMap String Value}
    (hlocals : AreFeedFree (locals.texts Value.texts)) : AreTidy (localsBlock? locals).toList := by
  unfold localsBlock?
  split
  · exact areTidy_nil
  · exact areTidy_cons.mpr ⟨.block (by decide) (areTidy_itemsOfSettings hlocals), areTidy_nil⟩

/-- The block of a data source is tidy. -/
theorem DataSource.isTidy_block {source : DataSource} (hsource : AreFeedFree source.texts) :
    source.block.IsTidy := by
  simp only [DataSource.texts, areFeedFree_cons] at hsource
  obtain ⟨htype, hname, hconfig⟩ := hsource
  have hlabels : AreFeedFree [source.type, source.name] :=
    areFeedFree_cons.mpr ⟨htype, areFeedFree_cons.mpr ⟨hname, nofun⟩⟩
  exact .block (isFeedFree_head (by decide) hlabels) (areTidy_itemsOfSettings hconfig)

/-- The common variables have names without line feeds. -/
theorem isFeedFree_of_mem_commonVariables {name : String} (hname : name ∈ commonVariables) :
    IsFeedFree name := by
  have hcommon : AreFeedFree commonVariables := by decide
  exact hcommon name hname

/-- The line that tells what a module needs is tidy. -/
theorem isTidy_needsArgument {names : List String} (hnames : AreFeedFree names) :
    (needsArgument names).IsTidy := by
  have hreferences : IsFeedFree (Text.join ", " (names.map ("module." ++ ·))) := by
    refine Text.isFeedFree_join (by decide) ?_
    intro reference hreference
    obtain ⟨name, hname, rfl⟩ := List.mem_map.mp hreference
    exact isFeedFree_append.mpr ⟨by decide, hnames name hname⟩
  have hlist : IsFeedFree ("[" ++ Text.join ", " (names.map ("module." ++ ·)) ++ "]") := by
    simp only [isFeedFree_append]
    exact ⟨⟨by decide, hreferences⟩, by decide⟩
  exact .argument (by decide) hlist.hasNoBlankLine

/-- The block of a module is tidy. -/
theorem Module.isTidy_block {module : Module} (hmodule : AreFeedFree module.texts)
    (topLevel : OrderedMap String Value) (declared : OrderedMap String Variable) :
    (module.block topLevel declared).IsTidy := by
  simp only [Module.texts, areFeedFree_cons, areFeedFree_append] at hmodule
  obtain ⟨hname, haddress, ⟨⟨hversion, hneeds⟩, hinputs⟩, -⟩ := hmodule
  refine .block (isFeedFree_head_singleton (by decide) hname) (areTidy_append.mpr ⟨?_, ?_⟩)
  · refine areTidy_append.mpr ⟨areTidy_append.mpr ⟨?_, ?_⟩, areTidy_itemsOfSettings hinputs⟩
    · refine areTidy_cons.mpr ⟨isTidy_quoted (by decide) haddress.hasNoBlankLine, areTidy_map.mpr ?_⟩
      intro version hmem
      exact isTidy_quoted (by decide) (hversion version hmem).hasNoBlankLine
    · refine areTidy_map.mpr fun name hforwarded => ?_
      have hcommon := isFeedFree_of_mem_commonVariables (List.mem_filter.mp hforwarded).1
      exact isTidy_reference hcommon hcommon
  · split
    · exact areTidy_nil
    · exact areTidy_cons.mpr ⟨isTidy_needsArgument hneeds, areTidy_nil⟩

/-- The block that hands on an output of a module is tidy. -/
theorem isTidy_moduleOutputBlock {module output : String} (hmodule : IsFeedFree module)
    (houtput : IsFeedFree output) : (moduleOutputBlock module output).IsTidy := by
  have hlabel : IsFeedFree (module ++ "_" ++ output) := by
    simp only [isFeedFree_append]
    exact ⟨⟨hmodule, by decide⟩, houtput⟩
  have hdescription : IsFeedFree (output ++ " from " ++ module ++ " module") := by
    simp only [isFeedFree_append]
    exact ⟨⟨⟨houtput, by decide⟩, hmodule⟩, by decide⟩
  have hvalue : IsFeedFree ("module." ++ module ++ "." ++ output) := by
    simp only [isFeedFree_append]
    exact ⟨⟨⟨by decide, hmodule⟩, by decide⟩, houtput⟩
  refine .block (isFeedFree_head_singleton (by decide) hlabel) (areTidy_cons.mpr ⟨?_, ?_⟩)
  · exact isTidy_quoted (by decide) hdescription.hasNoBlankLine
  · exact areTidy_cons.mpr ⟨.argument (by decide) hvalue.hasNoBlankLine, areTidy_nil⟩

/-- The argument that marks what is not to be shown is tidy. -/
theorem areTidy_sensitive (sensitive : Bool) :
    AreTidy (if sensitive then [.argument "sensitive" "true"] else []) := by
  have htrue : IsFeedFree "true" := by decide
  cases sensitive with
  | false => exact areTidy_nil
  | true => exact areTidy_cons.mpr ⟨.argument (by decide) htrue.hasNoBlankLine, areTidy_nil⟩

/-- The block of an output is tidy. -/
theorem Output.isTidy_block {name : String} (hname : IsFeedFree name) {output : Output}
    (houtput : AreFeedFree output.texts) : (output.block name).IsTidy := by
  obtain ⟨hdescription, hvalue⟩ := areFeedFree_append.mp houtput
  have hexpression : IsFeedFree (output.value.getD "null") := isFeedFree_getD hvalue (by decide)
  refine .block (isFeedFree_head_singleton (by decide) hname) (areTidy_append.mpr ⟨?_, ?_⟩)
  · refine areTidy_cons.mpr ⟨isTidy_quoted (by decide) ?_, ?_⟩
    · exact (isFeedFree_getD hdescription hname).hasNoBlankLine
    · exact areTidy_cons.mpr ⟨.argument (by decide) hexpression.hasNoBlankLine, areTidy_nil⟩
  · exact areTidy_sensitive output.sensitive

/-- The block of a validation is tidy. -/
theorem Validation.isTidy_block {validation : Validation}
    (hvalidation : AreFeedFree validation.texts) : validation.block.IsTidy := by
  obtain ⟨hcondition, hmessage⟩ := areFeedFree_append.mp hvalidation
  have hchecked : IsFeedFree (validation.condition.getD "true") :=
    isFeedFree_getD hcondition (by decide)
  have hshown : IsFeedFree (validation.errorMessage.getD "Invalid value") :=
    isFeedFree_getD hmessage (by decide)
  have hnames : IsFeedFree "condition" ∧ IsFeedFree "error_message" := by decide
  refine .block (by decide) (areTidy_alignedArguments ?_)
  intro argument hmem
  rcases List.mem_pair.mp hmem with rfl | rfl
  · exact ⟨hnames.1, hchecked.hasNoBlankLine⟩
  · exact ⟨hnames.2, (isParagraph_quote hshown.hasNoBlankLine).toHasNoBlankLine⟩

/-- The block of a variable is tidy. -/
theorem Variable.isTidy_block {name : String} (hname : IsFeedFree name) {variable_ : Variable}
    (hvariable : AreFeedFree variable_.texts) : (variable_.block name).IsTidy := by
  simp only [Variable.texts, areFeedFree_append, areFeedFree_flatMap] at hvariable
  obtain ⟨⟨⟨hdescription, htype⟩, hdefault⟩, hvalidation⟩ := hvariable
  refine .block (isFeedFree_head_singleton (by decide) hname) (areTidy_append.mpr ⟨?_, ?_⟩)
  · refine areTidy_append.mpr ⟨areTidy_append.mpr ⟨areTidy_append.mpr ⟨?_, ?_⟩, ?_⟩, ?_⟩
    · refine areTidy_map.mpr fun text hmem => ?_
      exact isTidy_quoted (by decide) (hdescription text hmem).hasNoBlankLine
    · refine areTidy_map.mpr fun expression hmem => ?_
      exact .argument (by decide) (htype expression hmem).hasNoBlankLine
    · refine areTidy_map.mpr fun value hmem => ?_
      exact .argument (by decide) (isParagraph_format (hdefault value hmem)).toHasNoBlankLine
    · exact areTidy_sensitive variable_.sensitive
  · refine areTidy_map.mpr fun validation hmem => ?_
    exact Validation.isTidy_block (hvalidation validation hmem)

/-- The strings in the table's account of a variable. -/
def WellKnownVariable.texts (known : WellKnownVariable) : List String :=
  known.name :: known.description :: known.type :: known.default.toList

/-- A declaration that is made for a well-known variable has a line feed only if the value has. -/
theorem WellKnownVariable.areFeedFree_declaration {known : WellKnownVariable}
    (hknown : AreFeedFree known.texts) {value : Value} (hvalue : AreFeedFree value.texts) :
    AreFeedFree (known.declaration value).texts := by
  simp only [WellKnownVariable.texts, areFeedFree_cons] at hknown
  obtain ⟨-, hdescription, htype, hdefault⟩ := hknown
  have htaken : AreFeedFree ((known.default.map Value.string).getD value).texts := by
    cases hfixed : known.default with
    | none => exact hvalue
    | some text =>
      rw [hfixed] at hdefault
      exact hdefault
  simp only [Variable.texts, WellKnownVariable.declaration, areFeedFree_append, areFeedFree_flatMap,
    Option.toList_some, Option.toList_none, List.forall_mem_singleton, areFeedFree_cons]
  have hnone : AreFeedFree [] := List.forall_mem_nil _
  exact ⟨⟨⟨⟨hdescription, hnone⟩, htype, hnone⟩, htaken⟩, List.forall_mem_nil _⟩

theorem areFeedFree_allVariables {topLevel : OrderedMap String Value}
    (htopLevel : AreFeedFree (topLevel.texts Value.texts)) {declared : OrderedMap String Variable}
    (hdeclared : AreFeedFree (declared.texts Variable.texts)) :
    AreFeedFree ((allVariables declared topLevel).texts Variable.texts) := by
  have htable : ∀ known ∈ wellKnownVariables, AreFeedFree known.texts := by decide
  refine areFeedFree_texts.mpr fun entry hentry => ?_
  rw [entries_allVariables] at hentry
  rcases List.mem_append.mp hentry with hown | hadded
  · exact areFeedFree_texts.mp hdeclared entry hown
  · obtain ⟨known, hmem, value, hvalue, rfl⟩ := exists_known_of_mem_addedVariables hadded
    have hknown := htable known hmem
    have hgiven := areFeedFree_of_find? htopLevel hvalue
    exact ⟨hknown known.name List.mem_cons_self,
      WellKnownVariable.areFeedFree_declaration hknown hgiven⟩

/-- All blocks of the main file are tidy. -/
theorem areTidy_mainBlocks {stack : Stack} (hstack : stack.SectionsFeedFree)
    {conventions : Conventions} (hconventions : AreFeedFree conventions.texts)
    {modules : List Module} (hmodules : ∀ module ∈ modules, AreFeedFree module.texts) :
    AreTidy (stack.mainBlocks conventions modules) := by
  have hproviders := areTidy_providerBlocks hstack hconventions
  refine areTidy_cons.mpr ⟨Settings.isTidy_block hstack.terraform, ?_⟩
  refine areTidy_append.mpr ⟨areTidy_append.mpr ⟨areTidy_append.mpr ⟨hproviders, ?_⟩, ?_⟩, ?_⟩
  · exact areTidy_localsBlock? hstack.locals
  · refine areTidy_map.mpr fun source hsource => ?_
    exact DataSource.isTidy_block (hstack.dataSources source hsource)
  · refine areTidy_map.mpr fun module hmodule => ?_
    exact Module.isTidy_block (hmodules module hmodule) stack.topLevel stack.declared

/-- All blocks of the file with the declarations are tidy. -/
theorem areTidy_variableBlocks {stack : Stack} (hstack : stack.SectionsFeedFree) :
    AreTidy (variableBlocks stack.declared stack.topLevel) := by
  have hvariables := areFeedFree_allVariables hstack.topLevel hstack.declared
  refine areTidy_map.mpr fun entry hentry => ?_
  obtain ⟨hname, hvariable⟩ := areFeedFree_texts.mp hvariables entry hentry
  exact Variable.isTidy_block hname hvariable

/-- All blocks of the file with the outputs are tidy. -/
theorem areTidy_outputBlocks {stack : Stack} (hstack : stack.SectionsFeedFree)
    {modules : List Module} (hmodules : ∀ module ∈ modules, AreFeedFree module.texts) :
    AreTidy (outputBlocks modules stack.outputs) := by
  refine areTidy_append.mpr ⟨areTidy_flatMap.mpr ?_, areTidy_map.mpr ?_⟩
  · intro module hmodule
    have hmodule := hmodules module hmodule
    simp only [Module.texts, areFeedFree_cons, areFeedFree_append] at hmodule
    obtain ⟨hname, -, -, hhandedOn⟩ := hmodule
    exact areTidy_map.mpr fun output houtput =>
      isTidy_moduleOutputBlock hname (hhandedOn output houtput)
  · intro entry hentry
    obtain ⟨hname, houtput⟩ := areFeedFree_texts.mp hstack.outputs entry hentry
    exact Output.isTidy_block hname houtput

/-- The paragraphs of a file, which ends with a line feed unless it is empty. An empty file has
none. -/
def fileParagraphs? (file : String) : Option (List String) :=
  if file = "" then some [] else (Text.beforeEnd? "\n" file).map Text.splitParagraphs

/-- A file of tidy blocks has their texts for its paragraphs. -/
theorem fileParagraphs?_fileText {blocks : List Item} (hblocks : AreTidy blocks) :
    fileParagraphs? (fileText blocks) = some (blocks.map Item.text) := by
  by_cases hnil : blocks = []
  · rw [hnil]
    rfl
  have hparagraphs : ∀ text ∈ blocks.map Item.text, IsParagraph text.toList := by
    intro text htext
    obtain ⟨block, hblock, rfl⟩ := List.mem_map.mp htext
    exact (hblocks block hblock).isParagraph_text
  have hsplit : Text.splitParagraphs (blocksText blocks) = blocks.map Item.text := by
    refine Text.splitParagraphs_paragraphs (by simpa using hnil) ?_
    intro text htext
    exact (hparagraphs text htext).toHasNoBlankLine
  unfold fileParagraphs? fileText endText
  rw [if_neg (blocksText_ne_empty hnil), if_neg (by simp), Text.beforeEnd?_append, Option.map_some, hsplit]

/-- Modules that are found in a stack without line feeds have none. -/
theorem areFeedFree_modules {stack : Stack} (hstack : stack.SectionsFeedFree) {order : List String}
    {modules : List Module} (hfound : order.map stack.modules.find? = modules.map some) :
    ∀ module ∈ modules, AreFeedFree module.texts := by
  intro module hmodule
  obtain ⟨name, -, hname⟩ := mem_of_map_eq_map_some hfound hmodule
  exact areFeedFree_of_find? hstack.modules hname

/-- There is a block with locals exactly if there are some. -/
theorem texts_localsBlock? (locals : OrderedMap String Value) :
    (localsBlock? locals).toList.map Item.text =
      if locals.isEmpty then [] else [(Item.block "locals" (Hcl.itemsOfSettings locals)).text] := by
  unfold localsBlock?
  split
  · rfl
  · rfl

/-- Cut at their blank lines, the generated files fall into the texts of the blocks: none is lost,
none is run into another, and they are in the order of what they are made from. -/
theorem artifacts_fall_into_blocks {stack : Stack} (hstack : AreFeedFree stack.texts)
    {conventions : Conventions} (hconventions : AreFeedFree conventions.texts) {order : List String}
    {artifacts : Artifacts} (hartifacts : stack.artifacts conventions order = .ok artifacts) :
    ∃ modules : List Module, order.map stack.modules.find? = modules.map some ∧
      fileParagraphs? artifacts.main = some (
        stack.terraform.block.text :: (
          stack.terraform.requiredProviders.keys.map (fun provider =>
            (providerBlock provider (conventions.of provider) (stack.ownSettings provider)
              stack.topLevel).text)
          ++ (if stack.locals.isEmpty then []
            else [(Item.block "locals" (Hcl.itemsOfSettings stack.locals)).text])
          ++ stack.dataSources.map (fun source => source.block.text)
          ++ modules.map fun module => (module.block stack.topLevel stack.declared).text)) ∧
      fileParagraphs? artifacts.declarations =
        some ((allVariables stack.declared stack.topLevel).entries.map fun (name, variable_) =>
          (variable_.block name).text) ∧
      fileParagraphs? artifacts.outputs = some (
        modules.flatMap (fun module => module.outputs.map fun output =>
            (moduleOutputBlock module.name output).text)
          ++ stack.outputs.entries.map fun (name, output) => (output.block name).text) := by
  obtain ⟨modules, hnamed, hartifacts⟩ := bind_eq_ok.mp hartifacts
  obtain rfl := Except.ok.inj hartifacts
  have hfound := Stack.modulesNamed_eq_ok hnamed
  have hsections := Stack.sectionsFeedFree hstack
  have hmodules := areFeedFree_modules hsections hfound
  refine ⟨modules, hfound, ?_, ?_, ?_⟩
  · rw [Stack.mainText_eq_fileText,
      fileParagraphs?_fileText (areTidy_mainBlocks hsections hconventions hmodules)]
    simp only [Stack.mainBlocks, providerBlocks, Stack.ownSettings, List.map_cons, List.map_append,
      List.map_map, texts_localsBlock?, Function.comp_def]
  · rw [fileParagraphs?_fileText (areTidy_variableBlocks hsections)]
    simp only [variableBlocks, List.map_map, Function.comp_def]
  · rw [fileParagraphs?_fileText (areTidy_outputBlocks hsections hmodules)]
    simp only [outputBlocks, List.map_append, List.map_flatMap, List.map_map, Function.comp_def]

/-- A module of a stack in which all that can be empty is. -/
def bareModule : Module :=
  { Module.ofAddress "" "" with
    dependsOn := [""], inputs := .ofList [("", .list [.map [], .map [("", .string "")]])]
    outputs := [""] }

/-- A stack in which all that can be empty is, but for a provider that takes its region from the
root. -/
def bareStack : Stack where
  terraform := {
    requiredProviders := .ofList [("aws", .ofList [("", .map [])]), ("", ∅)]
    backend := some ⟨"", ∅⟩ }
  modules := .ofList [("", bareModule)]
  locals := .ofList [("", .map [])]
  dataSources := [⟨"", "", ∅⟩]
  topLevel := .ofList [("aws_region", .string "")]

/-- No blank line comes of the empty names and the empty maps. -/
theorem bareStack_falls_into_blocks :
    ∃ artifacts, bareStack.artifacts .standard [""] = .ok artifacts ∧
      fileParagraphs? artifacts.main = some [
        "terraform \x7b\n  required_version = \">= 1.0\"\n  required_providers \x7b\n" ++
          "    aws = \x7b\n       = \"\x7b\n  \n\x7d\"\n    \x7d\n     = \x7b\n    \x7d\n  \x7d\n" ++
          "  backend \"\" \x7b\n  \x7d\n\x7d",
        "provider \"aws\" \x7b\n  region = var.aws_region\n\x7d",
        "provider \"\" \x7b\n\x7d",
        "locals \x7b\n   = \x7b\n  \n\x7d\n\x7d",
        "data \"\" \"\" \x7b\n\x7d",
        "module \"\" \x7b\n  source = \"\"\n   = [\x7b\n  \n\x7d, \x7b\n   = \"\"\n\x7d]\n" ++
          "  depends_on = [module.]\n\x7d"] ∧
      artifacts.declarations = "" ∧ fileParagraphs? artifacts.declarations = some [] ∧
      fileParagraphs? artifacts.outputs = some [
        "output \"_\" \x7b\n  description = \" from  module\"\n  value = module..\n\x7d"] := by
  have hstack : AreFeedFree bareStack.texts := by decide
  have hconventions : AreFeedFree Conventions.standard.texts := by decide
  obtain ⟨artifacts, hartifacts⟩ :
      ∃ artifacts, bareStack.artifacts .standard [""] = .ok artifacts := ⟨_, rfl⟩
  obtain ⟨modules, hfound, hmain, hdeclarations, houtputs⟩ :=
    artifacts_fall_into_blocks hstack hconventions hartifacts
  have hmodules : [bareModule] = modules := by
    apply List.map_injective_iff.mpr fun _ _ => Option.some.inj
    exact hfound
  subst hmodules
  refine ⟨artifacts, hartifacts, hmain.trans ?_, ?_, hdeclarations, houtputs.trans ?_⟩
  · decide +kernel
  · obtain rfl := Except.ok.inj hartifacts
    rfl
  · decide +kernel

end TerraStack
