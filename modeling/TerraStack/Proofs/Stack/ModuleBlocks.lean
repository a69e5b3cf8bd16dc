import Mathlib.Data.List.Nodup
import TerraStack.Proofs.Order.Resolve
import TerraStack.Proofs.Stack.Injection

namespace TerraStack

/-- Modules are kept under their own names. Others refer to a module by the name that the stack has
for it, and terraform finds it by the name in the head of its block. -/
def KeepsNames (modules : OrderedMap String Module) : Prop :=
  ∀ name module, modules.find? name = some module → module.name = name

/-- Modules that are read from a section keep their names. -/
theorem keepsNames_modulesOfNode (node : Yaml.Node) : KeepsNames (modulesOfNode node) := by
  intro name module hmodule
  have hmem := OrderedMap.mem_entries_ofList (OrderedMap.find?_eq_some_iff.mp hmodule)
  obtain ⟨⟨key, value⟩, _, hentry⟩ := List.mem_filterMap.mp hmem
  obtain ⟨described, hdescribed, hpair⟩ := Option.map_eq_some_iff.mp hentry
  obtain ⟨entries, _, rfl⟩ := Option.map_eq_some_iff.mp hdescribed
  cases hpair
  rfl

/-- The entries of the root leave the modules alone. -/
theorem Stack.modules_foldl_addRootEntry (entries : List RootEntry) (stack : Stack) :
    (entries.foldl addRootEntry stack).modules = stack.modules := by
  induction entries generalizing stack with
  | nil => rfl
  | cons entry rest ih =>
    rw [List.foldl_cons, ih]
    cases entry with
    | reserved => rfl
    | provider name settings => rfl
    | value name value => rfl

/-- In a stack that is read from a document, modules keep their names. -/
theorem Stack.keepsNames_of_ofNode {root : Yaml.Node} {stack : Stack}
    (hstack : Stack.ofNode root = .ok stack) : KeepsNames stack.modules := by
  unfold Stack.ofNode at hstack
  split at hstack
  · next entries =>
    obtain rfl := Except.ok.inj hstack
    rw [Stack.ofRoot, modules_foldl_addRootEntry]
    unfold Stack.ofSections
    dsimp only
    cases Yaml.lookup? "modules" entries with
    | none => exact fun _ _ hmodule => nomatch hmodule
    | some node => exact keepsNames_modulesOfNode node
  · cases hstack
  · cases hstack

/-- Modules that are looked up by name are those that the stack has under the names. -/
theorem Stack.modulesNamed_eq_ok {stack : Stack} {order : List String} {modules : List Module}
    (hnamed : stack.modulesNamed order = .ok modules) :
    order.map stack.modules.find? = modules.map some := by
  induction order generalizing modules with
  | nil =>
    cases hnamed
    rfl
  | cons name rest ih =>
    unfold Stack.modulesNamed at hnamed
    split at hnamed
    · cases hnamed
    · next module hmodule =>
      obtain ⟨others, hothers, rfl⟩ := map_eq_ok.mp hnamed
      rw [List.map_cons, List.map_cons, hmodule, ih hothers]

/-- Modules that keep their names have in their blocks the names of the order. -/
theorem KeepsNames.map_name {found : OrderedMap String Module} (hkeeps : KeepsNames found)
    {order : List String} {modules : List Module}
    (hfound : order.map found.find? = modules.map some) : modules.map Module.name = order := by
  induction order generalizing modules with
  | nil =>
    cases modules with
    | nil => rfl
    | cons module rest => cases hfound
  | cons name order ih =>
    cases modules with
    | nil => cases hfound
    | cons module rest =>
      rw [List.map_cons, List.map_cons, List.cons.injEq] at hfound
      rw [List.map_cons, hkeeps name module hfound.1, ih hfound.2]

open Hcl (Item)

namespace Hcl.Item

/-- The head of a block. -/
def head? : Item → Option String
  | .argument _ _ => none
  | .block head _ => some head

/-- The items between the braces of a block. -/
def items : Item → List Item
  | .argument _ _ => []
  | .block _ items => items

/-- The name and the expression of an argument. -/
def argument? : Item → Option (String × String)
  | .argument name expression => some (name, expression)
  | .block _ _ => none

/-- The arguments of a block, in their order. -/
def arguments (item : Item) : List (String × String) :=
  item.items.filterMap argument?

/-- What a block assigns to a name, as often as it does. -/
def assigned (item : Item) (name : String) : List String :=
  (item.arguments.filter (·.1 = name)).map Prod.snd

end Hcl.Item

/-- A block that has nothing but arguments. -/
def argumentBlock (head : String) (arguments : List (String × String)) : Item :=
  .block head (arguments.map fun (name, expression) => .argument name expression)

theorem arguments_argumentBlock (head : String) (arguments : List (String × String)) :
    (argumentBlock head arguments).arguments = arguments := by
  have hargument : (Item.argument? ∘ fun argument : String × String =>
      Item.argument argument.1 argument.2) = some := rfl
  unfold Item.arguments argumentBlock
  dsimp only [Item.items]
  rw [List.filterMap_map, hargument, List.filterMap_some]

/-- The head of the block of a module. -/
def moduleHead (name : String) : String :=
  Hcl.head "module" [name]

/-- The head of a module's block tells its name. -/
theorem moduleHead_inj {name other : String} (hhead : moduleHead name = moduleHead other) :
    name = other := by
  simpa [moduleHead, Hcl.head, Text.join, Hcl.quote] using hhead

/-- The blocks of the main file that come before those of the modules. -/
def Stack.leadingBlocks (stack : Stack) (conventions : Conventions) : List Item :=
  stack.terraform.block :: (providerBlocks stack conventions
    ++ (localsBlock? stack.locals).toList
    ++ stack.dataSources.map DataSource.block)

/-- The blocks of modules are the last ones of the main file. -/
theorem Stack.mainBlocks_eq (stack : Stack) (conventions : Conventions) (modules : List Module) :
    stack.mainBlocks conventions modules = stack.leadingBlocks conventions ++
      modules.map fun module => module.block stack.topLevel stack.declared := by
  unfold Stack.mainBlocks Stack.leadingBlocks
  rw [List.cons_append]

/-- A head starts with its kind. -/
theorem head_startsWith_kind (kind : String) (labels : List String) :
    kind.toList <+: (Hcl.head kind labels).toList := by
  unfold Hcl.head
  cases labels with
  | nil => exact List.prefix_rfl
  | cons label rest =>
    rw [List.map_cons, Text.join_cons_cons, String.toList_append, String.toList_append,
      List.append_assoc]
    exact List.prefix_append _ _

/-- The first letter of a kind tells the blocks of modules from all others. -/
theorem moduleHead_ne_head (kind : String) {first : Char} (hfirst : kind.toList.head? = some first)
    (hother : first ≠ 'm') (labels : List String) (name : String) :
    Hcl.head kind labels ≠ moduleHead name := by
  intro hhead
  obtain ⟨rest, hrest⟩ := head_startsWith_kind kind labels
  obtain ⟨label, hlabel⟩ := head_startsWith_kind "module" [name]
  have htexts : kind.toList ++ rest = "module".toList ++ label := by
    rw [hrest, hlabel, hhead]
    rfl
  have hletters := congrArg List.head? htexts
  rw [List.head?_append, List.head?_append, hfirst] at hletters
  apply hother
  simpa using hletters

/-- No block in front of them has the head of a module's block. -/
theorem Stack.moduleHead_not_mem_leadingBlocks (stack : Stack) (conventions : Conventions)
    (name : String) : moduleHead name ∉ (stack.leadingBlocks conventions).filterMap Item.head? := by
  intro hmem
  obtain ⟨block, hblock, hhead⟩ := List.mem_filterMap.mp hmem
  simp only [Stack.leadingBlocks, List.mem_cons, List.mem_append, Option.mem_toList] at hblock
  rcases hblock with rfl | (hprovider | hlocals) | hdata
  · exact moduleHead_ne_head "terraform" rfl (by decide) [] name (Option.some.inj hhead)
  · obtain ⟨provider, _, rfl⟩ := List.mem_map.mp hprovider
    exact moduleHead_ne_head "provider" rfl (by decide) [provider] name
      (Option.some.inj hhead)
  · unfold localsBlock? at hlocals
    split at hlocals
    · cases hlocals
    · obtain rfl := Option.some.inj hlocals
      exact moduleHead_ne_head "locals" rfl (by decide) [] name (Option.some.inj hhead)
  · obtain ⟨source, _, rfl⟩ := List.mem_map.mp hdata
    exact moduleHead_ne_head "data" rfl (by decide) [source.type, source.name] name
      (Option.some.inj hhead)

/-- The blocks of modules stand in the order of the modules, each under its name. -/
theorem moduleHeads (modules : List Module) (topLevel : OrderedMap String Hcl.Value)
    (declared : OrderedMap String Variable) :
    (modules.map fun module => module.block topLevel declared).filterMap Item.head? =
      (modules.map Module.name).map moduleHead := by
  induction modules with
  | nil => rfl
  | cons module rest ih =>
    rw [List.map_cons, List.filterMap_cons, ih]
    rfl

/-- Among the blocks of the main file there are as many for a module as its name has places among
the modules. -/
theorem Stack.count_moduleHead (stack : Stack) (conventions : Conventions) (modules : List Module)
    (name : String) :
    ((stack.mainBlocks conventions modules).filterMap Item.head?).count (moduleHead name) =
      (modules.map Module.name).count name := by
  have hleading := List.count_eq_zero_of_not_mem
    (stack.moduleHead_not_mem_leadingBlocks conventions name)
  rw [Stack.mainBlocks_eq, List.filterMap_append, List.count_append, hleading, Nat.zero_add,
    moduleHeads]
  induction modules.map Module.name with
  | nil => rfl
  | cons other rest ih =>
    rw [List.map_cons, List.count_cons, List.count_cons, ih]
    by_cases heq : other = name
    · simp [heq]
    · have hheads : moduleHead other ≠ moduleHead name := fun hheads => heq (moduleHead_inj hheads)
      simp [heq, hheads]

/-- The arguments of a module's block: those that say what the module is, the common variables that
it gets, its own, and what it depends on. -/
def moduleArguments (module : Module) (topLevel : OrderedMap String Hcl.Value)
    (declared : OrderedMap String Variable) : List (String × String) :=
  [("source", Hcl.quote module.source.address)]
    ++ module.version.toList.map (fun version => ("version", Hcl.quote version))
    ++ (forwardedVariables module topLevel declared).map (fun name => (name, variableReference name))
    ++ module.inputs.entries.map (fun (name, value) => (name, value.format))
    ++ (if module.dependsOn.isEmpty then []
      else [("depends_on", "[" ++ Text.join ", " (module.dependsOn.map ("module." ++ ·)) ++ "]")])

/-- The block of a module has its arguments and nothing else. -/
theorem Module.block_eq (module : Module) (topLevel : OrderedMap String Hcl.Value)
    (declared : OrderedMap String Variable) :
    module.block topLevel declared =
      argumentBlock (moduleHead module.name) (moduleArguments module topLevel declared) := by
  unfold argumentBlock moduleArguments
  simp only [List.map_append, List.map_map]
  unfold Module.block
  congr 2
  split <;> rfl

/-- A block tells what its module needs in one line, unless the module needs nothing. In front of it
stands what the module itself gives under the same name. -/
theorem Module.assigned_dependsOn (module : Module) (topLevel : OrderedMap String Hcl.Value)
    (declared : OrderedMap String Variable) :
    (module.block topLevel declared).assigned "depends_on" =
      ((module.inputs.find? "depends_on").map Hcl.Value.format).toList ++
        if module.dependsOn = [] then []
        else ["[" ++ Text.join ", " (module.dependsOn.map ("module." ++ ·)) ++ "]"] := by
  have hforwarded : ((forwardedVariables module topLevel declared).map fun name =>
      (name, variableReference name)).filter (·.1 = "depends_on") = [] := by
    rw [List.filter_eq_nil_iff]
    intro argument hargument
    obtain ⟨name, hname, rfl⟩ := List.mem_map.mp hargument
    have hcommon : name ∈ commonVariables := (List.mem_filter.mp hname).1
    have hother : ∀ name ∈ commonVariables, name ≠ "depends_on" := by decide
    simpa using hother name hcommon
  have hversion : (module.version.toList.map fun version => ("version", Hcl.quote version)).filter
      (·.1 = "depends_on") = [] := by
    cases module.version <;> rfl
  have hinputs : (module.inputs.entries.map fun (name, value) => (name, value.format)).filter
      (·.1 = "depends_on") =
        ((module.inputs.find? "depends_on").map fun value => ("depends_on", value.format)).toList := by
    have hnames : (fun argument : String × String => decide (argument.1 = "depends_on")) ∘
        (fun entry : String × Hcl.Value => (entry.1, entry.2.format)) =
          fun entry => decide (entry.1 = "depends_on") := rfl
    rw [List.filter_map, hnames, OrderedMap.filter_entries]
    cases module.inputs.find? "depends_on" <;> rfl
  rw [Module.block_eq, Item.assigned, arguments_argumentBlock]
  unfold moduleArguments
  simp only [List.filter_append, hforwarded, hversion, hinputs, List.append_nil, List.map_append]
  congr 1
  · cases module.inputs.find? "depends_on" <;> rfl
  · cases module.dependsOn <;> rfl

/-- The blocks that hand on the outputs of modules. -/
def moduleOutputBlocks (modules : List Module) : List Item :=
  modules.flatMap fun module => module.outputs.map (moduleOutputBlock module.name)

/-- How modules stand in the generated files. -/
structure LaidOut (stack : Stack) (conventions : Conventions) (generated : Generated)
    (modules : List Module) : Prop where
  names : modules.map Module.name = generated.order
  own : ∀ module ∈ modules, stack.modules.find? module.name = some module
  main : generated.artifacts.main = fileText (stack.leadingBlocks conventions ++
    modules.map fun module => module.block stack.topLevel stack.declared)
  enabled_once : ∀ name, Order.Enabled stack.modules name →
    ((stack.mainBlocks conventions modules).filterMap Item.head?).count (moduleHead name) = 1
  others_never : ∀ name, ¬ Order.Enabled stack.modules name →
    ((stack.mainBlocks conventions modules).filterMap Item.head?).count (moduleHead name) = 0
  /-- What a module is declared to need has its block before. -/
  needs_before : ∀ before module after, modules = before ++ module :: after →
    ∀ need ∈ module.dependsOn, need ∈ before.map Module.name
  /-- The line that is written for what a module needs names all that it needs and nothing else. A
  variable of the module with the same name is written as it was given. -/
  needs_line : ∀ module ∈ modules, (module.block stack.topLevel stack.declared).assigned "depends_on" =
    ((module.inputs.find? "depends_on").map Hcl.Value.format).toList ++
      if module.dependsOn = [] then []
      else ["[" ++ Text.join ", " (module.dependsOn.map ("module." ++ ·)) ++ "]"]
  outputs : generated.artifacts.outputs = fileText (moduleOutputBlocks modules ++
    stack.outputs.entries.map fun entry => entry.2.block entry.1)
  output_values : ∀ block ∈ moduleOutputBlocks modules, ∃ module ∈ modules, ∃ output ∈ module.outputs,
    .argument "value" ("module." ++ module.name ++ "." ++ output) ∈ block.items

theorem mem_of_map_eq_map_some {α β : Type} {find : α → Option β} {names : List α} {values : List β}
    (hfound : names.map find = values.map some) {value : β} (hmem : value ∈ values) :
    ∃ name ∈ names, find name = some value := by
  have hsome : some value ∈ names.map find := by
    rw [hfound]
    exact List.mem_map_of_mem hmem
  obtain ⟨name, hname, hvalue⟩ := List.mem_map.mp hsome
  exact ⟨name, hname, hvalue⟩

/-- A block that hands on an output refers to it by its module and its name. -/
theorem exists_value_of_mem_moduleOutputBlocks {modules : List Module} {block : Item}
    (hblock : block ∈ moduleOutputBlocks modules) : ∃ module ∈ modules, ∃ output ∈ module.outputs,
      .argument "value" ("module." ++ module.name ++ "." ++ output) ∈ block.items := by
  obtain ⟨module, hmodule, houtputs⟩ := List.mem_flatMap.mp hblock
  obtain ⟨output, houtput, rfl⟩ := List.mem_map.mp houtputs
  refine ⟨module, hmodule, output, houtput, ?_⟩
  exact List.mem_cons_of_mem _ List.mem_cons_self

/-- The order of a generation has the enabled modules behind what they need. -/
theorem Stack.sorted_of_generate {stack : Stack} {conventions : Conventions} {generated : Generated}
    (hgenerate : stack.generate conventions = .ok generated) :
    Order.Sorted stack.modules generated.order := by
  obtain ⟨order, hresolve, hrest⟩ := bind_eq_ok.mp hgenerate
  obtain ⟨_, _, hreturn⟩ := bind_eq_ok.mp hrest
  obtain rfl := Except.ok.inj hreturn
  exact Order.resolve_truthful _ |>.of_ok hresolve

/-- Where modules stand in a sorted order, all that one is declared to need stands before it. -/
theorem mem_before_of_sorted {stack : Stack} {order : List String} {modules : List Module}
    (hsorted : Order.Sorted stack.modules order) (hnames : modules.map Module.name = order)
    (hown : ∀ module ∈ modules, stack.modules.find? module.name = some module)
    {before after : List Module} {module : Module} (hsplit : modules = before ++ module :: after)
    {need : String} (hneed : need ∈ module.dependsOn) : need ∈ before.map Module.name := by
  have hmodule : module ∈ modules := by
    rw [hsplit]
    exact List.mem_append_right _ List.mem_cons_self
  have hfind := hown module hmodule
  have hplaces : order = before.map Module.name ++ module.name :: after.map Module.name := by
    rw [← hnames, hsplit, List.map_append, List.map_cons]
  have hmem : module.name ∈ order := by
    rw [← hnames]
    exact List.mem_map_of_mem hmodule
  obtain ⟨actual, hactual, henabled⟩ := (hsorted.mem_iff module.name).mp hmem
  obtain rfl := Option.some.inj (hactual.symm.trans hfind)
  exact hsorted.mem_of_needs hplaces ⟨actual, hfind, henabled, hneed⟩

/-- The enabled modules of a stack that a document describes stand in the main file, each once and
behind all that it is declared to need, and nothing but them is referred to by the outputs of
modules. What a module is given under the name of the line for its needs is written as it is. -/
theorem generate_laysOut_modules {root : Yaml.Node} {stack : Stack} {conventions : Conventions}
    {generated : Generated} (hstack : Stack.ofNode root = .ok stack)
    (hgenerate : stack.generate conventions = .ok generated) :
    ∃ modules, LaidOut stack conventions generated modules := by
  obtain ⟨modules, hnamed, hartifacts⟩ := Stack.blocks_of_generate hgenerate
  have hsorted := Stack.sorted_of_generate hgenerate
  have hfound := Stack.modulesNamed_eq_ok hnamed
  have hkeeps := Stack.keepsNames_of_ofNode hstack
  have hnames := hkeeps.map_name hfound
  have hown (module : Module) (hmodule : module ∈ modules) :
      stack.modules.find? module.name = some module := by
    obtain ⟨name, _, hname⟩ := mem_of_map_eq_map_some hfound hmodule
    rwa [hkeeps name module hname]
  refine ⟨modules, {
    names := hnames
    own := hown
    main := by rw [hartifacts, ← Stack.mainBlocks_eq]
    enabled_once := ?_
    others_never := ?_
    needs_before := fun _ _ _ hsplit _ hneed => mem_before_of_sorted hsorted hnames hown hsplit hneed
    needs_line := fun module _ => module.assigned_dependsOn stack.topLevel stack.declared
    outputs := by rw [hartifacts]; rfl
    output_values := fun block => exists_value_of_mem_moduleOutputBlocks }⟩
  · intro name henabled
    rw [Stack.count_moduleHead, hnames]
    exact List.count_eq_one_of_mem hsorted.nodup ((hsorted.mem_iff name).mpr henabled)
  · intro name hother
    rw [Stack.count_moduleHead, hnames]
    exact List.count_eq_zero_of_not_mem fun hmem => hother ((hsorted.mem_iff name).mp hmem)

/-- The document of a stack with a disabled module, in which modules need others that stand below. -/
def platformDocument : Yaml.Node :=
  let entry (key value : String) : Yaml.Node × Yaml.Node := (.string key, .string value)
  let list (key : String) (items : List String) : Yaml.Node × Yaml.Node :=
    (.string key, .sequence (items.map .string))
  .mapping [(.string "modules", .mapping [
    (.string "app", .mapping [entry "source" "./app", list "depends_on" ["net", "db"]]),
    (.string "old", .mapping [entry "source" "./old", (.string "enabled", .bool false)]),
    (.string "db", .mapping [entry "source" "./db", list "depends_on" ["net"], list "outputs" ["url"]]),
    (.string "net", .mapping [entry "source" "./net"])])]

/-- The database is behind the network and before the application, and its output is handed on. -/
theorem platformDocument_laidOut :
    ∃ stack generated modules, Stack.ofNode platformDocument = .ok stack ∧
      stack.generate = .ok generated ∧ generated.order = ["net", "db", "app"] ∧
      generated.artifacts.outputs = "output \"db_url\" \x7b\n" ++
        "  description = \"url from db module\"\n  value = module.db.url\n\x7d\n" ∧
      LaidOut stack .standard generated modules := by
  obtain ⟨stack, hstack, generated, hgenerate, horder, houtputs⟩ :
      ∃ stack, Stack.ofNode platformDocument = .ok stack ∧
        ∃ generated, stack.generate = .ok generated ∧ generated.order = ["net", "db", "app"] ∧
          generated.artifacts.outputs = "output \"db_url\" \x7b\n" ++
            "  description = \"url from db module\"\n  value = module.db.url\n\x7d\n" := by
    refine ⟨_, rfl, _, rfl, rfl, ?_⟩
    decide +kernel
  obtain ⟨modules, hmodules⟩ := generate_laysOut_modules hstack hgenerate
  exact ⟨stack, generated, modules, hstack, hgenerate, horder, houtputs, hmodules⟩

/-- The document of a stack whose one module needs nothing, but has a variable with the name of the
line that tells what a module needs. -/
def danglingDocument : Yaml.Node :=
  .mapping [(.string "modules", .mapping [(.string "app", .mapping [
    (.string "source", .string "./app"),
    (.string "variables", .mapping [
      (.string "depends_on", .sequence [.string "module.ghost"])])])])]

/-- The stack is generated without an error, and the line refers to a module that has no block. -/
theorem danglingDocument_refers_to_no_block :
    ∃ stack generated module, Stack.ofNode danglingDocument = .ok stack ∧
      stack.generate = .ok generated ∧ generated.order = ["app"] ∧
      stack.modules.find? "app" = some module ∧
      (module.block stack.topLevel stack.declared).assigned "depends_on" = ["[module.ghost]"] ∧
      ((stack.mainBlocks .standard [module]).filterMap Item.head?).count (moduleHead "ghost") = 0 ∧
      generated.artifacts.main = "terraform \x7b\n  required_version = \">= 1.0\"\n\x7d\n\n" ++
        "module \"app\" \x7b\n  source = \"../app\"\n  depends_on = [module.ghost]\n\x7d\n" := by
  refine ⟨_, _, _, rfl, rfl, rfl, rfl, ?_, ?_, ?_⟩
  · decide +kernel
  · rw [Stack.count_moduleHead]
    decide +kernel
  · decide +kernel

end TerraStack
