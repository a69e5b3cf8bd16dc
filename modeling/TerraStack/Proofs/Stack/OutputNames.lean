import Mathlib.Data.List.Nodup
import TerraStack.Proofs.Stack.Injection
import TerraStack.Proofs.Stack.ModuleBlocks

namespace TerraStack

open Hcl (Item)

/-- The name under which an output of a module is handed on. -/
def handedOnName (module : Module) (output : String) : String :=
  module.name ++ "_" ++ output

/-- The names of all outputs, those that modules hand on first. -/
def outputNames (modules : List Module) (outputs : OrderedMap String Output) : List String :=
  modules.flatMap (fun module => module.outputs.map (handedOnName module)) ++ outputs.keys

/-- The head of the block of an output. -/
def outputHead (name : String) : String :=
  Hcl.head "output" [name]

/-- The head of an output's block tells its name. -/
theorem outputHead_injective : Function.Injective fun name => some (outputHead name) := by
  intro name other hhead
  simpa [outputHead, Hcl.head, Text.join, Hcl.quote] using hhead

/-- The blocks for the outputs of modules have the names under which those are handed on. -/
theorem heads_moduleOutputs (modules : List Module) :
    (modules.flatMap fun module => module.outputs.map (moduleOutputBlock module.name)).map Item.head? =
      (modules.flatMap fun module => module.outputs.map (handedOnName module)).map
        fun name => some (outputHead name) := by
  induction modules with
  | nil => rfl
  | cons module rest ih =>
    rw [List.flatMap_cons, List.flatMap_cons, List.map_append, List.map_append, ih, List.map_map,
      List.map_map]
    rfl

/-- The blocks of the outputs file have the names of the outputs, in their order. -/
theorem heads_outputBlocks (modules : List Module) (outputs : OrderedMap String Output) :
    (outputBlocks modules outputs).map Item.head? =
      (outputNames modules outputs).map fun name => some (outputHead name) := by
  unfold outputBlocks outputNames OrderedMap.keys
  rw [List.map_append, List.map_append, heads_moduleOutputs, List.map_map, List.map_map]
  rfl

/-- Two texts with a mark in them are the same if they are split at the same mark, or one goes on
over a mark of the other. -/
theorem append_cons_eq_append_cons_iff {α : Type} {mark : α} {first second third fourth : List α} :
    first ++ mark :: second = third ++ mark :: fourth ↔
      (first = third ∧ second = fourth) ∨
        (∃ middle, third = first ++ mark :: middle ∧ second = middle ++ mark :: fourth) ∨
          ∃ middle, first = third ++ mark :: middle ∧ fourth = middle ++ mark :: second := by
  constructor
  · intro heq
    rcases List.append_eq_append_iff.mp heq with ⟨longer, hthird, hrest⟩ | ⟨longer, hfirst, hrest⟩
    · cases longer with
      | nil =>
        rw [List.append_nil] at hthird
        exact .inl ⟨hthird.symm, (List.cons.inj hrest).2⟩
      | cons c middle =>
        rw [List.cons_append, List.cons.injEq] at hrest
        obtain ⟨rfl, hsecond⟩ := hrest
        exact .inr (.inl ⟨middle, hthird, hsecond⟩)
    · cases longer with
      | nil =>
        rw [List.append_nil] at hfirst
        exact .inl ⟨hfirst, (List.cons.inj hrest).2.symm⟩
      | cons c middle =>
        rw [List.cons_append, List.cons.injEq] at hrest
        obtain ⟨rfl, hfourth⟩ := hrest
        exact .inr (.inr ⟨middle, hfirst, hfourth⟩)
  · rintro (⟨rfl, rfl⟩ | ⟨middle, rfl, rfl⟩ | ⟨middle, rfl, rfl⟩)
    · rfl
    · simp
    · simp

theorem toList_handedOnName (module : Module) (output : String) :
    (handedOnName module output).toList = module.name.toList ++ '_' :: output.toList := by
  simp [handedOnName]

/-- Names with an underscore are compared as lists of characters. -/
theorem eq_append_underscore_iff {whole first second : String} :
    whole = first ++ "_" ++ second ↔ whole.toList = first.toList ++ '_' :: second.toList := by
  rw [← String.toList_inj]
  simp

/-- Names are the same where the name of one module goes on, behind an underscore, as an output of
the other begins. -/
theorem handedOnName_eq_iff {module other : Module} {output counterpart : String} :
    handedOnName module output = handedOnName other counterpart ↔
      (module.name = other.name ∧ output = counterpart) ∨
        (∃ middle, other.name = module.name ++ "_" ++ middle ∧
          output = middle ++ "_" ++ counterpart) ∨
            ∃ middle, module.name = other.name ++ "_" ++ middle ∧
              counterpart = middle ++ "_" ++ output := by
  rw [← String.toList_inj, toList_handedOnName, toList_handedOnName, append_cons_eq_append_cons_iff,
    String.toList_inj, String.toList_inj]
  simp only [eq_append_underscore_iff]
  constructor
  · rintro (hsame | ⟨middle, hname, houtput⟩ | ⟨middle, hname, houtput⟩)
    · exact .inl hsame
    · exact .inr (.inl ⟨.ofList middle, by simpa using hname, by simpa using houtput⟩)
    · exact .inr (.inr ⟨.ofList middle, by simpa using hname, by simpa using houtput⟩)
  · rintro (hsame | ⟨middle, hname, houtput⟩ | ⟨middle, hname, houtput⟩)
    · exact .inl hsame
    · exact .inr (.inl ⟨middle.toList, hname, houtput⟩)
    · exact .inr (.inr ⟨middle.toList, hname, houtput⟩)

/-- Two modules hand on outputs under one name. -/
inductive Clash (module other : Module) : Prop
  | common {output : String} (hnames : module.name = other.name) (houtput : output ∈ module.outputs)
      (hother : output ∈ other.outputs)
  | goesOn {middle output : String} (hname : other.name = module.name ++ "_" ++ middle)
      (houtput : middle ++ "_" ++ output ∈ module.outputs) (hother : output ∈ other.outputs)
  | wentOn {middle output : String} (hname : module.name = other.name ++ "_" ++ middle)
      (houtput : output ∈ module.outputs) (hother : middle ++ "_" ++ output ∈ other.outputs)

/-- Modules clash exactly if a name that one hands on is a name that the other hands on. -/
theorem clash_iff {module other : Module} :
    Clash module other ↔ ∃ output ∈ module.outputs, ∃ counterpart ∈ other.outputs,
      handedOnName module output = handedOnName other counterpart := by
  constructor
  · intro hclash
    cases hclash with
    | common hnames houtput hother =>
      exact ⟨_, houtput, _, hother, handedOnName_eq_iff.mpr (.inl ⟨hnames, rfl⟩)⟩
    | goesOn hname houtput hother =>
      exact ⟨_, houtput, _, hother, handedOnName_eq_iff.mpr (.inr (.inl ⟨_, hname, rfl⟩))⟩
    | wentOn hname houtput hother =>
      exact ⟨_, houtput, _, hother, handedOnName_eq_iff.mpr (.inr (.inr ⟨_, hname, rfl⟩))⟩
  · rintro ⟨output, houtput, counterpart, hother, heq⟩
    rcases handedOnName_eq_iff.mp heq with ⟨hnames, rfl⟩ | ⟨middle, hname, rfl⟩ | ⟨middle, hname, rfl⟩
    · exact .common hnames houtput hother
    · exact .goesOn hname houtput hother
    · exact .wentOn hname houtput hother

/-- What keeps the names of outputs apart. -/
structure OutputsApart (modules : List Module) (outputs : OrderedMap String Output) : Prop where
  once : ∀ module ∈ modules, module.outputs.Nodup
  between : modules.Pairwise fun module other => ¬ Clash module other
  own : ∀ module ∈ modules, ∀ output ∈ module.outputs, handedOnName module output ∉ outputs.keys

/-- One module hands on different outputs under different names. -/
theorem handedOnName_injective (module : Module) : Function.Injective (handedOnName module) := by
  intro output other heq
  simpa [handedOnName] using heq

/-- Modules that do not clash hand on names apart from each other. -/
theorem disjoint_handedOnNames_iff {module other : Module} :
    (module.outputs.map (handedOnName module)).Disjoint (other.outputs.map (handedOnName other)) ↔
      ¬ Clash module other := by
  rw [clash_iff, List.disjoint_left]
  constructor
  · rintro hdisjoint ⟨output, houtput, counterpart, hother, heq⟩
    apply hdisjoint (List.mem_map_of_mem houtput)
    rw [heq]
    exact List.mem_map_of_mem hother
  · intro hclash name hname hother
    obtain ⟨output, houtput, rfl⟩ := List.mem_map.mp hname
    obtain ⟨counterpart, hcounterpart, heq⟩ := List.mem_map.mp hother
    exact hclash ⟨output, houtput, counterpart, hcounterpart, heq.symm⟩

/-- Modules hand on distinct names if each lists its outputs once and no two clash. -/
theorem nodup_handedOnNames_iff {modules : List Module} :
    (modules.flatMap fun module => module.outputs.map (handedOnName module)).Nodup ↔
      (∀ module ∈ modules, module.outputs.Nodup) ∧
        modules.Pairwise fun module other => ¬ Clash module other := by
  rw [List.nodup_flatMap]
  apply and_congr
  · refine forall_congr' fun module => imp_congr_right fun _ => ?_
    exact List.nodup_map_iff (handedOnName_injective module)
  · apply List.Pairwise.iff
    intro module other
    exact disjoint_handedOnNames_iff

/-- The names of all outputs are distinct exactly if modules and stack keep them apart. -/
theorem nodup_outputNames_iff {modules : List Module} {outputs : OrderedMap String Output} :
    (outputNames modules outputs).Nodup ↔ OutputsApart modules outputs := by
  unfold outputNames
  rw [List.nodup_append, nodup_handedOnNames_iff]
  constructor
  · rintro ⟨⟨honce, hbetween⟩, -, hown⟩
    refine ⟨honce, hbetween, ?_⟩
    intro module hmodule output houtput hkey
    have hname : handedOnName module output ∈ module.outputs.map (handedOnName module) :=
      List.mem_map_of_mem houtput
    exact hown _ (List.mem_flatMap.mpr ⟨module, hmodule, hname⟩) _ hkey rfl
  · rintro ⟨honce, hbetween, hown⟩
    refine ⟨⟨honce, hbetween⟩, outputs.distinct, ?_⟩
    intro name hname key hkey heq
    obtain ⟨module, hmodule, houtputs⟩ := List.mem_flatMap.mp hname
    obtain ⟨output, houtput, rfl⟩ := List.mem_map.mp houtputs
    exact hown module hmodule output houtput (heq ▸ hkey)

/-- The outputs file has one block for each name of an output. No two blocks have one head exactly
if modules and stack keep their outputs apart. -/
theorem generate_outputs_distinct_iff {stack : Stack} {conventions : Conventions}
    {generated : Generated} (hgenerate : stack.generate conventions = .ok generated) :
    ∃ modules, stack.modulesNamed generated.order = .ok modules ∧
      generated.artifacts.outputs = fileText (outputBlocks modules stack.outputs) ∧
      (outputBlocks modules stack.outputs).map Item.head? =
        (outputNames modules stack.outputs).map (fun name => some (outputHead name)) ∧
      ((outputNames modules stack.outputs).Nodup ↔ OutputsApart modules stack.outputs) ∧
      (((outputBlocks modules stack.outputs).map Item.head?).Nodup ↔
        OutputsApart modules stack.outputs) := by
  obtain ⟨modules, hmodules, hartifacts⟩ := Stack.blocks_of_generate hgenerate
  have hheads := heads_outputBlocks modules stack.outputs
  have hnames : (outputNames modules stack.outputs).Nodup ↔ OutputsApart modules stack.outputs :=
    nodup_outputNames_iff
  refine ⟨modules, hmodules, by rw [hartifacts], hheads, hnames, ?_⟩
  rw [hheads, List.nodup_map_iff outputHead_injective, hnames]

/-- A stack in which names go on behind underscores, and still none is the same as another. -/
def peeredStack : Stack where
  modules := .ofList [
    ("net", { Module.ofAddress "net" "./net" with outputs := ["id", "peer_id"] }),
    ("net_peer", { Module.ofAddress "net_peer" "./peer" with outputs := ["name", "peer_id"] })]
  outputs := .ofList [("net_name", { value := some "module.net.id" })]

/-- Three names start alike, and no two are the same. -/
theorem peeredStack_distinct :
    ∃ generated modules, peeredStack.generate = .ok generated ∧
      peeredStack.modulesNamed generated.order = .ok modules ∧
      outputNames modules peeredStack.outputs =
        ["net_id", "net_peer_id", "net_peer_name", "net_peer_peer_id", "net_name"] ∧
      OutputsApart modules peeredStack.outputs := by
  obtain ⟨generated, hgenerate, horder⟩ :
      ∃ generated, peeredStack.generate = .ok generated ∧ generated.order = ["net", "net_peer"] :=
    ⟨_, rfl, rfl⟩
  obtain ⟨modules, hmodules, -, -, hdistinct, -⟩ := generate_outputs_distinct_iff hgenerate
  have hnames : outputNames modules peeredStack.outputs =
      ["net_id", "net_peer_id", "net_peer_name", "net_peer_peer_id", "net_name"] := by
    rw [horder] at hmodules
    cases hmodules
    decide
  refine ⟨generated, modules, hgenerate, hmodules, hnames, hdistinct.mp ?_⟩
  rw [hnames]
  decide

/-- A stack that names an output of its own as the module's is named that it hands on. -/
def shadowingStack : Stack where
  modules := .ofList [("network", { Module.ofAddress "network" "./network" with outputs := ["id"] })]
  outputs := .ofList [("network_id",
    { description := some "The network", value := some "module.network.id" })]

/-- The file has two blocks with one head. -/
theorem shadowingStack_repeats_name :
    ∃ generated modules, shadowingStack.generate = .ok generated ∧
      shadowingStack.modulesNamed generated.order = .ok modules ∧
      generated.artifacts.outputs =
        "output \"network_id\" \x7b\n  description = \"id from network module\"\n" ++
          "  value = module.network.id\n\x7d\n\n" ++
          "output \"network_id\" \x7b\n  description = \"The network\"\n" ++
          "  value = module.network.id\n\x7d\n" ∧
      ¬ (outputNames modules shadowingStack.outputs).Nodup := by
  refine ⟨_, _, rfl, rfl, ?_, ?_⟩
  · decide +kernel
  · decide

end TerraStack
