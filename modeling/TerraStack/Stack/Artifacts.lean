import TerraStack.Stack.Blocks
import TerraStack.Stack.Order

namespace TerraStack

open Hcl (Item)

/-- The texts of the generated files. One without blocks is empty. -/
structure Artifacts where
  main : String
  declarations : String
  outputs : String
  deriving Repr, DecidableEq

namespace Artifacts

/-- The names of the generated files. -/
def fileNames : List String :=
  ["main.tf", "variables.tf", "outputs.tf"]

/-- The files with their names. Only the first is there even if it is empty. -/
def files (artifacts : Artifacts) : List (String × String) :=
  ("main.tf", artifacts.main) ::
    [("variables.tf", artifacts.declarations), ("outputs.tf", artifacts.outputs)].filter
      fun (_, content) => content ≠ ""

end Artifacts

/-- Blocks with a blank line between every two. -/
def blocksText (blocks : List Item) : String :=
  Text.paragraphs (blocks.map Item.text)

/-- Sections with a blank line between every two, those without text left out. -/
def joinSections (sections : List String) : String :=
  Text.paragraphs (sections.filter (· ≠ ""))

/-- A text that a line feed ends, unless it is empty. -/
def endText (text : String) : String :=
  if text = "" then "" else text ++ "\n"

/-- The text of a file with some blocks: a line feed ends it unless it is empty. -/
def fileText (blocks : List Item) : String :=
  endText (blocksText blocks)

/-- Blocks have an empty text only if there are none. -/
theorem blocksText_ne_empty {blocks : List Item} (hblocks : blocks ≠ []) : blocksText blocks ≠ "" := by
  obtain ⟨block, rest, rfl⟩ := List.exists_cons_of_ne_nil hblocks
  exact Text.join_cons_ne_empty block.text_ne_empty _

/-- Blocks that are joined section by section have the text of all the blocks: a section has no text
only if it has no blocks. -/
theorem joinSections_map_blocksText (sections : List (List Item)) :
    joinSections (sections.map blocksText) = blocksText sections.flatten := by
  induction sections with
  | nil => rfl
  | cons blocks rest ih =>
    by_cases hblocks : blocks = []
    · subst hblocks
      exact ih
    have htext := blocksText_ne_empty hblocks
    unfold joinSections at ih ⊢
    rw [List.map_cons, List.filter_cons_of_pos (by simpa using htext), List.flatten_cons]
    by_cases hrest : rest.flatten = []
    · have hnone : (rest.map blocksText).filter (· ≠ "") = [] := by
        refine List.filter_eq_nil_iff.mpr fun text hmem => ?_
        obtain ⟨others, hothers, rfl⟩ := List.mem_map.mp hmem
        have hempty := List.flatten_eq_nil_iff.mp hrest others hothers
        simp [hempty, blocksText, Text.paragraphs]
      rw [hnone, hrest, List.append_nil]
      rfl
    · have hsome : (rest.map blocksText).filter (· ≠ "") ≠ [] := by
        intro hnone
        rw [hnone] at ih
        exact blocksText_ne_empty hrest ih.symm
      have hmore : rest.flatten.map Item.text ≠ [] := by simpa using hrest
      have hfirst : blocks.map Item.text ≠ [] := by simpa using hblocks
      unfold Text.paragraphs at ih ⊢
      rw [← List.singleton_append, Text.join_append_of_ne_nil (List.cons_ne_nil _ _) hsome, ih]
      unfold blocksText Text.paragraphs
      rw [List.map_append, Text.join_append_of_ne_nil hfirst hmore, Text.join_singleton]

namespace Stack

/-- The sections of the main file, given the modules in order. Any but the first can be empty. -/
def mainSections (stack : Stack) (conventions : Conventions) (modules : List Module) :
    List (List Item) :=
  [[stack.terraform.block], providerBlocks stack conventions, (localsBlock? stack.locals).toList,
    stack.dataSources.map DataSource.block,
    modules.map fun module => module.block stack.topLevel stack.declared]

/-- The text of the main file, section by section. -/
def mainText (stack : Stack) (conventions : Conventions) (modules : List Module) : String :=
  endText (joinSections ((stack.mainSections conventions modules).map blocksText))

/-- The blocks of the main file, given the modules in order. -/
def mainBlocks (stack : Stack) (conventions : Conventions) (modules : List Module) : List Item :=
  stack.terraform.block :: (providerBlocks stack conventions
    ++ (localsBlock? stack.locals).toList
    ++ stack.dataSources.map DataSource.block
    ++ modules.map fun module => module.block stack.topLevel stack.declared)

/-- The main file holds its blocks one after another, whatever sections they are in. -/
theorem mainText_eq_fileText (stack : Stack) (conventions : Conventions) (modules : List Module) :
    stack.mainText conventions modules = fileText (stack.mainBlocks conventions modules) := by
  have hblocks : (stack.mainSections conventions modules).flatten =
      stack.mainBlocks conventions modules := by
    simp [mainSections, mainBlocks]
  rw [mainText, joinSections_map_blocksText, hblocks, fileText]

/-- The modules with some names, all of which have to be modules of the stack. -/
def modulesNamed (stack : Stack) : List String → Except StackError (List Module)
  | [] => .ok []
  | name :: rest =>
    match stack.modules.find? name with
    | none => .error (.unknownModule name)
    | some module => (stack.modulesNamed rest).map (module :: ·)

/-- The files of a stack, given an order of modules. -/
def artifacts (stack : Stack) (conventions : Conventions) (order : List String) :
    Except StackError Artifacts := do
  let modules ← stack.modulesNamed order
  .ok {
    main := stack.mainText conventions modules
    declarations := fileText (variableBlocks stack.declared stack.topLevel)
    outputs := fileText (outputBlocks modules stack.outputs) }

end Stack

/-- The files of a stack and the order of its modules in them. -/
structure Generated where
  order : List String
  artifacts : Artifacts
  deriving Repr, DecidableEq

/-- Put the modules of a stack in order and make its files. -/
def Stack.generate (stack : Stack) (conventions : Conventions := .standard) :
    Except StackError Generated := do
  let order ← Order.resolve stack.modules
  .ok ⟨order, ← stack.artifacts conventions order⟩

end TerraStack
