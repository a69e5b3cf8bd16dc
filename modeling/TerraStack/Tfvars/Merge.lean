import TerraStack.Stack
import TerraStack.Stack.WellKnown
import TerraStack.Tfvars.Entries

namespace TerraStack.Tfvars

/-- The entries that a stack generates: the values at its root that belong to one of its variables,
as literals. A key that could configure a provider gives none. -/
def generated (stack : Stack) : OrderedMap String Hcl.Value :=
  stack.topLevel.filter fun name _ =>
    !Text.endsWith Stack.providerEnding name
      && (allVariables stack.declared stack.topLevel).contains name

/-- The entries that a stack generates, as text. -/
def generatedEntries (stack : Stack) : List (String × String) :=
  (generated stack).entries.map fun (name, value) => (name, value.format)

/-- The lines of an entry. -/
def entryText (entry : String × String) : String :=
  entry.1 ++ " = " ++ entry.2

/-- The entries of a stack, and behind them those of a text that the stack does not generate. -/
def mergedEntries (stack : Stack) (existing : Option String) : List (String × String) :=
  let kept := (existing.map parse).getD ∅
  generatedEntries stack ++ kept.entries.filter fun (name, _) => !(generated stack).contains name

/-- The text with the entries of a stack and those of an existing text, unless there are none. -/
def render (stack : Stack) (existing : Option String) : Option String :=
  match mergedEntries stack existing with
  | [] => none
  | entries => some (Text.unlines (entries.map entryText))

end TerraStack.Tfvars
