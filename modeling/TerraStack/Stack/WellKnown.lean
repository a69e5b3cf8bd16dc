import TerraStack.Stack.Declaration

namespace TerraStack

/-- A variable with the attributes it has where no stack declares it. -/
structure WellKnownVariable where
  name : String
  description : String
  type : String := "string"
  default : Option String := none

/-- The variables that most stacks have, in the order in which they are declared. A value under the
name of one declares it. -/
def wellKnownVariables : List WellKnownVariable := [
  { name := "project_id", description := "The GCP project ID" },
  { name := "project", description := "The project name" },
  { name := "region", description := "The region for resources", default := some "us-central1" },
  { name := "zone", description := "The zone for resources" },
  { name := "environment", description := "Environment name (dev, staging, prod)",
    default := some "dev" },
  { name := "name_prefix", description := "Prefix for resource names" }]

/-- The variables that modules get without asking, in the order in which they get them. -/
def commonVariables : List String :=
  ["project_id", "project", "region", "zone", "environment", "name_prefix"]

/-- The declaration of a well-known variable for which the stack has a value. The default of the
table comes first. -/
def WellKnownVariable.declaration (known : WellKnownVariable) (value : Hcl.Value) : Variable where
  description := some known.description
  type := some known.type
  default := some ((known.default.map Hcl.Value.string).getD value)

/-- Declare a well-known variable for which there is a value and no declaration yet. -/
def declareKnown (topLevel : OrderedMap String Hcl.Value) (declared : OrderedMap String Variable)
    (known : WellKnownVariable) : OrderedMap String Variable :=
  if declared.contains known.name then declared
  else match topLevel.find? known.name with
    | some value => declared.insert known.name (known.declaration value)
    | none => declared

/-- The variables of a stack: the declared ones, and behind them the well-known ones for which there
is a value and no declaration. -/
def allVariables (declared : OrderedMap String Variable) (topLevel : OrderedMap String Hcl.Value) :
    OrderedMap String Variable :=
  wellKnownVariables.foldl (declareKnown topLevel) declared

end TerraStack
