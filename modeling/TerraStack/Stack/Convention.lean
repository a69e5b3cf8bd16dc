import TerraStack.OrderedMap

namespace TerraStack

/-- A setting that nearly every stack gives under a key at its root. It is wired to the variable of
the first of some keys that the root has, where the provider's section leaves it open. -/
structure Convention where
  setting : String
  keys : List String
  deriving Repr, DecidableEq

/-- The first key that is there. -/
def Convention.select (convention : Convention) (isPresent : String → Bool) : Option String :=
  convention.keys.find? isPresent

/-- The conventions for each provider, in the order in which they apply. -/
abbrev Conventions := OrderedMap String (List Convention)

namespace Conventions

/-- The conventions for a provider. -/
def of (conventions : Conventions) (provider : String) : List Convention :=
  (conventions.find? provider).getD []

/-- Add a convention behind those for the same provider. -/
def add (conventions : Conventions) (provider : String) (convention : Convention) : Conventions :=
  conventions.insert provider (conventions.of provider ++ [convention])

/-- The conventions that hold unless others are given. -/
def standard : Conventions :=
  ((Conventions.add ∅ "google" ⟨"project", ["project_id", "project"]⟩).add
    "google" ⟨"region", ["region"]⟩).add "aws" ⟨"region", ["aws_region", "region"]⟩

end Conventions
end TerraStack
