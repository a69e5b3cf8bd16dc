import TerraStack.Shell.Utility.Batch
import TerraStack.Shell.Utility.Edit
import TerraStack.Shell.Utility.File
import TerraStack.Shell.Utility.Search
import TerraStack.Shell.Utility.Text

namespace TerraStack.Shell

/-- The utilities with their names. -/
def utilities : List (String × Utility) :=
  valueUtilities ++ fileUtilities ++ textUtilities ++ searchUtilities ++ editUtilities

/-- The utilities that run other programs. -/
def launchers : List String :=
  ["sh", "dash", "bash", "env", "xargs", "timeout", "which"]

/-- Whether a name is that of a utility. -/
def isUtility (name : String) : Bool :=
  launchers.contains name || (utilities.lookup name).isSome

end TerraStack.Shell
