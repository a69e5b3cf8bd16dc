import TerraStack.Text.Blank
import TerraStack.Text.Lines

namespace TerraStack.Terraform

/-- The name on a line of a list of workspaces, in which a star marks the current one. -/
def workspaceOnLine (line : List Char) : List Char :=
  Text.trimChars ((Text.trimChars line).dropWhile (· = '*'))

/-- The names in the list of workspaces that terraform prints. -/
def parseWorkspaces (listing : String) : List String :=
  (((Text.lineChars listing.toList).map workspaceOnLine).filter (!·.isEmpty)).map String.ofList

/-- The number of resources in the list of resources that terraform prints, one on each line. -/
def countResources (listing : String) : Nat :=
  (Text.lineChars listing.toList).countP fun line => !(Text.trimChars line).isEmpty

/-- Whether a workspace is in production, whatever the case of its name. -/
def isProduction (workspace : String) : Bool :=
  ["prod".toList, "production".toList].contains (workspace.toList.map Char.toLower)

end TerraStack.Terraform
