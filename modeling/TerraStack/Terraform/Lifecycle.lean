import TerraStack.Terraform.Procedure
import TerraStack.Terraform.Workspace

namespace TerraStack.Terraform.Lifecycle

/-- The phrase that the operator types before a production workspace is destroyed. -/
def productionPhrase : String := "destroy-production"

/-- The workspace that is there from the start. -/
def defaultWorkspace : String := "default"

/-- The argument that names the file with the values of the variables, which lies beside the
directory in which terraform runs. -/
def varFileArgument : String := "-var-file=../terraform.tfvars"

def initArgs : List String := ["init", "-input=false"]
def planArgs : List String := ["plan", "-input=false", varFileArgument]
def applyArgs : List String := ["apply", "-input=false", varFileArgument, "-auto-approve"]
def destroyArgs : List String := ["destroy", "-input=false", varFileArgument, "-auto-approve"]
def planDestroyArgs : List String := ["plan", "-destroy", "-input=false", varFileArgument]
def listWorkspacesArgs : List String := ["workspace", "list"]
def listResourcesArgs : List String := ["state", "list"]
def selectArgs (workspace : String) : List String := ["workspace", "select", workspace]

def init : Procedure CommandOutput := .run initArgs
def plan : Procedure CommandOutput := .run planArgs
def apply : Procedure CommandOutput := .run applyArgs
def destroy : Procedure CommandOutput := .run destroyArgs

/-- What became of a deployment. -/
inductive DeployOutcome where
  | planned
  | applied
  deriving Repr, DecidableEq

/-- What became of the destruction of a workspace. -/
inductive DestroyOutcome where
  | nothingToDestroy
  | destroyed (resources : Nat)
  deriving Repr, DecidableEq

/-- Init, plan and, unless only a plan is wanted, apply once the operator agrees. Terraform itself
never asks. -/
def deploy (planOnly : Bool) : Procedure DeployOutcome := do
  let _ ← init
  let _ ← plan
  if planOnly then return .planned
  .insist (.yesNo "Apply these changes?") "apply declined"
  let _ ← apply
  return .applied

/-- Destroy what the current workspace holds once the operator agrees. -/
def confirmedDestroy : Procedure Unit := do
  .insist (.yesNo "Destroy all resources managed by this stack?") "destroy declined"
  let _ ← destroy
  return ()

/-- The names of the workspaces. -/
def listWorkspaces : Procedure (List String) := do
  return parseWorkspaces (← .run listWorkspacesArgs).stdout

/-- The number of resources in the current workspace. -/
def resourceCount : Procedure Nat := do
  return countResources (← .run listResourcesArgs).stdout

/-- The question before a workspace is destroyed. -/
def destroyQuestion (resources : Nat) (workspace : String) : Question :=
  .yesNo ("Destroy " ++ toString resources ++ " resources in '" ++ workspace ++ "' workspace?")

/-- The question before a production workspace is destroyed. -/
def productionQuestion : Question :=
  .phrase "This is a production workspace." productionPhrase

/-- Make a workspace the current one. The default workspace is taken to be current. -/
def selectWorkspace (workspace : String) : Procedure Unit := do
  if workspace ≠ defaultWorkspace then
    let _ ← .run (selectArgs workspace)

/-- Ask for the phrase if a workspace is in production. -/
def insistOnPhrase (workspace : String) : Procedure Unit := do
  if isProduction workspace then
    .insist productionQuestion "production destroy declined"

/-- Destroy a workspace behind a row of guards: it has to exist in a directory that is initialized,
and the operator has to agree, for a production workspace twice. A workspace without resources is
left alone. -/
def destroyWorkspace (directory : String) (initialized : Bool) (workspace : String) :
    Procedure DestroyOutcome := do
  .require initialized (.notInitialized directory)
  let workspaces ← listWorkspaces
  .require (workspaces.contains workspace) (.workspaceNotFound workspace)
  selectWorkspace workspace
  let resources ← resourceCount
  if resources = 0 then return .nothingToDestroy
  let _ ← .run planDestroyArgs
  .insist (destroyQuestion resources workspace) "destroy declined"
  insistOnPhrase workspace
  let _ ← destroy
  return .destroyed resources

end TerraStack.Terraform.Lifecycle
