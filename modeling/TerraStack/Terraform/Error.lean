namespace TerraStack.Terraform

/-- Why running terraform fails. -/
inductive Error where
  | notAvailable (reason : String)
  | notStarted (reason : String)
  /-- A command ended with an exit code other than zero. -/
  | commandFailed (commandLine : String) (exitCode : Int) (lastWords : String)
  | timedOut (seconds : Nat)
  | notInitialized (directory : String)
  | workspaceNotFound (workspace : String)
  /-- The operator did not agree. -/
  | aborted (reason : String)
  deriving Repr, DecidableEq

/-- The text of an error for the operator. -/
def Error.message : Error → String
  | .notAvailable reason => "Terraform not available: " ++ reason
  | .notStarted reason => "Failed to spawn terraform: " ++ reason
  | .commandFailed commandLine exitCode lastWords =>
    "Command `" ++ commandLine ++ "` failed with exit code " ++ toString exitCode ++ ": " ++ lastWords
  | .timedOut seconds => "Terraform command timed out after " ++ toString seconds ++ " seconds"
  | .notInitialized directory =>
    "Terraform not initialized in " ++ directory ++ ". Run init first."
  | .workspaceNotFound workspace => "Workspace '" ++ workspace ++ "' does not exist"
  | .aborted reason => "Aborted: " ++ reason

end TerraStack.Terraform
