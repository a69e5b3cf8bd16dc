import TerraStack.Stack.Error
import TerraStack.Terraform.Error

namespace TerraStack.CommandLine

/-- Why a request fails. -/
inductive Failure where
  | missingConfig (path : String)
  | notLoaded (path : String) (error : StackError)
  | stack (error : StackError)
  | terraform (error : Terraform.Error)
  deriving Repr, DecidableEq

/-- The exit codes, by which scripts can tell why a request fails. -/
inductive ExitCode where
  | success
  | general
  /-- The arguments make no sense. -/
  | usage
  /-- The stack or the dependencies between its modules are at fault. -/
  | invalidStack
  | terraform
  deriving Repr, DecidableEq

def ExitCode.toNat : ExitCode → Nat
  | .success => 0
  | .general => 1
  | .usage => 2
  | .invalidStack => 3
  | .terraform => 5

/-- The exit code of an error in a stack: files that cannot be read or written are not the fault of
the stack. -/
def exitCodeOfStack : StackError → ExitCode
  | .file _ | .unknownModule _ => .general
  | _ => .invalidStack

/-- The exit code of an error of terraform. An operator who does not agree is no such error. -/
def exitCodeOfTerraform : Terraform.Error → ExitCode
  | .aborted _ => .general
  | _ => .terraform

namespace Failure

def exitCode : Failure → ExitCode
  | .missingConfig _ => .usage
  | .notLoaded _ error | .stack error => exitCodeOfStack error
  | .terraform error => exitCodeOfTerraform error

/-- The text of a failure for the operator. -/
def message : Failure → String
  | .missingConfig path => "Configuration file not found: " ++ path
  | .notLoaded path error => "Failed to load stack file " ++ path ++ ": " ++ error.message
  | .stack error => error.message
  | .terraform error => error.message

end Failure
end TerraStack.CommandLine
