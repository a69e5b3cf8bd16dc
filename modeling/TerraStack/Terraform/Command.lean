import TerraStack.Terraform.Error
import TerraStack.Text.Lines

namespace TerraStack.Terraform

/-- What a terraform command leaves behind. -/
structure CommandOutput where
  args : List String
  /-- Below zero for a command that a signal ended. -/
  exitCode : Int
  stdout : String
  stderr : String
  milliseconds : Nat := 0
  deriving Repr, DecidableEq

namespace CommandOutput

/-- Whether the command succeeded. -/
def isSuccess (output : CommandOutput) : Bool :=
  output.exitCode = 0

/-- The command as the operator would have typed it. -/
def commandLine (output : CommandOutput) : String :=
  "terraform " ++ Text.join " " output.args

/-- The last line that the command wrote as an error. -/
def lastWords (output : CommandOutput) : String :=
  (Text.lines output.stderr).getLast?.getD "Unknown error"

/-- The output of a command that succeeded. -/
def checked (output : CommandOutput) : Except Error CommandOutput :=
  if output.isSuccess then .ok output
  else .error (.commandFailed output.commandLine output.exitCode output.lastWords)

end CommandOutput
end TerraStack.Terraform
