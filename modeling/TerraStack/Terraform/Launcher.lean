import TerraStack.OrderedMap
import TerraStack.Terraform.Command
import TerraStack.Terraform.Program
import TerraStack.Text.Blank

namespace TerraStack.Terraform

/-- How terraform is run as a program. A dry launcher starts nothing: every command succeeds at once
and says nothing. -/
structure Launcher where
  program : String := "terraform"
  isDry : Bool := false
  /-- The seconds after which a command is given up. Zero waits for ever. -/
  timeout : Nat := 0
  /-- What commands find in their environment. -/
  environment : OrderedMap String String := .ofList [("TF_IN_AUTOMATION", "1")]

namespace Launcher

/-- The argument that asks terraform for its version. -/
def versionArgs : List String := ["version"]

/-- What is to be started for a command. -/
def invocation (launcher : Launcher) (workingDirectory : String) (args : List String) :
    Invocation where
  program := launcher.program
  args
  workingDirectory
  environment := launcher.environment.entries
  sharesInput := false

/-- What is to be started to ask for the version. The environment is left as it is. -/
def versionInvocation (launcher : Launcher) (sharesInput : Bool) : Invocation where
  program := launcher.program
  args := versionArgs
  workingDirectory := "."
  environment := []
  sharesInput

/-- Whether a program that takes some time is given up. -/
def isTooSlow (launcher : Launcher) (milliseconds : Nat) : Bool :=
  launcher.timeout ≠ 0 && launcher.timeout * 1000 < milliseconds

/-- What a command leaves, given what its program leaves. -/
def outputOf (launcher : Launcher) (args : List String) (ending : Ending) :
    Except Error CommandOutput :=
  if launcher.isTooSlow ending.milliseconds then .error (.timedOut launcher.timeout)
  else .ok {
    args
    exitCode := ending.exitCode
    stdout := readOutput ending.stdout
    stderr := readOutput ending.stderr
    milliseconds := ending.milliseconds }

/-- Run a command. -/
def run (launcher : Launcher) (programs : Programs) (workingDirectory : String)
    (args : List String) (machine : Machine) : Except Error CommandOutput × Machine :=
  if launcher.isDry then (.ok { args, exitCode := 0, stdout := "", stderr := "" }, machine)
  else
    match machine.start programs (launcher.invocation workingDirectory args) with
    | (.error reason, machine) =>
      (.error (.notStarted (launcher.program ++ ": " ++ reason)), machine)
    | (.ok ending, machine) => (launcher.outputOf args ending, machine)

/-- Find out whether terraform can be run. It may read what the operator types. -/
def probe (launcher : Launcher) (programs : Programs) (machine : Machine) : Bool × Machine :=
  match machine.start programs (launcher.versionInvocation true) with
  | (.error _, machine) => (false, machine)
  | (.ok ending, machine) => (ending.exitCode = 0, machine)

/-- The version of which a program tells in its first line. -/
def versionOf (ending : Ending) : Except Error String :=
  if ending.exitCode = 0 then
    .ok (Text.trim ((Text.lines (Text.decodeAll ending.stdout)).headD ""))
  else .error (.notAvailable (Text.decodeAll ending.stderr))

/-- Ask for the version. -/
def version (launcher : Launcher) (programs : Programs) (machine : Machine) :
    Except Error String × Machine :=
  match machine.start programs (launcher.versionInvocation false) with
  | (.error reason, machine) => (.error (.notAvailable reason), machine)
  | (.ok ending, machine) => (versionOf ending, machine)

end Launcher
end TerraStack.Terraform
