import TerraStack.Terraform.Command
import TerraStack.Text.Affix

namespace TerraStack.Terraform

/-- What is answered to the command lines that start with a beginning. -/
structure Response where
  exitCode : Int := 0
  stdout : String := ""
  stderr : String := ""
  milliseconds : Nat := 0
  deriving Repr, DecidableEq

namespace Response

/-- The response of a command that succeeds. -/
def success (stdout : String) : Response where
  stdout
  milliseconds := 100

/-- The response of a command that fails. -/
def failure (exitCode : Int) (stderr : String) : Response where
  exitCode
  stderr
  milliseconds := 100

end Response

/-- A command that was run. -/
structure Call where
  workingDirectory : String
  args : List String
  deriving Repr, DecidableEq

namespace Call

def commandLine (call : Call) : String :=
  Text.join " " call.args

def subcommand? (call : Call) : Option String :=
  call.args.head?

end Call

/-- A terraform that answers from a script, and remembers what it was asked to do. -/
structure Script where
  isAvailable : Bool := true
  /-- The responses with the beginnings of their command lines, as they were added. -/
  responses : List (String × Response) := []
  /-- The commands that were run, the last one first. -/
  calls : List Call := []
  /-- Why no command can be started, if none can. -/
  failure : Option String := none

namespace Script

/-- Add a response. -/
def respond (script : Script) (beginning : String) (response : Response) : Script :=
  { script with responses := script.responses ++ [(beginning, response)] }

/-- The better of two responses for a command line that fits both, the second having been added
later. -/
def better (best : Option (String × Response)) (next : String × Response) :
    Option (String × Response) :=
  match best with
  | none => some next
  | some known => if known.1.length ≤ next.1.length then some next else some known

/-- The response to a command line. The longest beginning counts, and of several alike the one that
was added last. A command line without a response succeeds and says nothing. -/
def responseTo (script : Script) (commandLine : String) : Response :=
  let fitting := script.responses.filter fun entry => Text.startsWith entry.1 commandLine
  ((fitting.foldl better none).map Prod.snd).getD (.success "")

/-- Run a command. -/
def run (workingDirectory : String) (args : List String) (script : Script) :
    Except Error CommandOutput × Script :=
  let after := { script with calls := ⟨workingDirectory, args⟩ :: script.calls }
  match script.failure with
  | some reason => (.error (.notStarted reason), after)
  | none =>
    let response := script.responseTo (Text.join " " args)
    (.ok { response with args }, after)

/-- What the scripted terraform says about its version. -/
def version : String := "Terraform v1.6.0 (mock)"

/-- Whether a subcommand was run. -/
def wasCalled (script : Script) (subcommand : String) : Bool :=
  script.calls.any fun call => call.subcommand? = some subcommand

end Script
end TerraStack.Terraform
