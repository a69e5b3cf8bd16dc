import TerraStack.CommandLine.Failure
import TerraStack.Terraform.Confirmation
import TerraStack.Terraform.Launcher

namespace TerraStack.CommandLine

/-- All that a request reads and changes: a machine, and what the operator has been shown. What has
been written, asked and started stays so when the request fails. -/
structure Session extends Terraform.Machine where
  output : String := ""
  errors : String := ""

/-- A step of a request. -/
abbrev Step := ExceptT Failure (StateM Session)

namespace Session

/-- Show a text to the operator. -/
def say (text : String) (session : Session) : Session :=
  { session with output := session.output ++ text }

/-- Show a text to the operator beside the output proper. -/
def warn (text : String) (session : Session) : Session :=
  { session with errors := session.errors ++ text }

/-- The next line that the operator has typed, and what comes after it. -/
def nextLine? : List Char → Option (List Char × List Char)
  | [] => none
  | cs => some (cs.takeWhile (· ≠ '\n'), (cs.dropWhile (· ≠ '\n')).drop 1)

/-- Ask the operator a question. The end of the input is no agreement. -/
def ask (question : Terraform.Question) (session : Session) : Bool × Session :=
  let session := session.warn (question.fullPrompt ++ " ")
  match nextLine? session.input with
  | none => (question.accepts none, session)
  | some (line, rest) => (question.accepts (some (.ofList line)), { session with input := rest })

end Session

namespace Step

/-- Show a text to the operator. -/
def say (text : String) : Step Unit :=
  modify (·.say text)

/-- Show a line to the operator unless the operator wants quiet. -/
def report (isQuiet : Bool) (line : String) : Step Unit :=
  if isQuiet then pure () else say (line ++ "\n")

/-- Go on with a result, unless it is an error. -/
def ofExcept {α ε : Type} (failure : ε → Failure) : Except ε α → Step α
  | .ok value => pure value
  | .error error => throw (failure error)

/-- Change the files. -/
def changeFiles {α : Type} (change : FileSystem → FileSystem × Except FileError α) : Step α := do
  let session ← get
  let (files, result) := change session.files
  set { session with files }
  ofExcept (fun error => .stack (.file error)) result

end Step
end TerraStack.CommandLine
