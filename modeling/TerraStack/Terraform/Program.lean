import TerraStack.FileSystem
import TerraStack.Text.Lines

namespace TerraStack.Terraform

/-- A program that is to be started. -/
structure Invocation where
  program : String
  args : List String
  workingDirectory : String
  /-- What is added to the environment, or replaced in it. -/
  environment : List (String × String)
  /-- Whether the program may read what the operator types. -/
  sharesInput : Bool
  deriving Repr, DecidableEq

/-- A program that was started, and the files that it found. -/
structure Start where
  invocation : Invocation
  files : FileSystem

/-- A machine as programs see it: it has files and an operator who types, and remembers which
programs were started and which files they found. -/
structure Machine where
  files : FileSystem
  /-- What the operator has typed and nobody has read. -/
  input : List Char := []
  /-- The programs that were started, the last one first. -/
  started : List Start := []

/-- What a program leaves when it ends. -/
structure Ending where
  /-- Below zero for a program that a signal ended. -/
  exitCode : Int
  stdout : List UInt8 := []
  stderr : List UInt8 := []
  milliseconds : Nat := 0
  files : FileSystem
  /-- What the program has not read. -/
  input : List Char := []

/-- What becomes of an invocation on a machine, which a program finds and leaves changed. It may
depend on all invocations before it, so a program may keep a state of its own, as terraform does.
There is a reason why a program cannot be started. -/
abbrev Programs := Machine → Invocation → Except String Ending

/-- Start a program and wait for its end. One that may not read what the operator types finds an
empty input. -/
def Machine.start (machine : Machine) (programs : Programs) (invocation : Invocation) :
    Except String Ending × Machine :=
  let input := if invocation.sharesInput then machine.input else []
  match programs { machine with input } invocation with
  | .error reason => (.error reason, machine)
  | .ok ending =>
    (.ok ending, {
      files := ending.files
      input := if invocation.sharesInput then ending.input else machine.input
      started := ⟨invocation, machine.files⟩ :: machine.started })

/-- What is read of an output: its lines up to the first that is no text, each with a line feed at
its end. -/
def readOutput (bytes : List UInt8) : String :=
  String.join (((Text.textsBefore (Text.byteLines bytes)).flatMap Text.lines).map (· ++ "\n"))

end TerraStack.Terraform
