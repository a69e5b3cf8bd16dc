import TerraStack.Shell.Evaluate
import TerraStack.Terraform.Program

namespace TerraStack.Shell

open Terraform (Ending Invocation Machine Programs)

/-- Enough fuel for the scripts that people write. -/
def standardFuel : Nat := 1000000

/-- The environment of a program: what is there for all, and what its invocation changes. -/
def environmentOf (common : List (String × String)) (invocation : Invocation) :
    OrderedMap String Variable :=
  .ofList ((common ++ invocation.environment).map fun (name, value) =>
    (name, { value := some (octetsOf value), isExported := true }))

/-- The machine as a program finds it. Its input and its two outputs are the first streams. -/
def State.ofMachine (common : List (String × String)) (machine : Machine) (invocation : Invocation)
    (directory : Location) : State where
  name := octetsOf invocation.program
  bindings := environmentOf common invocation
  directory
  descriptors := [(0, 0), (1, 1), (2, 2)]
  files := machine.files
  streams := #[.buffer (octetsOf (.ofList machine.input)), .buffer [], .buffer []]

/-- The reasons for which the system starts no program. -/
def absenceMessage : Absence → String
  | .notFound => "No such file or directory (os error 2)"
  | .forbidden => "Permission denied (os error 13)"
  | .noFormat _ => "Exec format error (os error 8)"

/-- The texts that are handed to a new program. No text can hold the byte that ends texts. -/
def handedOver (invocation : Invocation) : List String :=
  [invocation.program, invocation.workingDirectory] ++ invocation.args
    ++ invocation.environment.flatMap fun (name, value) => [name, value]

/-- What becomes of a program that is started, given what is run for it. -/
def endingOf (shell : State) (start : Start) : Ending :=
  let run : Run End := do
    let ending ← Run.inChild (Run.execute standardFuel start)
    let _ ← Run.attempt (Run.finishJobs standardFuel)
    return ending
  let (result, shell) := run.run.run shell
  let bytes (place : Nat) := bytesOfOctets (shell.unread place)
  { exitCode := match result with
      | .ok (.code status) => status % 256
      | _ => -1
    stdout := bytes 1
    stderr := bytes 2
    milliseconds := shell.milliseconds
    files := shell.files
    input := (textOf (shell.unread 0)).toList }

/-- The programs of a machine on which programs find an environment: the utilities, and the scripts
among the files. A script stands in for terraform. It is written for the occasion and answers as
terraform would, and what it does to the files stays. -/
def standIns (common : List (String × String)) : Programs := fun machine invocation =>
  if (handedOver invocation).any fun text => text.toList.contains '\x00' then
    .error "nul byte found in provided data"
  else
    match machine.files.locate invocation.workingDirectory with
    | .error _ => .error (absenceMessage .notFound)
    | .ok directory =>
      if !machine.files.isDirectory directory then .error (absenceMessage .notFound)
      else
        let shell := State.ofMachine common machine invocation directory
        let argv := (invocation.program :: invocation.args).map octetsOf
        match findStart shell.view shell.searchPath argv with
        | .error absence => .error (absenceMessage absence)
        | .ok start => .ok (endingOf shell start)

end TerraStack.Shell
