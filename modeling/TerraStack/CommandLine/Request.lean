import TerraStack.CommandLine.Arguments
import TerraStack.Stack.Writer
import TerraStack.Terraform.Launcher

namespace TerraStack.CommandLine

/-- What every command takes into account. -/
structure Globals where
  directory : String := "."
  preserve : Bool := true
  isDry : Bool := false
  program : String := "terraform"
  timeout : Nat := 0
  isVerbose : Bool := false
  isQuiet : Bool := false
  deriving Repr, DecidableEq

namespace Globals

/-- The writer of the files. -/
def writer (globals : Globals) : Writer :=
  ⟨globals.directory, globals.preserve⟩

/-- The launcher of terraform. -/
def launcher (globals : Globals) : Terraform.Launcher where
  program := globals.program
  isDry := globals.isDry
  timeout := globals.timeout

end Globals

/-- What a verb asks for, with the options that only this verb has. -/
inductive Action where
  | generate
  | validate (asJson : Bool)
  | deploy (planOnly approved : Bool)
  | destroy (workspace : Option String) (approved : Bool)
  deriving Repr, DecidableEq

/-- What the operator asks for. -/
structure Request where
  globals : Globals
  /-- The path of the stack file. -/
  config : String
  action : Action
  deriving Repr, DecidableEq

/-- The values that all commands share. What stands behind the verb counts more than what stands
before it, and both count more than the environment. -/
def Globals.ofArguments (environmentProgram : Option String) (before behind : Arguments) : Globals :=
  let has (switch : Switch) := before.switches.contains switch || behind.switches.contains switch
  let value? (setting : Setting) := behind.value? setting <|> before.value? setting
  { directory := (value? .terraformDir).getD "."
    preserve := !has .noPreserveTfvars
    isDry := has .dryRun
    program := (value? .terraformBin <|> environmentProgram).getD "terraform"
    timeout := ((value? .timeout).bind readSeconds?).getD 0
    isVerbose := has .verbose
    isQuiet := has .quiet }

/-- What a verb asks for, with its options. -/
def Action.ofArguments (arguments : Arguments) : Verb → Action
  | .generate => .generate
  | .validate => .validate (arguments.switches.contains .json)
  | .deploy =>
    .deploy (arguments.switches.contains .planOnly) (arguments.switches.contains .autoApprove)
  | .destroy => .destroy (arguments.value? .workspace) (arguments.switches.contains .autoApprove)

/-- Whether the environment may not name this terraform program. It is asked where the option is not
given before the verb, and where it is not given behind it. -/
def isRefused (environmentProgram : Option String) (before behind : Arguments) : Bool :=
  let isGiven (arguments : Arguments) := (arguments.value? .terraformBin).isSome
  environmentProgram = some "" && !(isGiven before && isGiven behind)

/-- What comes of asking for help with a verb, or with nothing. -/
def helpWith : List String → Stop
  | [] => .help
  | name :: rest =>
    if name ≠ "help" && (Verb.ofName? name).isNone then .usage (.unknownVerb name)
    else rest.head?.elim .help fun extra => .usage (.unknownVerb extra)

/-- The request that a command line makes. The environment may name the terraform program. -/
def Request.ofArguments (environmentProgram : Option String) (arguments : List String) :
    Except Stop Request := do
  let (before, rest) ← readArguments none arguments {}
  match rest with
  | [] => .error (.usage .missingVerb)
  | name :: rest =>
    match Verb.ofName? name with
    | none => .error (if name = "help" then helpWith rest else .usage (.unknownVerb name))
    | some verb =>
      let (behind, _) ← readArguments (some verb) rest {}
      let config ← behind.operand.elim (.error (.usage .missingFile)) .ok
      let before ← before.settle
      if isRefused environmentProgram before behind then
        .error (.usage (.invalidValue (Setting.name .terraformBin) ""))
      return {
        globals := .ofArguments environmentProgram before behind
        config
        action := .ofArguments behind verb }

/-- The paths at which a request finds or leaves something. -/
def Request.paths (request : Request) : List String :=
  let writer := request.globals.writer
  [request.config, writer.tfvarsPath, Path.join writer.generatedPath ".terraform"]
    ++ Artifacts.fileNames.map (Path.join writer.generatedPath)

/-- Whether a request may ask the operator. -/
def Request.mayAsk (request : Request) : Bool :=
  match request.action with
  | .generate | .validate _ => false
  | .deploy planOnly approved => !(planOnly || approved || request.globals.isDry)
  | .destroy _ approved => !(approved || request.globals.isDry)

end TerraStack.CommandLine
