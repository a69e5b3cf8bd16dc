import TerraStack.CommandLine.Request
import TerraStack.CommandLine.Session
import TerraStack.Stack.Writer
import TerraStack.Terraform.Lifecycle
import TerraStack.Text.Json

namespace TerraStack.CommandLine

open Terraform (Procedure Programs)

/-- Load the stack file at a path. -/
def loadStack (path : String) : Step Stack := do
  let files := (← get).files
  if files.contains path then Step.ofExcept (.notLoaded path) (Stack.load files path)
  else throw (.missingConfig path)

/-- Put the modules of a stack in order and make its files. -/
def generateStack (stack : Stack) : Step Generated :=
  Step.ofExcept .stack stack.generate

/-- Load the stack file at a path and write the files of the stack. The modules are put in order
before anything is written, and all is written before terraform is started. -/
def generateFiles (globals : Globals) (path : String) : Step Generated := do
  let stack ← loadStack path
  let generated ← generateStack stack
  let _ ← Step.changeFiles (globals.writer.write generated.artifacts)
  let _ ← Step.changeFiles (globals.writer.writeTfvars stack)
  return generated

/-- Make sure that terraform can be run, unless nothing is to be started. Log messages are off here.
Where they are on, as they are unless somebody turns them off, terraform is asked for its version a
second time, for a message that names it, and the request fails there if it cannot be told. -/
def requireTerraform (programs : Programs) (globals : Globals) : Step Unit := do
  if globals.isDry then return
  let session ← get
  let (isAvailable, machine) := globals.launcher.probe programs session.toMachine
  set { session with toMachine := machine }
  if isAvailable then return
  throw (.terraform (.notAvailable ("could not run '" ++ globals.program ++ "'")))

/-- Show what a command has said. -/
def echo (isQuiet : Bool) (output : Terraform.CommandOutput) (session : Session) : Session :=
  if isQuiet then session else (session.say output.stdout).warn output.stderr

/-- Commands run terraform in the directory of the generated files. Questions go to the operator,
unless all has been approved or nothing is started anyway. -/
def handler (programs : Programs) (globals : Globals) (approved : Bool) :
    Terraform.Handler Session where
  command args session :=
    let (result, machine) :=
      globals.launcher.run programs globals.writer.generatedPath args session.toMachine
    let session := { session with toMachine := machine }
    match result with
    | .ok output => (.ok output, echo globals.isQuiet output session)
    | .error error => (.error error, session)
  answer question session :=
    if approved || globals.isDry then (true, session) else session.ask question

/-- Carry out a procedure. -/
def perform {α : Type} (programs : Programs) (globals : Globals) (approved : Bool)
    (procedure : Procedure α) : Step α := do
  let (result, session) := procedure.perform (handler programs globals approved) (← get)
  set session
  Step.ofExcept .terraform result

/-- Whether terraform has been initialized in the directory of the generated files. -/
def isInitialized (globals : Globals) (files : FileSystem) : Bool :=
  files.contains (Path.join globals.writer.generatedPath ".terraform")

/-- Destroy a workspace, and say what became of it. -/
def destroyWorkspace (programs : Programs) (globals : Globals) (workspace : String)
    (approved : Bool) : Step Unit := do
  let procedure := Terraform.Lifecycle.destroyWorkspace globals.writer.generatedPath
    (isInitialized globals (← get).files) workspace
  match ← perform programs globals approved procedure with
  | .nothingToDestroy =>
    Step.report globals.isQuiet
      ("ℹ️  No resources found in '" ++ workspace ++ "'. Nothing to destroy.")
  | .destroyed resources =>
    Step.report globals.isQuiet
      ("✅ Destroyed " ++ toString resources ++ " resources in '" ++ workspace ++ "' workspace")

/-- The lines of an order of modules, with their positions. -/
def orderLines (order : List String) : List String :=
  order.mapIdx fun index name => "   " ++ toString (index + 1) ++ ". " ++ name

/-- Write the files. -/
def generate (globals : Globals) (config : String) : Step Unit := do
  let generated ← generateFiles globals config
  Step.report globals.isQuiet ("✅ Generated Terraform files in " ++ globals.writer.generatedPath)
  Step.report globals.isQuiet ("   Module order: " ++ Text.join " → " generated.order)

/-- Check the stack, and write nothing. -/
def validate (globals : Globals) (config : String) (asJson : Bool) : Step Unit := do
  let generated ← generateStack (← loadStack config)
  if asJson then Step.say (Text.Json.array generated.order ++ "\n")
  else
    Step.report globals.isQuiet
      ("📋 " ++ toString generated.order.length ++ " enabled modules")
    (orderLines generated.order).forM (Step.report globals.isQuiet)
    Step.report globals.isQuiet ""
    Step.report globals.isQuiet "✅ Stack is valid"

/-- Write the files and deploy them. -/
def deploy (programs : Programs) (globals : Globals) (config : String)
    (planOnly approved : Bool) : Step Unit := do
  let _ ← generateFiles globals config
  requireTerraform programs globals
  match ← perform programs globals approved (Terraform.Lifecycle.deploy planOnly) with
  | .planned => Step.report globals.isQuiet "📋 Plan complete. Nothing was applied."
  | .applied => Step.report globals.isQuiet "✅ Deployment complete!"

/-- Write the files and destroy what was deployed. A dry run does not look for the workspace. -/
def destroy (programs : Programs) (globals : Globals) (config : String)
    (workspace : Option String) (approved : Bool) : Step Unit := do
  let _ ← generateFiles globals config
  requireTerraform programs globals
  match workspace with
  | none =>
    perform programs globals approved Terraform.Lifecycle.confirmedDestroy
    Step.report globals.isQuiet "✅ Infrastructure destroyed successfully!"
  | some workspace =>
    if globals.isDry then
      let _ ← perform programs globals approved Terraform.Lifecycle.destroy
    else destroyWorkspace programs globals workspace approved

/-- The steps of a request. -/
def Request.steps (programs : Programs) (request : Request) : Step Unit :=
  match request.action with
  | .generate => generate request.globals request.config
  | .validate asJson => validate request.globals request.config asJson
  | .deploy planOnly approved =>
    deploy programs request.globals request.config planOnly approved
  | .destroy workspace approved =>
    destroy programs request.globals request.config workspace approved

/-- Carry out a request, and tell the operator of a failure. -/
def Request.run (programs : Programs) (request : Request) (session : Session) :
    ExitCode × Session :=
  match ((request.steps programs).run).run session with
  | (.ok (), session) => (.success, session)
  | (.error failure, session) =>
    (failure.exitCode, session.warn ("❌ Error: " ++ failure.message ++ "\n"))

/-- Do what a command line asks for. -/
def run (programs : Programs) (environmentProgram : Option String) (arguments : List String)
    (session : Session) : ExitCode × Session :=
  match Request.ofArguments environmentProgram arguments with
  | .ok request => request.run programs session
  | .error .help => (.success, session.say usageText)
  | .error (.version verb) => (.success, session.say (versionText verb))
  | .error (.usage error) => (.usage, session.warn (error.message ++ "\n\n" ++ usageText))

end TerraStack.CommandLine
