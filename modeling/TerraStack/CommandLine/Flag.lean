namespace TerraStack.CommandLine

/-- What is to be done. -/
inductive Verb where
  | generate
  | validate
  | deploy
  | destroy
  deriving Repr, DecidableEq

/-- An option that is on or off. Most options belong to every verb and may stand before it too. -/
inductive Switch where
  | noPreserveTfvars
  | dryRun
  | verbose
  | quiet
  | json
  | planOnly
  | autoApprove
  deriving Repr, DecidableEq

/-- An option that has a value. -/
inductive Setting where
  | terraformDir
  | terraformBin
  | timeout
  | workspace
  deriving Repr, DecidableEq

namespace Verb

def all : List Verb := [.generate, .validate, .deploy, .destroy]

def name : Verb → String
  | .generate => "generate"
  | .validate => "validate"
  | .deploy => "deploy"
  | .destroy => "destroy"

/-- The switches of a verb alone. -/
def ownSwitches : Verb → List Switch
  | .generate => []
  | .validate => [.json]
  | .deploy => [.planOnly, .autoApprove]
  | .destroy => [.autoApprove]

/-- The settings of a verb alone. -/
def ownSettings : Verb → List Setting
  | .destroy => [.workspace]
  | _ => []

/-- The verb of a name. -/
def ofName? (name : String) : Option Verb :=
  all.find? fun verb => verb.name = name

end Verb

namespace Switch

/-- The switches that every verb has. -/
def shared : List Switch := [.noPreserveTfvars, .dryRun, .verbose, .quiet]

def name : Switch → String
  | .noPreserveTfvars => "no-preserve-tfvars"
  | .dryRun => "dry-run"
  | .verbose => "verbose"
  | .quiet => "quiet"
  | .json => "json"
  | .planOnly => "plan-only"
  | .autoApprove => "auto-approve"

def letter? : Switch → Option Char
  | .verbose => some 'v'
  | .quiet => some 'q'
  | .planOnly => some 'p'
  | .autoApprove => some 'a'
  | _ => none

/-- The switches that may be given: before the verb only the shared ones. -/
def allowed (verb : Option Verb) : List Switch :=
  shared ++ verb.elim [] Verb.ownSwitches

end Switch

namespace Setting

/-- The settings that every verb has. -/
def shared : List Setting := [.terraformDir, .terraformBin, .timeout]

def name : Setting → String
  | .terraformDir => "terraform-dir"
  | .terraformBin => "terraform-bin"
  | .timeout => "timeout"
  | .workspace => "workspace"

def letter? : Setting → Option Char
  | .terraformDir => some 'd'
  | .workspace => some 'w'
  | _ => none

/-- The settings that may be given: before the verb only the shared ones. -/
def allowed (verb : Option Verb) : List Setting :=
  shared ++ verb.elim [] Verb.ownSettings

end Setting
end TerraStack.CommandLine
