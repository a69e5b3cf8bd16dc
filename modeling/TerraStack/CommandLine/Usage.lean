import TerraStack.CommandLine.Flag
import TerraStack.Text.Lines

namespace TerraStack.CommandLine

/-- What is wrong with a command line. -/
inductive UsageError where
  | missingVerb
  | unknownVerb (name : String)
  | unknownOption (text : String)
  | repeatedOption (name : String)
  | missingValue (name : String)
  | unwantedValue (name : String)
  | invalidValue (name value : String)
  | missingFile
  | unexpectedArgument (text : String)
  deriving Repr, DecidableEq

/-- The text of an error for the operator. -/
def UsageError.message : UsageError → String
  | .missingVerb => "a command is required"
  | .unknownVerb name => "there is no command '" ++ name ++ "'"
  | .unknownOption text => "there is no option '" ++ text ++ "'"
  | .repeatedOption name => "the option '--" ++ name ++ "' can be given only once"
  | .missingValue name => "the option '--" ++ name ++ "' needs a value"
  | .unwantedValue name => "the option '--" ++ name ++ "' takes no value"
  | .invalidValue name value => "'" ++ value ++ "' is no value for '" ++ name ++ "'"
  | .missingFile => "a stack file is required"
  | .unexpectedArgument text => "the argument '" ++ text ++ "' is not expected"

/-- Why a command line asks for nothing to be done. -/
inductive Stop where
  | help
  /-- The version is asked for, before a verb or behind it. -/
  | version (verb : Option Verb)
  | usage (error : UsageError)
  deriving Repr, DecidableEq

/-- The name of the program. -/
def programName : String := "modweave"

/-- The version of the program. Each verb has it too. -/
def versionText (verb : Option Verb) : String :=
  Text.join "-" (programName :: (verb.map Verb.name).toList) ++ " 0.1.0\n"

/-- How the program is used. -/
def usageText : String := Text.unlines [
  "Usage: " ++ programName ++ " [OPTIONS] COMMAND FILE",
  "",
  "Commands:",
  "  generate  write the terraform files of a stack",
  "  validate  check a stack file and print the order of its modules [--json]",
  "  deploy    write the files, then init, plan and apply [-p] [-a]",
  "  destroy   write the files, then destroy [-w WORKSPACE] [-a]",
  "",
  "Options:",
  "  -d, --terraform-dir DIR    the directory of terraform.tfvars and generated/ [default: .]",
  "      --no-preserve-tfvars   do not merge into a terraform.tfvars that is there",
  "      --dry-run              start no terraform commands",
  "      --terraform-bin BIN    the terraform program [default: terraform]",
  "      --timeout SECONDS      give a terraform command up after this time [default: 0]",
  "  -v, --verbose              say more",
  "  -q, --quiet                say less",
  "  -p, --plan-only            do not apply",
  "  -a, --auto-approve         do not ask",
  "  -w, --workspace NAME       the workspace to destroy",
  "      --json                 print the order of the modules as JSON",
  ""]

end TerraStack.CommandLine
