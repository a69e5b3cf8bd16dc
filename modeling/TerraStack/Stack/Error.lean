import TerraStack.FileSystem
import TerraStack.Yaml.Error

namespace TerraStack

/-- Why a stack cannot be loaded, put in order, generated or written. -/
inductive StackError where
  /-- There is no stack file at this path. -/
  | missingFile (path : String)
  | emptyDocument
  | notMapping
  /-- The module needs itself, by way of other modules or directly. -/
  | cycle (module : String)
  /-- The module needs one that the stack does not have or has disabled. -/
  | unresolved (module needed : String)
  /-- An order names a module that the stack does not have. -/
  | unknownModule (name : String)
  | yaml (error : Yaml.Error)
  | file (error : FileError)
  deriving Repr, DecidableEq

namespace StackError

/-- Whether the dependencies between modules are at fault. -/
def isDependency : StackError → Bool
  | .cycle _ | .unresolved _ _ => true
  | _ => false

/-- The text of an error for the operator. -/
def message : StackError → String
  | .missingFile path => "Configuration error: Configuration file not found: " ++ path
  | .emptyDocument => "Configuration error: Configuration file is empty"
  | .notMapping => "Configuration error: Configuration root must be a mapping"
  | .cycle module => "Circular dependency detected involving module: " ++ module
  | .unresolved module needed =>
    "Module '" ++ module ++ "' depends on '" ++ needed ++ "', which is not defined or not enabled"
  | .unknownModule name =>
    "Internal error: resolved order names unknown module '" ++ name ++ "'"
  | .yaml error => "YAML error: " ++ error.message
  | .file error => "IO error: " ++ error.message

end StackError
end TerraStack
