import TerraStack.Shell.Process

namespace TerraStack.Shell

/-- A program that comes with every system. It is given its arguments, and says with which exit code
it ends. -/
abbrev Utility := List Octets → Run Nat

/-- The arguments of a utility. Its options may stand among its operands. -/
structure Options where
  switches : List Char := []
  values : List (Char × Octets) := []
  operands : List Octets := []

namespace Options

def has (options : Options) (switch : Char) : Bool :=
  options.switches.contains switch

/-- The value that was given last. -/
def value? (options : Options) (letter : Char) : Option Octets :=
  options.values.lookup letter

/-- Read the letters behind a hyphen. The letter of a value that does not follow is returned. An
unknown letter is an error. -/
def readLetters (switches values : List Char) :
    Octets → Options → Except Char (Options × Option Char)
  | [], options => .ok (options, none)
  | c :: rest, options =>
    if values.contains c then
      if rest.isEmpty then .ok (options, some c)
      else .ok ({ options with values := (c, rest) :: options.values }, none)
    else if switches.contains c then
      readLetters switches values rest { options with switches := c :: options.switches }
    else .error c

/-- Read arguments of which some letters are switches and some have values. -/
def read (switches values : List Char) : List Octets → Options → Except Char Options
  | [], options => .ok options
  | arg :: rest, options =>
    match arg with
    | ['-', '-'] => .ok { options with operands := options.operands ++ rest }
    | '-' :: c :: letters =>
      match readLetters switches values (c :: letters) options, rest with
      | .error unknown, _ => .error unknown
      | .ok (options, none), rest => read switches values rest options
      | .ok (options, some letter), value :: rest =>
        read switches values rest { options with values := (letter, value) :: options.values }
      | .ok (_, some letter), [] => .error letter
    | _ => read switches values rest { options with operands := options.operands ++ [arg] }

end Options

namespace Run

/-- Complain in the name of a utility. -/
def complainAs (utility : String) (reason : Octets) : Run Unit :=
  warn (utility.toList ++ ": ".toList ++ reason ++ ['\n'])

/-- Go on with options, or complain about an unknown one. -/
def withOptions (utility switches values : String) (failure : Nat) (args : List Octets)
    (action : Options → Run Nat) : Run Nat := do
  match Options.read switches.toList values.toList args {} with
  | .ok options => action options
  | .error unknown =>
    complainAs utility ("invalid option -- '".toList ++ [unknown, '\''])
    warn ("Try '" ++ utility ++ " --help' for more information.\n").toList
    return failure

/-- Complain about a missing operand. -/
def missingOperand (utility : String) : Run Nat := do
  complainAs utility "missing operand".toList
  warn ("Try '" ++ utility ++ " --help' for more information.\n").toList
  return 1

/-- Change the files. -/
def changeFiles (change : FileSystem → Except FileError FileSystem) :
    Run (Except FileError Unit) := do
  let shell ← get
  match change shell.view with
  | .ok files =>
    set { shell with files := { files with workingDirectory := shell.files.workingDirectory } }
    return .ok ()
  | .error error => return .error error

/-- The descriptor that a path of a device stands for. -/
def deviceDescriptor? (path : Octets) : Option Nat :=
  [("/dev/stdin", 0), ("/dev/stdout", 1), ("/dev/stderr", 2), ("/dev/fd/0", 0), ("/dev/fd/1", 1),
    ("/dev/fd/2", 2)].lookup (textOf path)

/-- What is read from a path, on which a hyphen stands for the standard input. -/
def readPath (path : Octets) : Run (Except FileError Octets) := do
  if path = ['-'] || path = "/dev/stdin".toList then return .ok (← readAll 0)
  else return ((← view).readBytes (textOf path)).map octetsOfBytes

/-- Read the operands one after another, or the standard input if there are none. Complain about
those that cannot be read, in words that depend on the error. -/
def readOperands (utility : String) (complaint : Octets → FileError → Octets)
    (operands : List Octets) :
    Run (List (Octets × Octets) × Bool) := do
  let paths := if operands.isEmpty then [['-']] else operands
  let found ← paths.mapM fun path => return (path, ← readPath path)
  let mut contents := []
  let mut isComplete := true
  for (path, result) in found do
    match result with
    | .ok content => contents := (path, content) :: contents
    | .error error =>
      complainAs utility (complaint path error ++ ": ".toList ++ error.message.toList)
      isComplete := false
  return (contents.reverse, isComplete)

end Run

/-- A path between quotes. -/
def quoted (path : Octets) : Octets :=
  ['\''] ++ path ++ ['\'']

end TerraStack.Shell
