import TerraStack.Shell.Grammar
import TerraStack.Shell.Lookup

namespace TerraStack.Shell

/-- Whether an argument may set a variable. Then it is not cut. -/
def isSetting (word : Word) : Bool :=
  (assignment? word).isSome

/-- The commands whose arguments may set variables. -/
def declaringCommands : List Octets :=
  ["export", "readonly", "local", "alias"].map String.toList

/-- The fields of the words of a command. -/
def expandArguments (capture : List Command → Run Octets) (words : List Word) :
    Run (List Octets) := do
  let mut fields : List Octets := []
  for word in words do
    let command := if fields.head? = some "command".toList then fields.drop 1 else fields
    if isSetting word && command.head?.any declaringCommands.contains then
      fields := fields ++ [← expandText capture word]
    else
      fields := fields ++ (← expandFields capture word)
  return fields

namespace Run

/-- End the process if it is to end when a command fails, unless the failure is looked at. -/
def checkFailure (isTested : Bool) : Run Unit := do
  let shell ← get
  if !isTested && shell.has 'e' && shell.status ≠ 0 then throw .exit

/-- Do something inside one more loop. -/
def inLoop {α : Type} (action : Run α) : Run α := do
  let loops := (← get).loops
  modifyProcess ({ · with loops := loops + 1 })
  let result ← attempt action
  modifyProcess ({ · with loops })
  resume result

/-- Do the body of a loop, and say whether the loop goes on. -/
def turn (action : Run Unit) : Run Bool := do
  match ← attempt action with
  | .ok () => return true
  | .error (.leave goesOn loops) =>
    if 1 < loops then throw (.leave goesOn (loops - 1)) else return goesOn
  | .error stop => throw stop

/-- Do something in the name of a command of the shell. -/
def speakingAs {α : Type} (speaker : Octets) (action : Run α) : Run α := do
  let before := (← get).speaker
  modifyProcess ({ · with speaker := some speaker })
  let result ← attempt action
  modifyProcess ({ · with speaker := before })
  resume result

/-- Set variables one after another, and find out what was known of them before and what their
values are. -/
def setAll (capture : List Command → Run Octets) (isExported : Bool) :
    List (String × Word) → Run (List (String × Option Variable × Octets))
  | [] => return []
  | (name, word) :: rest => do
    let before := (← get).bindings.find? name
    let value ← expandText capture word
    Run.assign name value
    if isExported then
      modifyProcess fun process =>
        { process with bindings := process.bindings.modify name ({ · with isExported := true }) }
    return (name, before, value) :: (← setAll capture isExported rest)

/-- Make variables what they were. -/
def restoreVariables (before : List (String × Option Variable)) : Run Unit :=
  before.reverse.forM fun (name, old) => modifyProcess fun process =>
    let bindings := match old with
      | some known => process.bindings.insert name known
      | none => process.bindings.erase name
    { process with bindings }

/-- What a name means to the shell, in the short form or in words. -/
def tellCommand (inWords : Bool) (name : Octets) : Run Nat := do
  let shell ← get
  let text := String.ofList name
  let tell (short long : Octets) : Run Nat := do
    say ((if inWords then name ++ " is ".toList ++ long else short) ++ ['\n'])
    return 0
  let evaluated := ["eval", ".", "exec", "command", "wait", "kill", "type"]
  if keywords.contains text then tell name "a shell keyword".toList
  else if specialBuiltins.contains text then tell name "a special shell builtin".toList
  else if shell.functions.contains text then tell name "a shell function".toList
  else if (plainBuiltins.lookup text).isSome || evaluated.contains text then
    tell name "a shell builtin".toList
  else match pathOfProgram? shell.view shell.searchPath name with
    | some path => tell path path
    | none => do
      if inWords then say (name ++ ": not found\n".toList)
      return 127

/-- Complain that a program is not run, and say with which exit code. -/
def complainOfAbsence (name : Octets) (absence : Absence) : Run Nat := do
  match absence with
  | .forbidden => do
    complain (name ++ ": Permission denied".toList)
    return 126
  | _ => do
    complain (name ++ ": not found".toList)
    return 127

/-- Write the paths at which programs are found. -/
def tellPaths (names : List Octets) : Run Nat := do
  let shell ← get
  let paths := names.map (pathOfProgram? shell.view shell.searchPath)
  say (fromLines (paths.filterMap id))
  return if paths.all Option.isSome then 0 else 1

/-- The variables that a shell starts with, given those that it finds. Only names can name them. -/
def startingVariables (found : OrderedMap String Variable) (directory : Location) :
    OrderedMap String Variable :=
  let kept := found.filter fun name known =>
    isName name.toList && known.isExported && known.value.isSome
  let own : List (String × Octets) :=
    [("IFS", [' ', '\t', '\n']), ("OPTIND", ['1']), ("PPID", ['1'])]
  let known := own.foldl (fun known (name, value) => known.insert name { value := some value }) kept
  let known := if known.contains "PATH" then known
    else known.insert "PATH" { value := some standardPath }
  known.insert "PWD" { value := some (octetsOf (FileSystem.pathOf directory)), isExported := true }

/-- Begin to be a shell, called by a name, with some arguments. -/
def becomeShell (name : Octets) (args : List Octets) : Run Unit :=
  modifyProcess fun process =>
    { number := process.number
      scriptNumber := process.number
      name
      args
      bindings := startingVariables process.bindings process.directory
      directory := process.directory
      descriptors := process.descriptors
      traps := process.traps.filter fun _ action => action.isEmpty }

/-- What a shell is to run. -/
inductive ShellSource where
  | text (text : Octets)
  | file (path : Octets)
  | input

/-- Read the options of a shell. -/
def readShellOptions : Nat → Bool → List Octets → Run (Bool × List Octets)
  | 0, takesText, args => return (takesText, args)
  | fuel + 1, takesText, args => do
    match args with
    | ['-', '-'] :: rest | ['-'] :: rest => return (takesText, rest)
    | (sign :: letters) :: rest =>
      if sign ≠ '-' && sign ≠ '+' then return (takesText, args)
      else
        let isText := letters.contains 'c'
        let (rest, _) ← readOptions 1 ((sign :: letters.filter (· ≠ 'c')) :: rest)
        let rest := if letters = ['c'] then args.drop 1 else rest
        readShellOptions fuel (takesText || isText) rest
    | _ => return (takesText, args)

/-- Begin to be a shell that is given arguments, and find out what it is to run. -/
def prepareShell (name : Octets) (args : List Octets) : Run ShellSource := do
  becomeShell name []
  let (takesText, rest) ← readShellOptions (args.length + 1) false args
  let setArgs (args : List Octets) : Run Unit := modifyProcess ({ · with args })
  match takesText, rest with
  | true, [] => die "-c requires an argument".toList
  | true, text :: rest =>
    rest.head?.forM fun name => modifyProcess ({ · with name })
    setArgs (rest.drop 1)
    return .text text
  | false, [] => return .input
  | false, path :: rest =>
    if (← get).has 's' then
      setArgs (path :: rest)
      return .input
    else
      setArgs rest
      return .file path

end Run
end TerraStack.Shell
