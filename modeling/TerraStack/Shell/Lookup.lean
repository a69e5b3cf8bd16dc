import TerraStack.Shell.Utility.All

namespace TerraStack.Shell

/-- What is run when a program is started. -/
structure Start where
  utility : String
  /-- What the program is called. -/
  name : Octets
  args : List Octets

/-- Why nothing is run. -/
inductive Absence where
  | notFound
  | forbidden
  /-- The file at a path does not name an interpreter. -/
  | noFormat (path : Octets)
  deriving Repr, DecidableEq

/-- The directories in which programs are looked for. -/
def standardPath : Octets :=
  "/usr/local/sbin:/usr/local/bin:/usr/sbin:/usr/bin:/sbin:/bin".toList

/-- The utility at a path. Two directories hold the utilities; any other program is a file that
names its interpreter. -/
def utilityAt? (path : Octets) : Option String :=
  match (splitAt '/' path).filter (· ≠ []) with
  | [['b', 'i', 'n'], name] | [['u', 's', 'r'], ['b', 'i', 'n'], name] =>
    if path.head? = some '/' && isUtility (.ofList name) then some (.ofList name) else none
  | _ => none

/-- The interpreter that a script names in its first line, with the argument that it names too. -/
def interpreter? (content : Octets) : Option (List Octets) :=
  match content with
  | '#' :: '!' :: rest =>
    let isGap (c : Char) := c = ' ' || c = '\t'
    let line := (rest.takeWhile (· ≠ '\n')).dropWhile isGap
    let line := (line.reverse.dropWhile isGap).reverse
    let path := line.takeWhile (!isGap ·)
    let argument := (line.drop path.length).dropWhile isGap
    if path.isEmpty then none
    else some (path :: if argument.isEmpty then [] else [argument])
  | _ => none

/-- What is run for the program at a path. Interpreters may have interpreters, to a certain depth. -/
def startAt (files : FileSystem) : Nat → Octets → List Octets → Except Absence Start
  | 0, _, _ => .error .notFound
  | depth + 1, path, argv =>
    match utilityAt? path with
    | some utility => .ok ⟨utility, argv.headD path, argv.drop 1⟩
    | none =>
      match files.locate (textOf path) with
      | .error _ => .error .notFound
      | .ok location =>
        match files.entry? location with
        | none => .error .notFound
        | some entry =>
          if !files.programs.contains location then .error .forbidden
          else match interpreter? (octetsOfBytes (entry.bytes?.getD [])) with
            | some (interpreter :: argument) =>
              startAt files depth interpreter (interpreter :: argument ++ path :: argv.drop 1)
            | _ => .error (.noFormat path)

/-- The paths at which a program may be. -/
def candidates (searchPath name : Octets) : List Octets :=
  if name.contains '/' then [name]
  else if name.isEmpty then []
  else (splitAt ':' searchPath).map fun directory =>
    if directory.isEmpty then name else withoutSlashes directory ++ '/' :: name

/-- What is run for a program that is looked for in some directories. What may not be run does not
hide what is found later. -/
def findStart (files : FileSystem) (searchPath : Octets) (argv : List Octets) :
    Except Absence Start :=
  let attempts := (candidates searchPath (argv.headD [])).map fun path =>
    startAt files 5 path argv
  let isSettled (attempt : Except Absence Start) : Bool := match attempt with
    | .error .notFound | .error .forbidden => false
    | _ => true
  let isForbidden (attempt : Except Absence Start) : Bool := match attempt with
    | .error .forbidden => true
    | _ => false
  match attempts.find? isSettled with
  | some attempt => attempt
  | none => .error (if attempts.any isForbidden then .forbidden else .notFound)

/-- What is run for a command of the shell. A file without an interpreter is a script of the shell. -/
def findCommand (files : FileSystem) (searchPath : Octets) (argv : List Octets) :
    Except Absence Start :=
  match findStart files searchPath argv with
  | .error (.noFormat path) => .ok ⟨"sh", argv.headD [], path :: argv.drop 1⟩
  | found => found

/-- The path at which a program is found. A name without a slash is looked for in some directories. -/
def pathOfProgram? (files : FileSystem) (searchPath name : Octets) : Option Octets :=
  (candidates searchPath name).find? fun path =>
    (utilityAt? path).isSome
      || (files.locate (textOf path)).toOption.any files.programs.contains

/-- The directories in which a process looks for programs. -/
def Process.searchPath (process : Process) : Octets :=
  (process.value? "PATH").getD []

end TerraStack.Shell
