import TerraStack.Shell.Utility.Value

namespace TerraStack.Shell

open Run

/-- Do something with each operand, and complain about those with which it cannot be done. -/
def forOperands (utility : String) (options : Options) (complaint : Octets → Octets)
    (action : Octets → Run (Except FileError Unit)) : Run Nat := do
  if options.operands.isEmpty then missingOperand utility
  else
    let mut status := 0
    for path in options.operands do
      match ← action path with
      | .ok () => pure ()
      | .error error => do
        complainAs utility (complaint path ++ ": ".toList ++ error.message.toList)
        status := 1
    return status

/-- The path of a name in a directory. -/
def pathIn (directory name : Octets) : Octets :=
  if directory.getLast? = some '/' then directory ++ name else directory ++ '/' :: name

/-- A name as it is listed. -/
def listedName (options : Options) (name : Octets) (entry : Entry) (isProgram : Bool) : Octets :=
  if entry = .directory && (options.has 'p' || options.has 'F') then name ++ ['/']
  else if isProgram && options.has 'F' then name ++ ['*']
  else name

/-- A line of a long listing. -/
def longLine (name : Octets) (entry : Entry) (isProgram : Bool) : Octets :=
  let mode := if entry = .directory then "drwxr-xr-x" else if isProgram then "-rwxr-xr-x"
    else "-rw-r--r--"
  let size := if entry = .directory then 4096 else entry.size
  mode.toList ++ " 1 root root ".toList ++ digitsOf size ++ " Jan  1 00:00 ".toList ++ name

/-- The lines that list a directory. -/
def listedDirectory (files : FileSystem) (options : Options) (location : Location) : List Octets :=
  let dots := if options.has 'a' then [['.'], ['.', '.']] else []
  let line (name : Octets) (entry : Entry) (isProgram : Bool) : Octets :=
    let name := listedName options name entry isProgram
    if options.has 'l' then longLine name entry isProgram else name
  let dots := dots.map fun name => line name .directory false
  let shown := (files.children location).filter fun (name, _) =>
    options.has 'a' || options.has 'A' || name.toList.head? ≠ some '.'
  let names := dots ++ shown.map fun (name, entry) =>
    line (octetsOf name) entry (files.programs.contains (location ++ [name]))
  let names := if options.has 'r' then names.reverse else names
  if options.has 'l' then "total 0".toList :: names else names

/-- The directories to list for one: itself, and those below it where that is asked for. -/
def listedBelow (files : FileSystem) (options : Options) (path : Octets) (location : Location) :
    List (Octets × Location) :=
  if !options.has 'R' then [(path, location)]
  else
    let below := (files.listing location).filterMap fun (inner, entry) =>
      let names := (Path.parts inner).filter (· ≠ "")
      let isHidden := names.any fun name => name.toList.head? = some '.'
      if entry ≠ .directory || (isHidden && !options.has 'a' && !options.has 'A') then none
      else some (pathIn path (withoutSlashes (octetsOf inner)), location ++ names)
    (path, location) :: below

/-- List directories and files. -/
def list (args : List Octets) : Run Nat :=
  withOptions "ls" "1aAdlpFrRtUkCnsh" "" 2 args fun options => do
    let files ← view
    let paths := if options.operands.isEmpty then [['.']] else options.operands
    let sorted := paths.mergeSort fun a b => String.ofList a ≤ String.ofList b
    let found := sorted.map fun path => (path, files.locate (textOf path) >>= fun location =>
      match files.entry? location with
      | some entry => .ok (location, entry)
      | none => .error FileError.notFound)
    let mut status := 0
    for (path, result) in found do
      if let .error error := result then
        complainAs "ls" ("cannot access ".toList ++ quoted path ++ ": ".toList
          ++ error.message.toList)
        status := 2
    let present := found.filterMap fun (path, result) => result.toOption.map (path, ·)
    let isOpened (entry : Entry) : Bool := entry = .directory && !options.has 'd'
    let plain := present.filter fun (_, _, entry) => !isOpened entry
    let opened := present.filter fun (_, _, entry) => isOpened entry
    say (fromLines (plain.map fun (path, location, entry) =>
      let isProgram := files.programs.contains location
      let name := listedName options path entry isProgram
      if options.has 'l' then longLine name entry isProgram else name))
    let listed := opened.flatMap fun (path, location, _) => listedBelow files options path location
    let sections := listed.map fun (path, location) =>
      let lines := fromLines (listedDirectory files options location)
      if paths.length = 1 && !options.has 'R' then lines else path ++ ":\n".toList ++ lines
    if !plain.isEmpty && !sections.isEmpty then say ['\n']
    say (joinOctets ['\n'] sections)
    return status

/-- Make directories. -/
def makeDirectories (args : List Octets) : Run Nat :=
  withOptions "mkdir" "pv" "m" 1 args fun options => do
    forOperands "mkdir" options ("cannot create directory ".toList ++ quoted ·) fun path =>
      if options.has 'p' && !path.isEmpty then do
        let shell ← get
        let (files, result) := shell.view.makeWay (textOf path)
        let _ ← changeFiles fun _ => .ok files
        match result with
        | .ok _ => return .ok ()
        | .error .notDirectory =>
          return .error (if files.contains (textOf path) then .exists else .notDirectory)
        | .error error => return .error error
      else changeFiles (·.makeDirectory (textOf path))

/-- Take away empty directories. -/
def removeDirectories (args : List Octets) : Run Nat :=
  withOptions "rmdir" "pv" "" 1 args fun options =>
    forOperands "rmdir" options ("failed to remove ".toList ++ quoted ·) fun path =>
      changeFiles (·.removeDirectory (textOf path))

/-- Take away files, and directories where that is asked for. -/
def removeFiles (args : List Octets) : Run Nat :=
  withOptions "rm" "rRfivdI" "" 1 args fun options => do
    if options.operands.isEmpty && options.has 'f' then return 0
    let isDeep := options.has 'r' || options.has 'R'
    forOperands "rm" options ("cannot remove ".toList ++ quoted ·) fun path => do
      let files ← view
      let result ← changeFiles fun files =>
        if isDeep then do
          let location ← files.locate (textOf path)
          if (files.entry? location).isSome then .ok (files.remove location)
          else .error .notFound
        else if options.has 'd' && files.lookup? (textOf path) = some .directory then
          files.removeDirectory (textOf path)
        else files.removeFile (textOf path)
      match result with
      | .error error =>
        let isMissing := !files.contains (textOf path)
        return if options.has 'f' && isMissing then .ok () else .error error
      | .ok () => return .ok ()

/-- Make empty files where there are none. -/
def touch (args : List Octets) : Run Nat :=
  withOptions "touch" "acfmh" "dtr" 1 args fun options => do
    if options.operands.isEmpty then
      complainAs "touch" "missing file operand".toList
      warn "Try 'touch --help' for more information.\n".toList
      return 1
    forOperands "touch" options ("cannot touch ".toList ++ quoted ·) fun path =>
      changeFiles fun files =>
        if files.contains (textOf path) || options.has 'c' then .ok files
        else files.writeBytes (textOf path) []

/-- Copy what is at a location, and below it, to another. -/
def copyEntries (files : FileSystem) (old new : Location) : FileSystem :=
  let copied := files.entries.entries.filter fun (location, _) => old.isPrefixOf location
  let rename (location : Location) := new ++ location.drop old.length
  let programs := (files.programs.filter (old.isPrefixOf ·)).map rename
  let files := copied.foldl (fun files (location, entry) => match entry with
    | .directory => files.put (rename location) entry
    | entry => files.putBytes (rename location) (entry.bytes?.getD [])) files
  { files with programs := files.programs ++ programs.filter (!files.programs.contains ·) }

/-- Copy or move operands to the last one of them. -/
def transfer (utility : String) (options : Options)
    (action : FileSystem → Location → Location → Octets → Except Octets FileSystem) : Run Nat := do
  let sources := options.operands.dropLast
  match options.operands.getLast? with
  | none => do
    complainAs utility "missing file operand".toList
    warn ("Try '" ++ utility ++ " --help' for more information.\n").toList
    return 1
  | some goal => do
    if sources.isEmpty then
      complainAs utility ("missing destination file operand after ".toList ++ quoted goal)
      warn ("Try '" ++ utility ++ " --help' for more information.\n").toList
      return 1
    let intoDirectory := (← view).lookup? (textOf goal) = some .directory
    if 1 < sources.length && !intoDirectory then
      complainAs utility ("target ".toList ++ quoted goal ++ ": Not a directory".toList)
      return 1
    let mut status := 0
    for source in sources do
      let files ← view
      let path := if intoDirectory then pathIn goal (lastName source) else goal
      let old := files.locate (textOf source) >>= fun location =>
        if (files.entry? location).isSome then .ok location else .error .notFound
      let made : Except Octets FileSystem :=
        match old, files.locate (textOf path) with
        | .error error, _ =>
          .error ("cannot stat ".toList ++ quoted source ++ ": ".toList ++ error.message.toList)
        | _, .error error => .error ("cannot create regular file ".toList ++ quoted path
            ++ ": ".toList ++ error.message.toList)
        | .ok old, .ok new =>
          if old = new then
            .error (quoted source ++ " and ".toList ++ quoted path ++ " are the same file".toList)
          else if !files.isDirectory new.dropLast then
            .error ("cannot create regular file ".toList ++ quoted path ++ ": ".toList
              ++ FileError.notFound.message.toList)
          else action files old new source
      match made with
      | .error reason => do
        complainAs utility reason
        status := 1
      | .ok files => do
        let _ ← changeFiles fun _ => .ok files
    return status

/-- Copy files, and directories where that is asked for. -/
def copy (args : List Octets) : Run Nat :=
  withOptions "cp" "rRafpivnuTd" "" 1 args fun options =>
    transfer "cp" options fun files old new source =>
      let isDeep := options.has 'r' || options.has 'R' || options.has 'a'
      if files.isDirectory old && !isDeep then
        .error ("-r not specified; omitting directory ".toList ++ quoted source)
      else .ok (copyEntries files old new)

/-- Move files and directories. -/
def move (args : List Octets) : Run Nat :=
  withOptions "mv" "fivnuT" "" 1 args fun options =>
    transfer "mv" options fun files old new source =>
      if old.isPrefixOf new then
        .error ("cannot move ".toList ++ quoted source ++ " to a subdirectory of itself".toList)
      else .ok (files.move old new)

/-- Whether a mode lets a file be started, or whether it leaves that as it is. -/
def startsBy (mode : Octets) : Option Bool :=
  if mode.all Char.isDigit then
    some (mode.reverse.take 3 |>.any fun digit => (digit.toNat - '0'.toNat) % 2 = 1)
  else if !mode.contains 'x' then none
  else if mode.contains '-' then some false
  else some true

/-- Let files be started, or not. -/
def changeMode (args : List Octets) : Run Nat := do
  let args := args.filter fun arg => arg ≠ ['-', 'R'] && arg ≠ ['-', 'v'] && arg ≠ ['-', 'f']
  match args with
  | [] => missingOperand "chmod"
  | [mode] => do
    complainAs "chmod" ("missing operand after ".toList ++ quoted mode)
    warn "Try 'chmod --help' for more information.\n".toList
    return 1
  | mode :: paths =>
    forOperands "chmod" { operands := paths } ("cannot access ".toList ++ quoted ·) fun path =>
      changeFiles fun files => do
        let location ← files.locate (textOf path)
        match files.entry? location, startsBy mode with
        | none, _ => .error .notFound
        | some .directory, _ | _, none => .ok files
        | _, some true =>
          .ok { files with programs := location :: files.programs.filter (· ≠ location) }
        | _, some false => .ok { files with programs := files.programs.filter (· ≠ location) }

/-- The path of what is there from the root. -/
def realPath (args : List Octets) : Run Nat :=
  withOptions "realpath" "efms" "" 1 args fun options =>
    forOperands "realpath" options id fun path => do
      let files ← view
      match files.locate (textOf path) with
      | .error error => return .error error
      | .ok location =>
        say (octetsOf (FileSystem.pathOf location) ++ ['\n'])
        return .ok ()

/-- What is looked for below a directory. -/
structure Search where
  type : Option Char := none
  name : Option Octets := none
  least : Nat := 0
  greatest : Option Nat := none

/-- The search that arguments ask for, unless one of them means nothing. -/
def Search.read : List Octets → Search → Except Octets Search
  | [], search => .ok search
  | arg :: rest, search =>
    match String.ofList arg, rest with
    | "-type", value :: rest => read rest { search with type := value.head? }
    | "-name", value :: rest => read rest { search with name := some value }
    | "-mindepth", value :: rest => read rest { search with least := (natOf? value).getD 0 }
    | "-maxdepth", value :: rest => read rest { search with greatest := natOf? value }
    | "-print", rest => read rest search
    | _, _ => .error arg

/-- Whether something at a depth is what is looked for. -/
def Search.accepts (search : Search) (depth : Nat) (name : Octets) (entry : Entry) : Bool :=
  let type := if entry = .directory then 'd' else if entry = .sink then 'c' else 'f'
  search.least ≤ depth && search.greatest.all (depth ≤ ·) && search.type.all (· = type)
    && search.name.all fun pattern => fits (pattern.map fun c => ⟨c, false⟩) name

/-- Write the paths of what is found below directories. -/
def findPaths (args : List Octets) : Run Nat := do
  let given := args.takeWhile fun arg => arg.head? ≠ some '-'
  let paths := if given.isEmpty then [['.']] else given
  match Search.read (args.drop given.length) {} with
  | .error arg => do
    complainAs "find" ("unknown predicate `".toList ++ arg ++ ['\''])
    return 1
  | .ok search => do
    let files ← view
    let mut status := 0
    for path in paths do
      let found := files.locate (textOf path) >>= fun location =>
        match files.entry? location with
        | some entry => .ok (location, entry)
        | none => .error FileError.notFound
      match found with
      | .error error => do
        complainAs "find" (quoted path ++ ": ".toList ++ error.message.toList)
        status := 1
      | .ok (location, entry) =>
        let here := if search.accepts 0 (lastName path) entry then [path] else []
        let below := (files.listing location).filterMap fun (inner, entry) =>
          let inner := withoutSlashes (octetsOf inner)
          if search.accepts ((splitAt '/' inner).length) (lastName inner) entry then
            some (pathIn path inner)
          else none
        say (fromLines (here ++ below))
    return status

/-- Utilities for files and directories, with their names. -/
def fileUtilities : List (String × Utility) := [
  ("ls", list),
  ("mkdir", makeDirectories),
  ("rmdir", removeDirectories),
  ("rm", removeFiles),
  ("touch", touch),
  ("cp", copy),
  ("mv", move),
  ("chmod", changeMode),
  ("realpath", realPath),
  ("readlink", realPath),
  ("find", findPaths)]

end TerraStack.Shell
