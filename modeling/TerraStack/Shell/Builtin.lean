import TerraStack.Shell.Condition
import TerraStack.Shell.Expand
import TerraStack.Shell.Format
import TerraStack.Shell.Utility.Options

namespace TerraStack.Shell

open Run

/-- A number on a command line. -/
def numberArgument (text : Octets) : Run Nat := do
  match (natOf? text).filter (· < Nat.pow 2 31) with
  | some number => return number
  | none => die ("Illegal number: ".toList ++ text)

/-- The name of a variable. -/
def variableName (text : Octets) : Run String := do
  if isName text then return .ofList text else die (text ++ ": bad variable name".toList)

/-- A text between quotes, from which the shell would read it again. -/
def requoted (text : Octets) : Octets :=
  let parts := (splitAt '\'' text).map fun part => ['\''] ++ part ++ ['\'']
  joinOctets "\"'\"".toList parts

/-- The lines that tell of variables, each after a word. -/
def variableLines (word : Octets) (bindings : List (String × Variable)) : Octets :=
  let sorted := bindings.mergeSort fun a b => a.1 ≤ b.1
  sorted.flatMap fun (name, known) =>
    word ++ name.toList ++ known.value.elim [] (fun value => '=' :: requoted value) ++ ['\n']

/-- An argument that may set a variable, as its name and its value. -/
def setting (arg : Octets) : Octets × Option Octets :=
  let name := arg.takeWhile (· ≠ '=')
  (name, (arg.drop name.length).tail?)

/-- Change what is known of variables, and set those that have values. -/
def markVariables (word : String) (mark : Variable → Variable)
    (shows : Variable → Bool) (args : List Octets) : Run Nat := do
  let args := if args.head? = some ['-', '-'] then args.drop 1 else args
  if args.isEmpty || args = [['-', 'p']] then
    let known := (← get).bindings.entries.filter fun (_, known) => shows known
    say (variableLines (word.toList ++ [' ']) known)
  else
    for arg in args do
      if let '-' :: letter :: _ := arg then die ("Illegal option -".toList ++ [letter])
      let (name, value?) := setting arg
      let name ← variableName name
      value?.forM (Run.assign name)
      modifyProcess fun process =>
        let known := (process.bindings.find? name).getD {}
        { process with bindings := process.bindings.insert name (mark known) }
  return 0

/-- Forget variables or functions. -/
def unsetNames (args : List Octets) : Run Nat := do
  let (forgetsFunctions, args) := match args with
    | ['-', 'f'] :: rest => (true, rest)
    | ['-', 'v'] :: rest | ['-', '-'] :: rest => (false, rest)
    | args => (false, args)
  for arg in args do
    let name := String.ofList arg
    if forgetsFunctions then
      modifyProcess fun process => { process with functions := process.functions.erase name }
    else
      let name ← variableName arg
      if ((← get).bindings.find? name).any (·.isFixed) then
        die (arg ++ ": is read only".toList)
      modifyProcess fun process => { process with bindings := process.bindings.erase name }
  return 0

/-- Make variables those of the function at work. -/
def makeLocal (args : List Octets) : Run Nat := do
  if (← get).hidden.isEmpty then die "not in a function".toList
  for arg in args do
    let (name, value?) := setting arg
    let name ← variableName name
    let innermost := (← get).hidden.headD []
    if (innermost.lookup name).isNone then
      modifyProcess fun process =>
        let old := process.bindings.find? name
        { process with hidden := ((name, old) :: innermost) :: process.hidden.drop 1 }
    value?.forM (Run.assign name)
  return 0

/-- The options with their names. -/
def optionNames : List (String × Char) :=
  [("errexit", 'e'), ("noglob", 'f'), ("ignoreeof", 'I'), ("interactive", 'i'), ("monitor", 'm'),
    ("noexec", 'n'), ("stdin", 's'), ("xtrace", 'x'), ("verbose", 'v'), ("vi", 'V'), ("emacs", 'E'),
    ("noclobber", 'C'), ("allexport", 'a'), ("notify", 'b'), ("nounset", 'u'), ("nolog", 'L'),
    ("debug", 'D')]

/-- Turn an option on or off. -/
def turnOption (isOn : Bool) (option : Char) : Run Unit := do
  if !(optionNames.any fun (_, letter) => letter = option) then
    die ("Illegal option -".toList ++ [option])
  modifyProcess fun process =>
    let others := process.options.filter (· ≠ option)
    { process with options := if isOn then others ++ [option] else others }

/-- Read options at the start of arguments. What follows them is returned, and whether they were
ended on purpose. -/
def readOptions : Nat → List Octets → Run (List Octets × Bool)
  | 0, args => return (args, false)
  | fuel + 1, args => do
    match args with
    | ['-', '-'] :: rest => return (rest, true)
    | ['-'] :: rest => do
      turnOption false 'x'
      turnOption false 'v'
      return (rest, true)
    | (sign :: letters) :: rest =>
      if (sign ≠ '-' && sign ≠ '+') || letters.isEmpty then return (args, false)
      else
        let isOn := sign = '-'
        let mut rest := rest
        for letter in letters do
          if letter = 'o' then
            match rest with
            | name :: after =>
              match optionNames.lookup (.ofList name) with
              | some option => turnOption isOn option
              | none => die ("Illegal option -o ".toList ++ name)
              rest := after
            | [] => return ([], false)
          else turnOption isOn letter
        readOptions fuel rest
    | _ => return (args, false)

/-- Set options and arguments. -/
def setArguments (args : List Octets) : Run Nat := do
  if args.isEmpty then
    say (variableLines [] ((← get).bindings.entries.filter fun (_, known) => known.value.isSome))
  else
    let (rest, isEnded) ← readOptions (args.length + 1) args
    if isEnded || !rest.isEmpty then
      modifyProcess fun process => { process with args := rest, optionOffset := 0 }
  return 0

/-- Drop arguments. -/
def shiftArguments (args : List Octets) : Run Nat := do
  let count ← match args with
    | [] => pure 1
    | arg :: _ => numberArgument arg
  if (← get).args.length < count then die "can't shift that many".toList
  modifyProcess fun process => { process with args := process.args.drop count, optionOffset := 0 }
  return 0

/-- What the reading of options comes upon next. -/
inductive OptionFound where
  | ended
  | found (letter : Char) (value : Option Octets)
  | unknown (letter : Char)
  | missing (letter : Char)

/-- Read the next option of some arguments. Also the index of the argument that comes next, and the
offset in it. -/
def nextOption (letters : Octets) (args : List Octets) (index offset : Nat) :
    OptionFound × Nat × Nat :=
  match args[index]? with
  | none => (.ended, index, 0)
  | some arg =>
    if offset = 0 && (arg.head? ≠ some '-' || arg.length = 1) then (.ended, index, 0)
    else if offset = 0 && arg = ['-', '-'] then (.ended, index + 1, 0)
    else
      let offset := max offset 1
      match arg.drop offset with
      | [] => (.ended, index, 0)
      | letter :: rest =>
        let (nextIndex, nextOffset) := if rest.isEmpty then (index + 1, 0) else (index, offset + 1)
        match letters.dropWhile (· ≠ letter) with
        | [] => (.unknown letter, nextIndex, nextOffset)
        | _ :: ':' :: _ =>
          if !rest.isEmpty then (.found letter (some rest), index + 1, 0)
          else match args[index + 1]? with
            | some value => (.found letter (some value), index + 2, 0)
            | none => (.missing letter, index + 1, 0)
        | _ =>
          if letter = ':' then (.unknown letter, nextIndex, nextOffset)
          else (.found letter none, nextIndex, nextOffset)

/-- Read the next option into a variable. -/
def getOption (args : List Octets) : Run Nat := do
  match args with
  | letters :: name :: given =>
    let shell ← get
    let given := if given.isEmpty then shell.args else given
    let index := ((shell.value? "OPTIND").bind natOf?).getD 1
    let isQuiet := letters.head? = some ':'
    let letters := if isQuiet then letters.drop 1 else letters
    let (found, index, offset) := nextOption letters given (index - 1) shell.optionOffset
    let name ← variableName name
    let complain (what : String) (letter : Char) : Run Unit := do
      if isQuiet then modifyProcess (·.assign "OPTARG" [letter])
      else
        modifyProcess fun process => { process with bindings := process.bindings.erase "OPTARG" }
        warn (what.toList ++ " -".toList ++ [letter, '\n'])
    let value ← match found with
      | .ended => pure ['?']
      | .found letter value => do
        value.forM fun value => modifyProcess (·.assign "OPTARG" value)
        pure [letter]
      | .unknown letter => do complain "Illegal option" letter; pure ['?']
      | .missing letter => do
        complain "No arg for" letter
        pure (if isQuiet then [':'] else ['?'])
    modifyProcess (·.assign "OPTIND" (digitsOf (index + 1)))
    modifyProcess ({ · with optionOffset := offset })
    Run.assign name value
    match found with
    | .ended => return 1
    | _ => return 0
  | _ => die "usage: getopts optstring var [arg ...]".toList

/-- Take a line off the standard input, its bytes with a flag on those behind a backslash, and
whether it had an end. -/
def takeLine (isRaw : Bool) : Octets → List (Char × Bool) × Nat × Bool
  | [] => ([], 0, false)
  | '\n' :: _ => ([], 1, true)
  | '\\' :: rest =>
    if isRaw then
      let (line, count, isEnded) := takeLine isRaw rest
      (('\\', false) :: line, count + 1, isEnded)
    else match rest with
      | [] => ([], 1, false)
      | c :: rest =>
        let (line, count, isEnded) := takeLine isRaw rest
        (if c = '\n' then line else (c, true) :: line, count + 2, isEnded)
  | c :: rest =>
    let (line, count, isEnded) := takeLine isRaw rest
    ((c, false) :: line, count + 1, isEnded)

/-- Cut a line into as many parts as there are variables. The last one is the rest. -/
def cutLine (separators : Octets) : Nat → List (Char × Bool) → List Octets
  | 0, _ => []
  | count + 1, line =>
    let cuts (c : Char × Bool) := !c.2 && separators.contains c.1
    let isGap (c : Char × Bool) := cuts c && [' ', '\t', '\n'].contains c.1
    let line := line.dropWhile isGap
    let field := line.takeWhile (!cuts ·)
    let behind := (line.drop field.length).dropWhile isGap
    let behind := match behind with
      | c :: rest => if cuts c then rest.dropWhile isGap else behind
      | [] => []
    if count = 0 && !behind.isEmpty then
      [((line.reverse.dropWhile isGap).reverse).map Prod.fst]
    else field.map Prod.fst :: cutLine separators count behind

/-- Read a line into variables. -/
def readLineInto (args : List Octets) : Run Nat := do
  let rec flags (isRaw : Bool) : List Octets → Bool × List Octets
    | ['-', 'r'] :: rest => flags true rest
    | ['-', 'p'] :: _ :: rest => flags isRaw rest
    | ['-', '-'] :: rest => (isRaw, rest)
    | args => (isRaw, args)
  let (isRaw, names) := flags false args
  if names.isEmpty then die "arg count".toList
  let names ← names.mapM variableName
  let (line, count, isEnded) := takeLine isRaw (← unread 0)
  consume 0 count
  let values := cutLine (← get).separators names.length line
  for (name, index) in names.zipIdx do
    Run.assign name (values.getD index [])
  return if isEnded then 0 else 1

/-- Write arguments by a format. -/
def printFormat (args : List Octets) : Run Nat := do
  let args := if args.head? = some ['-', '-'] then args.drop 1 else args
  match args with
  | [] => die "usage: printf format [arg ...]".toList
  | ('-' :: letter :: _) :: _ => die ("Illegal option -".toList ++ [letter])
  | format :: args =>
    let formatted := formatted format args
    say formatted.output
    for complaint in formatted.complaints do
      complain complaint.toList
    match formatted.fault with
    | some fault => die fault.toList
    | none => return if formatted.complaints.isEmpty then 0 else 1

/-- Check a condition. -/
def checkCondition (words : List Octets) : Run Nat := do
  match checkWords (← get).view (words.length + 1) words with
  | .ok holds => return if holds then 0 else 1
  | .error reason => die reason.toList

/-- Check a condition between brackets. -/
def checkBracketed (args : List Octets) : Run Nat := do
  if args.getLast? = some [']'] then checkCondition args.dropLast else die "missing ]".toList

/-- The path of the directory of the process. -/
def currentPath : Run Octets :=
  return octetsOf (FileSystem.pathOf (← get).directory)

/-- Change the directory of the process. -/
def changeDirectory (args : List Octets) : Run Nat := do
  let args := args.filter fun arg => arg ≠ ['-', 'L'] && arg ≠ ['-', 'P'] && arg ≠ ['-', '-']
  let shell ← get
  let isBack := args.head? = some ['-']
  let path := match args with
    | [] => (shell.value? "HOME").getD []
    | path :: _ => if isBack then (shell.value? "OLDPWD").getD [] else path
  let old ← currentPath
  if path.isEmpty then return 0
  match shell.view.locate (textOf path) with
  | .ok location =>
    if shell.view.isDirectory location then
      modifyProcess fun process =>
        ({ process with directory := location }.assign "OLDPWD" old).assign "PWD"
          (octetsOf (FileSystem.pathOf location))
      if isBack then say ((← currentPath) ++ ['\n'])
      return 0
    else die ("can't cd to ".toList ++ path)
  | .error _ => die ("can't cd to ".toList ++ path)

/-- The exit code that an argument asks for, or that of the command before. -/
def statusArgument (args : List Octets) : Run Nat := do
  match args with
  | [] => return (← get).status
  | arg :: _ => numberArgument arg

/-- Leave loops, or go on with them. -/
def leaveLoops (goesOn : Bool) (args : List Octets) : Run Nat := do
  let count ← match args with
    | [] => pure 1
    | arg :: _ => do
      let count ← numberArgument arg
      if count = 0 then die ("Illegal number: ".toList ++ arg)
      pure count
  let loops := (← get).loops
  if loops ≠ 0 then
    setStatus 0
    throw (.leave goesOn (min count loops))
  return 0

/-- The signals with their numbers. -/
def signals : List (String × Nat) :=
  [("EXIT", 0), ("HUP", 1), ("INT", 2), ("QUIT", 3), ("ILL", 4), ("TRAP", 5), ("ABRT", 6),
    ("BUS", 7), ("FPE", 8), ("KILL", 9), ("USR1", 10), ("SEGV", 11), ("USR2", 12), ("PIPE", 13),
    ("ALRM", 14), ("TERM", 15), ("STKFLT", 16), ("CHLD", 17), ("CONT", 18), ("STOP", 19),
    ("TSTP", 20), ("TTIN", 21), ("TTOU", 22), ("URG", 23), ("XCPU", 24), ("XFSZ", 25),
    ("VTALRM", 26), ("PROF", 27), ("WINCH", 28), ("IO", 29), ("PWR", 30), ("SYS", 31)]

/-- The signal that a text names or numbers. -/
def signalOf? (text : Octets) : Option (String × Nat) :=
  match natOf? text with
  | some number => signals.find? fun (_, known) => known = number
  | none =>
    let name := String.ofList (text.map Char.toUpper)
    signals.find? fun (known, _) => known = name || "SIG" ++ known = name

/-- Whether a signal does nothing unless something is said to be done. -/
def isHarmless (signal : Nat) : Bool :=
  [0, 17, 18, 19, 20, 21, 22, 23, 28].contains signal

/-- What the shell says of a process that a signal has ended. -/
def signalMessage? (signal : Nat) : Option String :=
  [(1, "Hangup"), (3, "Quit"), (4, "Illegal instruction"), (5, "Trace/breakpoint trap"),
    (6, "Aborted"), (7, "Bus error"), (8, "Floating point exception"), (9, "Killed"),
    (10, "User defined signal 1"), (11, "Segmentation fault"), (12, "User defined signal 2"),
    (14, "Alarm clock"), (15, "Terminated"), (16, "Stack fault"),
    (24, "CPU time limit exceeded"), (25, "File size limit exceeded"),
    (26, "Virtual timer expired"), (27, "Profiling timer expired"), (29, "I/O possible"),
    (30, "Power failure"), (31, "Bad system call")].lookup signal

/-- Say what to do when signals arrive. -/
def setTraps (args : List Octets) : Run Nat := do
  let args := if args.head? = some ['-', '-'] then args.drop 1 else args
  match args with
  | [] =>
    for (name, action) in (← get).traps.entries do
      say ("trap -- ".toList ++ requoted action ++ " ".toList ++ name.toList ++ ['\n'])
    return 0
  | action :: names =>
    let resets := names.isEmpty || action = ['-'] || (natOf? action).isSome
    let names := if names.isEmpty || (natOf? action).isSome then args else names
    for name in names do
      match signalOf? name with
      | none => do
        warn ("trap: ".toList ++ name ++ ": bad trap\n".toList)
        return 1
      | some (signal, _) =>
        modifyProcess fun process =>
          { process with traps :=
              if resets then process.traps.erase signal else process.traps.insert signal action }
    return 0

/-- The commands of the shell that run no others, with their names. They work on the process itself:
on its variables, its arguments, its options and its directory. -/
def plainBuiltins : List (String × Utility) := [
  (":", fun _ => return 0),
  ("true", fun _ => return 0),
  ("false", fun _ => return 1),
  ("echo", fun args => do say (echoOctets args); return 0),
  ("printf", printFormat),
  ("test", checkCondition),
  ("[", checkBracketed),
  ("cd", changeDirectory),
  ("pwd", fun _ => do say ((← currentPath) ++ ['\n']); return 0),
  ("export", markVariables "export" ({ · with isExported := true }) (·.isExported)),
  ("readonly", markVariables "readonly" ({ · with isFixed := true }) (·.isFixed)),
  ("unset", unsetNames),
  ("local", makeLocal),
  ("set", setArguments),
  ("shift", shiftArguments),
  ("getopts", getOption),
  ("read", readLineInto),
  ("exit", fun args => do exit (← statusArgument args)),
  ("return", fun args => do setStatus (← statusArgument args); throw .return_),
  ("break", leaveLoops false),
  ("continue", leaveLoops true),
  ("trap", setTraps),
  ("umask", fun args => do
    if args.isEmpty then say "0022\n".toList
    return 0),
  ("ulimit", fun args => do
    if args.length < 2 then say "unlimited\n".toList
    return 0),
  ("times", fun _ => do
    say "0m0.000000s 0m0.000000s\n0m0.000000s 0m0.000000s\n".toList
    return 0),
  ("hash", fun _ => return 0),
  ("alias", fun _ => return 0),
  ("unalias", fun _ => return 0),
  ("jobs", fun _ => return 0)]

end TerraStack.Shell
