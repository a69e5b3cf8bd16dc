import TerraStack.Shell.Control
import TerraStack.Shell.Redirection
import TerraStack.Shell.Signal

namespace TerraStack.Shell.Run

/-- Do something in a process of its own, as a part of a script does. -/
def apart (runText : Octets → Run Unit) (action : Run Unit) : Run End :=
  inChild do
    forgetTraps
    toTheEnd runText action

/-- Show a command before it is run, if that is asked for. -/
def trace (place : Option Nat) (words : List Octets) : Run Unit := do
  let shell ← get
  if shell.has 'x' then
    let lead := (shell.value? "PS4").getD "+ ".toList
    place.forM fun place => modifyWorld (·.write place (lead ++ joinOctets [' '] words ++ ['\n']))

/-- Whether a command is one of those that belong to the language. -/
def isSpecial (argv : List Octets) : Bool :=
  argv.head?.any fun name => specialBuiltins.contains (.ofList name)

/-- Put a command in the background. What runs at the same time elsewhere runs one after another
here, so the command waits until its end is waited for. -/
def putInBackground (command : Command) : Run Unit := do
  let number ← newNumber
  let nowhere ← openStream .nothing
  modify fun shell =>
    let descriptors := (0, nowhere) :: shell.descriptors.filter fun (other, _) => other ≠ 0
    let process := { shell.toProcess with number, descriptors }
    { shell with
      jobs := shell.jobs ++ [{ number, process, command }]
      lastBackground := some number
      status := 0 }

/-- The path and the text of the file which the command `.` is given. -/
def readSourced (name : Octets) : Run (Octets × Octets) := do
  let shell ← get
  let cannotOpen (error : FileError) : Octets :=
    "cannot open ".toList ++ name ++ ": ".toList ++ openingError "No such file" error
  if name.contains '/' then
    match shell.view.readBytes (textOf name) with
    | .ok bytes => return (name, octetsOfBytes bytes)
    | .error error => die (cannotOpen error)
  else
    let readAt? (path : Octets) : Option (Octets × Octets) :=
      (shell.view.readBytes (textOf path)).toOption.map fun bytes => (path, octetsOfBytes bytes)
    match (candidates shell.searchPath name).findSome? readAt? with
    | some found => return found
    | none => die (name ++ ": not found".toList)

/-- How many functions can be at work at a time. A call beyond that is an error. -/
def depthLimit : Nat := 1000

mutual

/-- Run commands one after another. -/
def runAll : Nat → Bool → List Command → Run Unit
  | 0, _, _ => exit 2
  | _, _, [] => return
  | fuel + 1, isTested, command :: rest => do
    runCommand fuel isTested command
    runAll fuel isTested rest

/-- Run a command. The flag says whether its failure is looked at. -/
def runCommand : Nat → Bool → Command → Run Unit
  | 0, _, _ => exit 2
  | fuel + 1, isTested, command => do
    if (← get).has 'n' then return
    match command with
    | .simple line settings words redirects => do
      runSimple fuel isTested line settings words redirects
      checkFailure isTested
    | .pipeline commands => do
      runPipes fuel isTested none commands
      checkFailure isTested
    | .unless command => do
      runCommand fuel true command
      setStatus (if (← get).status = 0 then 1 else 0)
    | .both first second => do
      runCommand fuel true first
      if (← get).status = 0 then runCommand fuel isTested second
    | .either first second => do
      runCommand fuel true first
      if (← get).status ≠ 0 then runCommand fuel isTested second
    | .background command => putInBackground command
    | .isolated commands => do
      let ending ← apart (runText fuel false) (runAll fuel isTested commands)
      setStatus (← statusOf ending)
      checkFailure isTested
    | .group commands => runAll fuel isTested commands
    | .choose condition body otherwise => do
      runAll fuel true condition
      if (← get).status = 0 then runAll fuel isTested body
      else
        setStatus 0
        runAll fuel isTested otherwise
    | .loop whileFailing condition body =>
      inLoop (runLoop fuel isTested whileFailing condition body 0)
    | .each name words body => do
      let values ← match words with
        | some words => List.flatten <$> words.mapM (expandFields (capture fuel))
        | none => pure (← get).args
      setStatus 0
      inLoop (runEach fuel isTested name values body)
    | .select subject branches => do
      let text ← expandText (capture fuel) subject
      runBranches fuel isTested text branches
    | .define name body => do
      modifyProcess fun process => { process with functions := process.functions.insert name body }
      setStatus 0
    | .redirected line command redirects => do
      modifyProcess ({ · with line })
      let isDone ← redirecting (capture fuel) false redirects (runCommand fuel isTested command)
      match isDone, command with
      | false, .isolated _ => checkFailure isTested
      | _, _ => return

/-- Run the commands of a pipeline, the first of which reads from a stream. -/
def runPipes : Nat → Bool → Option Nat → List Command → Run Unit
  | 0, _, _, _ => exit 2
  | _, _, _, [] => return
  | fuel + 1, isTested, input, command :: rest => do
    let output ← if rest.isEmpty then pure none else some <$> openStream (.buffer [])
    let ending ← apart (runText fuel false) do
      input.forM (setDescriptor 0)
      output.forM (setDescriptor 1)
      runCommand fuel isTested command
    if rest.isEmpty then setStatus (← statusOf ending)
    runPipes fuel isTested output rest

/-- Run a loop, of which the body has ended with an exit code. -/
def runLoop : Nat → Bool → Bool → List Command → List Command → Nat → Run Unit
  | 0, _, _, _, _, _ => exit 2
  | fuel + 1, isTested, whileFailing, condition, body, status => do
    if ← turn (runAll fuel true condition) then
      if ((← get).status ≠ 0) = whileFailing then
        if ← turn (runAll fuel isTested body) then
          runLoop fuel isTested whileFailing condition body (← get).status
        else return
      else setStatus status
    else return

/-- Run the body of a loop for each of some values. -/
def runEach : Nat → Bool → String → List Octets → List Command → Run Unit
  | 0, _, _, _, _ => exit 2
  | _, _, _, [], _ => return
  | fuel + 1, isTested, name, value :: rest, body => do
    Run.assign name value
    if ← turn (runAll fuel isTested body) then runEach fuel isTested name rest body
    else return

/-- Run the commands of the first branch with a pattern that a text fits. -/
def runBranches : Nat → Bool → Octets → List (List Word × List Command) → Run Unit
  | 0, _, _, _ => exit 2
  | _, _, _, [] => setStatus 0
  | fuel + 1, isTested, text, (patterns, body) :: rest => do
    let isFound ← patterns.anyM fun pattern => do
      return fits (← expandMarks (capture fuel) pattern) text
    if isFound then
      setStatus 0
      runAll fuel isTested body
    else runBranches fuel isTested text rest

/-- What commands write. -/
def capture : Nat → List Command → Run Octets
  | 0, _ => exit 2
  | fuel + 1, commands => do
    let place ← openStream (.buffer [])
    let ending ← apart (runText fuel false) do
      setDescriptor 1 place
      runAll fuel false commands
    let status ← statusOf ending
    modifyProcess ({ · with outputStatus := some status })
    return ((← get).unread place).filter (· ≠ '\x00')

/-- Run a simple command. -/
def runSimple : Nat → Bool → Nat → List (String × Word) → List Word → List Redirect → Run Unit
  | 0, _, _, _, _, _ => exit 2
  | fuel + 1, isTested, line, settings, words, redirects => do
    modifyProcess ({ · with line, outputStatus := none })
    let argv ← expandArguments (capture fuel) words
    let isPermanent := argv = ["exec".toList] || argv = ["command".toList, "exec".toList]
    let errors ← place? 2
    let isDone ← redirecting (capture fuel) isPermanent redirects do
      let isKept := argv.isEmpty || isSpecial argv
      let set ← setAll (capture fuel) (!isKept) settings
      trace errors ((set.map fun (name, _, value) => name.toList ++ '=' :: value) ++ argv)
      match argv with
      | [] => setStatus ((← get).outputStatus.getD 0)
      | name :: args =>
        let result ← attempt (runNamed fuel isTested true name args)
        if !isKept then restoreVariables (set.map fun (name, before, _) => (name, before))
        resume result
    if !isDone && isSpecial argv then throw .fault

/-- Run a command by its name. -/
def runNamed : Nat → Bool → Bool → Octets → List Octets → Run Unit
  | 0, _, _, _, _ => exit 2
  | fuel + 1, isTested, mayBeFunction, name, args => do
    let text := String.ofList name
    let special := specialBuiltins.contains text
    let functions := (← get).functions
    match if special || !mayBeFunction then none else functions.find? text with
    | some body => runFunction fuel isTested body args
    | none =>
      match builtin? fuel isTested text with
      | some builtin =>
        match ← attempt (speakingAs name (builtin args)) with
        | .ok status => setStatus status
        | .error .fault => do
          setStatus 2
          if special && mayBeFunction then throw .fault
        | .error stop => throw stop
      | none => setStatus (← runProgram fuel (name :: args))

/-- Run a function. -/
def runFunction : Nat → Bool → Command → List Octets → Run Unit
  | 0, _, _, _ => exit 2
  | fuel + 1, isTested, body, args => do
    let before := (← get).toProcess
    if depthLimit ≤ before.hidden.length then
      die ("Maximum function recursion depth (".toList ++ digitsOf depthLimit ++ ") reached".toList)
    modifyProcess fun process =>
      { process with args, hidden := [] :: process.hidden, loops := 0, optionOffset := 0 }
    let result ← attempt (runCommand fuel isTested body)
    restoreVariables ((← get).hidden.headD [])
    modifyProcess ({ · with
      args := before.args
      hidden := before.hidden
      loops := before.loops
      optionOffset := before.optionOffset })
    match result with
    | .error .return_ => return
    | result => resume result

/-- A command of the shell. -/
def builtin? : Nat → Bool → String → Option Utility
  | 0, _, _ => none
  | fuel + 1, isTested, name =>
    match name with
    | "eval" => some fun args => do
      setStatus 0
      runText fuel isTested (joinOctets [' '] args)
      return (← get).status
    | "." => some fun args => do
      match args with
      | [] => return 0
      | path :: _ => do
        let (path, text) ← readSourced path
        setStatus 0
        modifyProcess ({ · with speaker := some path })
        match ← attempt (runText fuel false text) with
        | .error .return_ => return (← get).status
        | result => do
          resume result
          return (← get).status
    | "exec" => some fun args => do
      if args.isEmpty then return 0
      let shell ← get
      match findCommand shell.view shell.searchPath args with
      | .ok start => do
        modifyProcess ({ · with traps := ∅ })
        execute fuel start
        throw .exit
      | .error absence => exit (← complainOfAbsence (args.headD []) absence)
    | "command" => some fun args => do
      match args with
      | ['-', 'v'] :: names => return (← names.mapM (tellCommand false)).foldl max 0
      | ['-', 'V'] :: names => return (← names.mapM (tellCommand true)).foldl max 0
      | ['-', 'p'] :: name :: args | ['-', '-'] :: name :: args | name :: args => do
        modifyProcess ({ · with speaker := none })
        runNamed fuel isTested false name args
        return (← get).status
      | [] => return 0
    | "type" => some fun args => do return (← args.mapM (tellCommand true)).foldl max 0
    | "kill" => some (killProcesses (runText fuel false))
    | "wait" => some fun args => do
      finishJobs fuel
      match args.getLast? with
      | none => return 0
      | some number => do
        let number ← numberArgument number
        match (← get).ended.lookup number with
        | some ending => statusOf ending
        | none => return 127
    | name => plainBuiltins.lookup name

/-- Run a program, and say how it ended. -/
def runProgram : Nat → List Octets → Run Nat
  | 0, _ => exit 2
  | fuel + 1, argv => do
    if argv.head? = some "sleep".toList then finishJobs fuel
    let shell ← get
    match findCommand shell.view shell.searchPath argv with
    | .ok start => do statusOf (← inChild (execute fuel start))
    | .error absence => complainOfAbsence (argv.headD []) absence

/-- Be a program. -/
def execute : Nat → Start → Run Unit
  | 0, _ => exit 2
  | fuel + 1, start => do
    match start.utility with
    | "sh" | "dash" | "bash" => runShell fuel start.name start.args
    | "env" => setStatus (← runInEnvironment fuel start.args)
    | "xargs" => setStatus (← runWithInput fuel start.args)
    | "timeout" => setStatus (← runInTime fuel start.args)
    | "which" => setStatus (← tellPaths start.args)
    | name =>
      match utilities.lookup name with
      | some utility => do setStatus (← utility start.args)
      | none => setStatus 127

/-- Be a shell. -/
def runShell : Nat → Octets → List Octets → Run Unit
  | 0, _, _ => exit 2
  | fuel + 1, name, args =>
    toTheEnd (runText fuel false) do
      match ← prepareShell name args with
      | .text text => runText fuel false text
      | .input => runText fuel false (← readAll 0)
      | .file path =>
        match (← view).readBytes (textOf path) with
        | .ok bytes => do
          modifyProcess ({ · with name := path })
          runText fuel false (octetsOfBytes bytes)
        | .error error =>
          die ("cannot open ".toList ++ path ++ ": ".toList ++ openingError "No such file" error)

/-- Run the script that a text spells, line by line up to its end or a fault in it. -/
def runText : Nat → Bool → Octets → Run Unit
  | 0, _, _ => exit 2
  | fuel + 1, isTested, text => do
    let script := Script.read text
    let before := (← get).nextLine
    let result ← attempt (script.lines.forM fun (commands, nextLine) => do
      modifyProcess ({ · with nextLine })
      runAll fuel isTested commands)
    modifyProcess ({ · with nextLine := before })
    resume result
    match script.fault with
    | none => return
    | some fault => do
      modifyProcess ({ · with line := fault.line })
      die ("Syntax error: ".toList ++ fault.reason.toList)

/-- Run the commands in the background to their ends. -/
def finishJobs : Nat → Run Unit
  | 0 => exit 2
  | fuel + 1 => do
    match (← get).jobs with
    | [] => return
    | job :: rest => do
      modifyWorld fun world => { world with jobs := rest }
      let ending ← inProcess job.process do
        forgetTraps
        toTheEnd (runText fuel false) (runCommand fuel false job.command)
      modifyWorld fun world => { world with ended := (job.number, ending) :: world.ended }
      finishJobs fuel

/-- Run a program in the name of a utility. -/
def runFor : Nat → String → List Octets → Run Nat
  | 0, _, _ => exit 2
  | fuel + 1, utility, argv => do
    let shell ← get
    let searchPath := (shell.value? "PATH").getD standardPath
    match findCommand shell.view searchPath argv with
    | .ok start => do statusOf (← inChild (execute fuel start))
    | .error absence => do
      let name := argv.headD []
      let name := if utility = "xargs" then name else quoted name
      let reason := if absence = .forbidden then "Permission denied" else "No such file or directory"
      complainAs utility
        ((if utility = "timeout" then "failed to run command ".toList else []) ++ name
          ++ ": ".toList ++ reason.toList)
      return if absence = .forbidden then 126 else 127

/-- Run a program in a changed environment, or show the environment. -/
def runInEnvironment : Nat → List Octets → Run Nat
  | 0, _ => exit 2
  | fuel + 1, args => do
    let forget (keep : String → Bool) : Run Unit := modifyProcess fun process =>
      { process with bindings := process.bindings.filter fun name _ => keep name }
    match args with
    | ['-'] :: rest | ['-', 'i'] :: rest => do
      forget fun _ => false
      runInEnvironment fuel rest
    | ['-', 'u'] :: name :: rest => do
      forget (· ≠ .ofList name)
      runInEnvironment fuel rest
    | [] => printEnvironment []
    | arg :: rest =>
      match setting arg with
      | (name, some value) => do
        modifyProcess fun process => { process with
          bindings := process.bindings.insert (.ofList name)
            { value := some value, isExported := true } }
        runInEnvironment fuel rest
      | _ => runFor fuel "env" args

/-- Run a program with arguments that are read from the standard input. -/
def runWithInput : Nat → List Octets → Run Nat
  | 0, _ => exit 2
  | fuel + 1, args => do
    let request := ArgumentsRequest.read args {}
    let inputs := request.cut (← readAll 0)
    let batches := request.batches inputs
    let statuses ← batches.mapM (runFor fuel "xargs")
    match statuses.find? fun status => status = 126 || status = 127 with
    | some status => return status
    | none => return if statuses.all (· = 0) then 0 else 123

/-- Run a program that may take only so long. -/
def runInTime : Nat → List Octets → Run Nat
  | 0, _ => exit 2
  | fuel + 1, args => do
    match args with
    | limit :: name :: rest =>
      match milliseconds? limit with
      | none => do
        complainAs "timeout" ("invalid time interval ".toList ++ quoted limit)
        warn "Try 'timeout --help' for more information.\n".toList
        return 125
      | some limit => do
        let start := (← get).milliseconds
        let status ← runFor fuel "timeout" (name :: rest)
        if limit ≠ 0 && limit < (← get).milliseconds - start then
          modifyWorld fun world => { world with milliseconds := start + limit }
          return 124
        return status
    | _ => do
      complainAs "timeout" "missing operand".toList
      warn "Try 'timeout --help' for more information.\n".toList
      return 125

end

end TerraStack.Shell.Run
