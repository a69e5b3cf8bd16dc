import TerraStack.Shell.Builtin

namespace TerraStack.Shell.Run

/-- Do something and then what is to be done at the end of the process. -/
def toTheEnd (runText : Octets → Run Unit) (action : Run Unit) : Run Unit := do
  match ← attempt action with
  | .error (.killed number signal) => throw (.killed number signal)
  | _ =>
    let shell ← get
    match shell.traps.find? "EXIT" with
    | none => return
    | some text =>
      modifyProcess fun process => { process with traps := process.traps.erase "EXIT" }
      match ← attempt (runText text) with
      | .ok () => setStatus shell.status
      | .error (.killed number signal) => throw (.killed number signal)
      | .error _ => return

/-- The exit code that stands for the end of a process. An end by a signal is told. -/
def statusOf : End → Run Nat
  | .code status => return status % 256
  | .signal signal => do
    (signalMessage? signal).forM fun message => warn (message.toList ++ ['\n'])
    return 128 + signal

/-- Forget what to do when signals arrive, as a new process does. What is to be ignored still is. -/
def forgetTraps : Run Unit :=
  modifyProcess fun process =>
    { process with traps := process.traps.filter fun _ action => action.isEmpty, loops := 0 }

/-- Send a signal to a process. -/
def sendSignal (runText : Octets → Run Unit) (name : String) (signal : Nat) (target : Octets) :
    Run Nat := do
  let shell ← get
  match (readInteger? 10 target).map Int.toNat with
  | none => die ("Illegal number: ".toList ++ target)
  | some number =>
    if number = shell.number || number = shell.scriptNumber then
      if signal = 0 then return 0
      match if number = shell.number then shell.traps.find? name else none with
      | some text =>
        let status := shell.status
        runText text
        setStatus status
        return 0
      | none => if isHarmless signal then return 0 else throw (.killed number signal)
    else if shell.jobs.any (·.number = number) then
      if !isHarmless signal then
        modifyWorld fun world => { world with
          jobs := world.jobs.filter (·.number ≠ number)
          ended := (number, .signal signal) :: world.ended }
      return 0
    else
      complain "No such process".toList
      warn ['\n']
      return 1

/-- Send a signal to processes. -/
def killProcesses (runText : Octets → Run Unit) (args : List Octets) : Run Nat := do
  let send (signal : Octets) (targets : List Octets) : Run Nat := do
    match signalOf? signal with
    | none => die ("invalid signal number or name: ".toList ++ signal)
    | some (name, number) =>
      if targets.isEmpty then
        die "Usage: kill [-s sigspec | -signum | -sigspec] [pid | job]... or\nkill -l [exitstatus]".toList
      let statuses ← targets.mapM (sendSignal runText name number)
      return statuses.foldl max 0
  match args with
  | ['-', 'l'] :: number :: _ =>
    match (natOf? number).bind fun number => signals.find? fun (_, known) => known = number % 128 with
    | some (name, _) => do
      say (name.toList ++ ['\n'])
      return 0
    | none => die ("invalid signal number or name: ".toList ++ number)
  | [['-', 'l']] => do
    say (fromLines (signals.map fun (name, _) => name.toList))
    return 0
  | ['-', 's'] :: signal :: targets => send signal targets
  | ['-', '-'] :: targets => send "TERM".toList targets
  | ('-' :: signal) :: targets => send signal targets
  | targets => send "TERM".toList targets

end TerraStack.Shell.Run
