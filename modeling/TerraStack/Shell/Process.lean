import TerraStack.FileSystem.Change
import TerraStack.Shell.Syntax

namespace TerraStack.Shell

/-- What a descriptor can name. -/
inductive Stream where
  /-- What is written behind is read in front. What has been written since the last reading is
  backwards. -/
  | buffer (front : Octets) (written : Octets := [])
  /-- A file, of which reading and writing have come to an offset. -/
  | file (location : Location) (offset : Nat) (mode : FileMode)
  /-- Nothing is read, and what is written is lost. -/
  | nothing
  deriving Repr, DecidableEq

/-- A variable of a process. -/
structure Variable where
  value : Option Octets := none
  isExported : Bool := false
  isFixed : Bool := false
  deriving Repr, DecidableEq

/-- A process of a shell: it has arguments, variables, a directory, and descriptors, which name
streams. -/
structure Process where
  /-- The number of the process. -/
  number : Nat := 1000
  /-- The number of the process that runs the script. -/
  scriptNumber : Nat := 1000
  /-- What the script is called. -/
  name : Octets
  args : List Octets := []
  bindings : OrderedMap String Variable := ∅
  functions : OrderedMap String Command := ∅
  directory : Location := []
  /-- The places of the streams that the descriptors name. -/
  descriptors : List (Nat × Nat) := []
  /-- The letters of the options that are on. -/
  options : List Char := []
  /-- The exit code of the command before. -/
  status : Nat := 0
  /-- The line of the command at hand. -/
  line : Nat := 0
  /-- The line at which the reading of commands goes on. -/
  nextLine : Nat := 1
  /-- What to do at the end, and when signals arrive. -/
  traps : OrderedMap String Octets := ∅
  /-- The variables that the functions at work have made their own, as they were before. -/
  hidden : List (List (String × Option Variable)) := []
  /-- The loops around the command at hand. -/
  loops : Nat := 0
  /-- The number of the last process in the background. -/
  lastBackground : Option Nat := none
  /-- The exit code of the last commands whose output went into a word. -/
  outputStatus : Option Nat := none
  /-- Where the reading of options stands within an argument. -/
  optionOffset : Nat := 0
  /-- The command of the shell that is at work, in whose name it complains. -/
  speaker : Option Octets := none

/-- A process in the background that has not been run yet. -/
structure Job where
  number : Nat
  process : Process
  command : Command

/-- How a process ended: with an exit code, or by a signal. -/
inductive End where
  | code (status : Nat)
  | signal (number : Nat)

/-- What processes share: the streams and the files. What one process does to them, the others find. -/
structure World where
  files : FileSystem
  streams : Array Stream
  milliseconds : Nat := 0
  jobs : List Job := []
  /-- The processes in the background that have ended. -/
  ended : List (Nat × End) := []
  /-- The number of the next process. -/
  nextNumber : Nat := 1001

/-- A process and the world in which it runs. -/
structure State extends Process, World

/-- Why a command does not lead on to the next. -/
inductive Stop where
  | exit
  /-- An error, which ends the process unless a command can fail with it. -/
  | fault
  | leave (goesOn : Bool) (loops : Nat)
  | return_
  /-- A signal ends the process with a number. -/
  | killed (number signal : Nat)
  deriving Repr, DecidableEq

/-- What a process does. -/
abbrev Run := ExceptT Stop (StateM State)

/-- The value of a variable. -/
def Process.value? (process : Process) (name : String) : Option Octets :=
  (process.bindings.find? name).bind Variable.value

/-- The exported variables. -/
def Process.environment (process : Process) : List (String × Octets) :=
  process.bindings.entries.filterMap fun (name, known) =>
    if known.isExported then known.value.map (name, ·) else none

/-- Whether an option is on. -/
def Process.has (process : Process) (option : Char) : Bool :=
  process.options.contains option

/-- Set a variable, and leave it exported if it is. -/
def Process.assign (process : Process) (name : String) (value : Octets) : Process :=
  let known := (process.bindings.find? name).getD {}
  let isExported := known.isExported || process.has 'a'
  { process with
    bindings := process.bindings.insert name { known with value := some value, isExported }
    optionOffset := if name = "OPTIND" then 0 else process.optionOffset }

/-- The file system as a process sees it. -/
def State.view (state : State) : FileSystem :=
  { state.files with workingDirectory := state.directory }

namespace World

/-- The stream at a place. -/
def stream (world : World) (place : Nat) : Stream :=
  world.streams.getD place .nothing

/-- Put a stream at a place. -/
def withStream (world : World) (place : Nat) (stream : Stream) : World :=
  { world with streams := world.streams.setIfInBounds place stream }

/-- The bytes of the file at a location. -/
def content (world : World) (location : Location) : Octets :=
  octetsOfBytes (((world.files.entry? location).bind Entry.bytes?).getD [])

/-- What is left to read of a stream. -/
def unread (world : World) (place : Nat) : Octets :=
  match world.stream place with
  | .buffer front written => if written.isEmpty then front else front ++ written.reverse
  | .file location offset mode =>
    if mode = .read || mode = .readWrite then (world.content location).drop offset else []
  | .nothing => []

/-- Take some bytes off what is left to read of a stream. -/
def consume (world : World) (place count : Nat) : World :=
  match world.stream place with
  | .buffer _ _ => world.withStream place (.buffer ((world.unread place).drop count))
  | .file location offset mode => world.withStream place (.file location (offset + count) mode)
  | .nothing => world

/-- Write to a stream. -/
def write (world : World) (place : Nat) (octets : Octets) : World :=
  match world.stream place with
  | .buffer front written => world.withStream place (.buffer front (octets.reverse ++ written))
  | .nothing => world
  | .file location offset mode =>
    let entry? := world.files.entry? location
    let offset := if mode = .append then entry?.elim 0 Entry.size else offset
    let files :=
      if entry?.isSome && !octets.isEmpty then
        world.files.putBytesAt location offset (bytesOfOctets octets)
      else world.files
    { world with files }.withStream place (.file location (offset + octets.length) mode)

/-- Open a stream, and say where it is. -/
def openStream (world : World) (stream : Stream) : World × Nat :=
  ({ world with streams := world.streams.push stream }, world.streams.size)

end World

namespace Run

/-- The file system as the process sees it. -/
def view : Run FileSystem :=
  return (← get).view

/-- The stream that a descriptor names. -/
def place? (descriptor : Nat) : Run (Option Nat) :=
  return (← get).descriptors.lookup descriptor

def modifyWorld (change : World → World) : Run Unit :=
  modify fun shell => { shell with toWorld := change shell.toWorld }

def modifyProcess (change : Process → Process) : Run Unit :=
  modify fun shell => { shell with toProcess := change shell.toProcess }

/-- Open a stream. -/
def openStream (stream : Stream) : Run Nat :=
  modifyGet fun shell =>
    let (world, place) := shell.toWorld.openStream stream
    (place, { shell with toWorld := world })

/-- What is left to read from a descriptor, without reading it. -/
def unread (descriptor : Nat) : Run Octets := do
  match ← place? descriptor with
  | some place => return (← get).unread place
  | none => return []

/-- Take some bytes off what is left to read from a descriptor. -/
def consume (descriptor count : Nat) : Run Unit := do
  match ← place? descriptor with
  | some place => modifyWorld (·.consume place count)
  | none => return

/-- Read all that is left. -/
def readAll (descriptor : Nat) : Run Octets := do
  let octets ← unread descriptor
  consume descriptor octets.length
  return octets

/-- Write to a descriptor, and say whether it is open. -/
def write (descriptor : Nat) (octets : Octets) : Run Bool := do
  match ← place? descriptor with
  | some place => do modifyWorld (·.write place octets); return true
  | none => return false

/-- Write to the standard output. -/
def say (octets : Octets) : Run Unit :=
  discard (write 1 octets)

/-- Write to the standard error output. -/
def warn (octets : Octets) : Run Unit :=
  discard (write 2 octets)

/-- Set the exit code. -/
def setStatus (status : Nat) : Run Unit :=
  modify ({ · with status })

/-- Complain in the name of the script. -/
def complain (reason : Octets) : Run Unit := do
  let shell ← get
  let speaker := shell.speaker.elim [] (· ++ ": ".toList)
  warn (shell.name ++ ": ".toList ++ digitsOf shell.line ++ ": ".toList ++ speaker ++ reason
    ++ ['\n'])

/-- End the process with an exit code. -/
def exit {α : Type} (status : Nat) : Run α := do
  setStatus status
  throw .exit

/-- Complain, and go no further. -/
def die {α : Type} (reason : Octets) : Run α := do
  complain reason
  setStatus 2
  throw .fault

/-- Do something, and go on even if it stops. -/
def attempt {α : Type} (action : Run α) : Run (Except Stop α) :=
  ExceptT.lift action.run

/-- Go on as something that was attempted did. -/
def resume {α : Type} : Except Stop α → Run α
  | .ok value => return value
  | .error stop => throw stop

/-- Do something after which some descriptors are as before. -/
def keeping {α : Type} (kept : List Nat) (action : Run α) : Run α := do
  let before := (← get).descriptors.filter fun (descriptor, _) => kept.contains descriptor
  let result ← attempt action
  modify fun shell =>
    let others := shell.descriptors.filter fun (descriptor, _) => !kept.contains descriptor
    { shell with descriptors := before ++ others }
  resume result

/-- Do something in a process, of which only its end remains and what it did to the world. -/
def inProcess (process : Process) (action : Run Unit) : Run End := do
  let before := (← get).toProcess
  modifyProcess fun _ => process
  let result ← attempt action
  let status := (← get).status
  modifyProcess fun _ => before
  match result with
  | .error (.killed number signal) =>
    if number = process.number then return .signal signal else throw (.killed number signal)
  | _ => return .code status

/-- The number of a new process. -/
def newNumber : Run Nat :=
  modifyGet fun shell => (shell.nextNumber, { shell with nextNumber := shell.nextNumber + 1 })

/-- Do something in a process that is like this one. -/
def inChild (action : Run Unit) : Run End := do
  let number ← newNumber
  inProcess { (← get).toProcess with number } action

end Run
end TerraStack.Shell
