import TerraStack.CommandLine.Usage

namespace TerraStack.CommandLine

/-- The options and the operand among the arguments. No option may be given twice, and there is one
operand at most. -/
structure Arguments where
  switches : List Switch := []
  settings : List (Setting × String) := []
  /-- A setting with its value, neither of which has been checked yet. -/
  unchecked : Option (Setting × String) := none
  operand : Option String := none
  deriving Repr, DecidableEq

/-- The greatest number of seconds plus one. -/
def timeoutBound : Nat := Nat.pow 2 64

/-- The number of seconds that a text gives. A plus sign may stand before it. -/
def readSeconds? (text : String) : Option Nat :=
  let digits := match text.toList with
    | '+' :: digits => digits
    | digits => digits
  let seconds := digits.foldl (fun n c => 10 * n + (c.toNat - '0'.toNat)) 0
  if !digits.isEmpty && digits.all Char.isDigit && seconds < timeoutBound then some seconds else none

/-- Whether a setting can have a value. -/
def Setting.admits (value : String) : Setting → Bool
  | .terraformDir | .terraformBin => value ≠ ""
  | .timeout => (readSeconds? value).isSome
  | .workspace => true

namespace Arguments

/-- The value of a setting. -/
def value? (found : Arguments) (setting : Setting) : Option String :=
  found.settings.lookup setting

/-- Check what is unchecked, and take it in. A value that is an argument of its own is checked no
sooner than the next option or the end of the arguments. So before a verb it can be wrong and go
unnoticed, if help or the version is asked for behind the verb. -/
def settle (found : Arguments) : Except Stop Arguments :=
  match found.unchecked with
  | none => .ok found
  | some (setting, value) =>
    if (found.value? setting).isSome then .error (.usage (.repeatedOption setting.name))
    else if setting.admits value then
      .ok { found with settings := (setting, value) :: found.settings, unchecked := none }
    else .error (.usage (.invalidValue setting.name value))

/-- Turn a switch on. -/
def addSwitch (found : Arguments) (switch : Switch) : Except Stop Arguments := do
  let found ← found.settle
  if found.switches.contains switch then .error (.usage (.repeatedOption switch.name))
  else .ok { found with switches := switch :: found.switches }

/-- Give a setting its value, to be checked later. -/
def addSetting (found : Arguments) (setting : Setting) (value : String) :
    Except Stop Arguments := do
  let found ← found.settle
  .ok { found with unchecked := some (setting, value) }

/-- Take the operand in. It must not be empty, and there must be no other. -/
def addOperand (found : Arguments) (operand : String) : Except Stop Arguments := do
  let found ← found.settle
  if found.operand.isSome then .error (.usage (.unexpectedArgument operand))
  else if operand = "" then .error (.usage (.invalidValue "FILE" operand))
  else .ok { found with operand := some operand }

/-- Stop, unless something is wrong with the arguments before. -/
def stop {α : Type} (found : Arguments) (reason : Stop) : Except Stop α := do
  let _ ← found.settle
  .error reason

end Arguments

/-- The forms of an argument. An option is written `--name`, or as a letter behind a hyphen, where
several letters may share the hyphen. The value of a setting is the next argument, or follows an
equal sign, or the letter itself. Behind `--` all arguments are operands. -/
inductive Form where
  | separator
  | long (name : String) (value : Option String)
  | letters (letters : List Char)
  | operand

/-- The form of an argument. A single hyphen is an operand. -/
def Form.ofArgument (argument : String) : Form :=
  match argument.toList with
  | ['-', '-'] => .separator
  | '-' :: '-' :: rest =>
    match rest.dropWhile (· ≠ '=') with
    | _ :: value => .long (.ofList (rest.takeWhile (· ≠ '='))) (some (.ofList value))
    | [] => .long (.ofList rest) none
  | '-' :: c :: rest => .letters (c :: rest)
  | _ => .operand

/-- The text of a value that follows its letter. -/
def attachedValue : List Char → String
  | '=' :: value => .ofList value
  | value => .ofList value

/-- Read the letters behind a hyphen. A setting whose value does not follow is returned. -/
def readLetters (verb : Option Verb) :
    List Char → Arguments → Except Stop (Arguments × Option Setting)
  | [], found => .ok (found, none)
  | c :: rest, found =>
    match (Switch.allowed verb).find? fun switch => switch.letter? = some c with
    | some switch => do readLetters verb rest (← found.addSwitch switch)
    | none =>
      match (Setting.allowed verb).find? fun setting => setting.letter? = some c with
      | some setting =>
        if rest.isEmpty then .ok (found, some setting)
        else do return (← (← found.addSetting setting (attachedValue rest)).settle, none)
      | none =>
        if c = 'h' then found.stop .help
        else if c = 'V' then found.stop (.version verb)
        else .error (.usage (.unknownOption (.ofList ['-', c])))

/-- Read the name behind two hyphens. A setting whose value does not follow is returned. -/
def readName (verb : Option Verb) (name : String) (value : Option String) (found : Arguments) :
    Except Stop (Arguments × Option Setting) :=
  match (Switch.allowed verb).find? fun switch => switch.name = name, value with
  | some switch, none => do return (← found.addSwitch switch, none)
  | some switch, some _ => .error (.usage (.unwantedValue switch.name))
  | none, value =>
    match (Setting.allowed verb).find? fun setting => setting.name = name, value with
    | some setting, some value => do return (← (← found.addSetting setting value).settle, none)
    | some setting, none => .ok (found, some setting)
    | none, none =>
      if name = "help" then found.stop .help
      else if name = "version" then found.stop (.version verb)
      else .error (.usage (.unknownOption ("--" ++ name)))
    | none, some _ => .error (.usage (.unknownOption ("--" ++ name)))

/-- Whether an argument may be the value of the setting before it. -/
def isValue (argument : String) : Bool :=
  match Form.ofArgument argument with
  | .operand => true
  | _ => false

/-- Read arguments before a verb, or behind one. Those before it end at the first operand, with
which the rest starts; the last value before it is left unchecked. -/
def readArguments (verb : Option Verb) :
    List String → Arguments → Except Stop (Arguments × List String)
  | [], found => do return (← found.settle, [])
  | argument :: rest, found => do
    let awaiting (step : Arguments × Option Setting) : Except Stop (Arguments × List String) :=
      match step, rest with
      | (found, none), rest => readArguments verb rest found
      | (found, some setting), value :: rest =>
        if isValue value then do readArguments verb rest (← found.addSetting setting value)
        else .error (.usage (.missingValue setting.name))
      | (_, some setting), [] => .error (.usage (.missingValue setting.name))
    match Form.ofArgument argument with
    | .long name value => awaiting (← readName verb name value found)
    | .letters letters => awaiting (← readLetters verb letters found)
    | .separator =>
      if verb.isSome then return (← (← rest.foldlM Arguments.addOperand found).settle, [])
      else .error (.usage (rest.head?.elim .missingVerb .unexpectedArgument))
    | .operand =>
      if verb.isSome then readArguments verb rest (← found.addOperand argument)
      else return (found, argument :: rest)

end TerraStack.CommandLine
