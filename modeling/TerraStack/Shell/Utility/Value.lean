import TerraStack.Shell.Builtin

namespace TerraStack.Shell

open Run

/-- The letters of the arguments at the start that are options of `echo`. -/
def echoLetters : List Octets → Octets × List Octets
  | [] => ([], [])
  | arg :: rest =>
    match arg with
    | '-' :: c :: letters =>
      if (c :: letters).all ['n', 'e', 'E'].contains then
        let (others, rest) := echoLetters rest
        (c :: letters ++ others, rest)
      else ([], arg :: rest)
    | _ => ([], arg :: rest)

/-- Write arguments. -/
def echoUtility (args : List Octets) : Run Nat := do
  let (letters, args) := echoLetters args
  let isEscaped := (letters.filter (· ≠ 'n')).getLast? = some 'e'
  let text := joinOctets [' '] args
  let (octets, ends) := if isEscaped then unescaped .utility text else (text, false)
  say (if letters.contains 'n' || ends then octets else octets ++ ['\n'])
  return 0

/-- Write arguments by a format. -/
def printUtility (args : List Octets) : Run Nat := do
  match if args.head? = some ['-', '-'] then args.drop 1 else args with
  | [] => do
    complainAs "printf" "missing operand".toList
    warn "Try 'printf --help' for more information.\n".toList
    return 1
  | format :: args => do
    let formatted := formatted format args
    say formatted.output
    let complaints := formatted.complaints ++ formatted.fault.toList
    complaints.forM fun complaint => complainAs "printf" complaint.toList
    return if complaints.isEmpty then 0 else 1

/-- Check a condition. -/
def testUtility (words : List Octets) : Run Nat := do
  match checkWords (← get).view (words.length + 1) words with
  | .ok holds => return if holds then 0 else 1
  | .error reason => do
    complainAs "test" reason.toList
    return 2

/-- The path without slashes at its end, unless it has nothing else. -/
def withoutSlashes (path : Octets) : Octets :=
  let kept := (path.reverse.dropWhile (· = '/')).reverse
  if kept.isEmpty then path.take 1 else kept

/-- The last name in a path. -/
def lastName (path : Octets) : Octets :=
  let path := withoutSlashes path
  if path = ['/'] then path else (splitAt '/' path).getLastD []

/-- A path up to its last name. -/
def pathAbove (path : Octets) : Octets :=
  let path := withoutSlashes path
  if path = ['/'] then path
  else if !path.contains '/' then ['.']
  else
    let above := path.take (path.length - (lastName path).length)
    let kept := (above.reverse.dropWhile (· = '/')).reverse
    if kept.isEmpty then ['/'] else kept

/-- A text without an ending, unless it is nothing else. -/
def withoutEnding (ending text : Octets) : Octets :=
  if ending.reverse.isPrefixOf text.reverse && text ≠ ending then
    text.take (text.length - ending.length)
  else text

/-- Write the last names of paths. -/
def baseName (args : List Octets) : Run Nat :=
  withOptions "basename" "az" "s" 1 args fun options => do
    let sayAll (ending : Octets) (paths : List Octets) : Run Nat := do
      say (fromLines (paths.map fun path => withoutEnding ending (lastName path)))
      return 0
    match options.operands, options.value? 's' with
    | [], _ => do
      complainAs "basename" "missing operand".toList
      warn "Try 'basename --help' for more information.\n".toList
      return 1
    | paths, some ending => sayAll ending paths
    | [path, ending], none =>
      if options.has 'a' then sayAll [] [path, ending] else sayAll ending [path]
    | paths, none =>
      if options.has 'a' || paths.length = 1 then sayAll [] paths
      else do
        complainAs "basename" ("extra operand ".toList ++ quoted (paths.getD 2 []))
        warn "Try 'basename --help' for more information.\n".toList
        return 1

/-- Write what is above the last names of paths. -/
def directoryName (args : List Octets) : Run Nat :=
  withOptions "dirname" "z" "" 1 args fun options => do
    if options.operands.isEmpty then
      complainAs "dirname" "missing operand".toList
      warn "Try 'dirname --help' for more information.\n".toList
      return 1
    say (fromLines (options.operands.map pathAbove))
    return 0

/-- Write the exported variables, or the values of some. -/
def printEnvironment (args : List Octets) : Run Nat := do
  let environment := (← get).environment
  if args.isEmpty then
    say (fromLines (environment.map fun (name, value) => name.toList ++ '=' :: value))
    return 0
  let values := args.map fun name => environment.lookup (.ofList name)
  say (fromLines (values.filterMap id))
  return if values.all Option.isSome then 0 else 1

/-- Write the whole numbers of a range. -/
def writeRange (args : List Octets) : Run Nat := do
  let (isPadded, args) := match args with
    | ['-', 'w'] :: rest => (true, rest)
    | args => (false, args)
  let (separator, args) := match args with
    | ['-', 's'] :: separator :: rest => (separator, rest)
    | ('-' :: 's' :: separator) :: rest => (separator, rest)
    | args => (['\n'], args)
  let refuse (complaint : Octets) : Run Nat := do
    complainAs "seq" complaint
    warn "Try 'seq --help' for more information.\n".toList
    return 1
  if let some extra := args[3]? then
    return ← refuse ("extra operand ".toList ++ quoted extra)
  let numbers := args.map (readInteger? 10)
  match args.find? fun arg => (readInteger? 10 arg).isNone with
  | some arg => refuse ("invalid floating point argument: ".toList ++ quoted arg)
  | none => do
    let (first, step, last) := match numbers.filterMap id with
      | [last] => (1, 1, last)
      | [first, last] => (first, 1, last)
      | first :: step :: last :: _ => (first, step, last)
      | [] => (1, 1, (0 : Int))
    if args.isEmpty then return ← refuse "missing operand".toList
    if step = 0 then return ← refuse "invalid Zero increment value: '0'".toList
    let count := ((last - first).fdiv step + 1).toNat
    let values := (List.range count).map fun (i : Nat) => digitsOf (first + step * i)
    let width := if isPadded then max (digitsOf first).length (digitsOf last).length else 0
    let values := values.map fun digits => List.replicate (width - digits.length) '0' ++ digits
    if !values.isEmpty then say (joinOctets separator values ++ ['\n'])
    return 0

/-- The milliseconds that a text denotes, with a unit behind it. -/
def milliseconds? (text : Octets) : Option Nat :=
  let whole := text.takeWhile Char.isDigit
  let rest := text.drop whole.length
  let (part, rest) := match rest with
    | '.' :: rest => (rest.takeWhile Char.isDigit, rest.dropWhile Char.isDigit)
    | rest => ([], rest)
  let unit? : Option Nat :=
    [([], 1), (['s'], 1), (['m'], 60), (['h'], 3600), (['d'], 86400)].lookup rest
  if whole.isEmpty && part.isEmpty then none
  else unit?.map fun unit =>
    unit * (1000 * ofDigits 10 (takeDigits 10 whole)
      + ofDigits 10 (takeDigits 10 ((part ++ ['0', '0', '0']).take 3)))

/-- Let time go by. -/
def sleepFor (args : List Octets) : Run Nat := do
  if args.isEmpty then
    complainAs "sleep" "missing operand".toList
    warn "Try 'sleep --help' for more information.\n".toList
    return 1
  match args.find? fun arg => (milliseconds? arg).isNone with
  | some arg => do
    complainAs "sleep" ("invalid time interval ".toList ++ quoted arg)
    warn "Try 'sleep --help' for more information.\n".toList
    return 1
  | none => do
    let added := (args.filterMap milliseconds?).foldl (· + ·) 0
    modifyWorld fun world => { world with milliseconds := world.milliseconds + added }
    return 0

/-- Utilities that only say or check something, with their names. -/
def valueUtilities : List (String × Utility) := [
  ("true", fun _ => return 0),
  ("false", fun _ => return 1),
  ("echo", echoUtility),
  ("printf", printUtility),
  ("test", testUtility),
  ("[", fun args => testUtility args.dropLast),
  ("pwd", fun _ => do
    say ((← currentPath) ++ ['\n'])
    return 0),
  ("basename", baseName),
  ("dirname", directoryName),
  ("printenv", printEnvironment),
  ("seq", writeRange),
  ("sleep", sleepFor),
  ("sync", fun _ => return 0),
  ("whoami", fun _ => do
    say "root\n".toList
    return 0),
  ("id", fun args => do
    let isName := args.any fun arg => arg.contains 'n'
    say (if args.isEmpty then "uid=0(root) gid=0(root) groups=0(root)\n".toList
      else if isName then "root\n".toList else "0\n".toList)
    return 0),
  ("hostname", fun _ => do
    say "localhost\n".toList
    return 0),
  ("nproc", fun _ => do
    say "1\n".toList
    return 0),
  ("date", fun _ => do
    say "Thu Jan  1 00:00:00 UTC 1970\n".toList
    return 0),
  ("tty", fun _ => do
    say "not a tty\n".toList
    return 1),
  ("uname", fun _ => do
    say "Linux\n".toList
    return 0)]

end TerraStack.Shell
