import TerraStack.Shell.Regex
import TerraStack.Shell.Utility.Value

namespace TerraStack.Shell

open Run

/-- A choice of lines. -/
inductive EditAddress where
  | line (number : Nat)
  | final
  | pattern (regex : Regex)
  /-- Some lines more, as the second address of a range. -/
  | more (count : Nat)
  | every (first step : Nat)

/-- A part of what is put in place of a match. -/
inductive Replacement where
  | text (octets : Octets)
  | group (index : Nat)

mutual

/-- What is done with a line. -/
inductive EditAction where
  | substitute (regex : Regex) (replacement : List Replacement) (first : Nat)
    (isGlobal foldsCase prints : Bool)
  | print
  | printFirst
  | delete
  | deleteFirst
  | quit (status : Nat) (prints : Bool)
  | showNumber
  | transliterate (table : List (Char × Char))
  | append (text : Octets)
  | insert (text : Octets)
  | change (text : Octets)
  | next
  | appendNext
  | hold (adds : Bool)
  | get (adds : Bool)
  | exchange
  | block (commands : List EditCommand)

/-- A command with the lines for which it is carried out. Its number tells it from the others. -/
structure EditCommand where
  number : Nat
  first : Option EditAddress
  last : Option EditAddress
  isNegated : Bool
  action : EditAction

end

/-- Read a text up to a delimiter, in front of which a backslash is left out. -/
def readDelimited (delimiter : Char) : Octets → Option (Octets × Octets)
  | [] => none
  | '\\' :: c :: rest =>
    let text : Octets := if c = delimiter then [c] else ['\\', c]
    (readDelimited delimiter rest).map fun (inner, after) => (text ++ inner, after)
  | c :: rest =>
    if c = delimiter then some ([], rest)
    else (readDelimited delimiter rest).map fun (inner, after) => (c :: inner, after)

/-- Read what is put in place of a match. -/
def readReplacement : Octets → List Replacement
  | [] => []
  | '\\' :: c :: rest =>
    if c.isDigit then .group (c.toNat - '0'.toNat) :: readReplacement rest
    else .text [if c = 'n' then '\n' else if c = 't' then '\t' else c] :: readReplacement rest
  | '&' :: rest => .group 0 :: readReplacement rest
  | c :: rest => .text [c] :: readReplacement rest

section Reading

variable (isExtended : Bool)

/-- Read a regular expression. -/
def readEditRegex (text : Octets) : Except String Regex :=
  (Regex.read isExtended text).mapError Regex.Error.message

/-- Read an address, if there is one. -/
def readAddress (text : Octets) : Except String (Option EditAddress × Octets) := do
  match text with
  | '$' :: rest => return (some .final, rest)
  | '/' :: rest =>
    match readDelimited '/' rest with
    | some (pattern, after) => return (some (.pattern (← readEditRegex isExtended pattern)), after)
    | none => .error "unterminated address regex"
  | '+' :: rest =>
    let digits := rest.takeWhile Char.isDigit
    return (some (.more ((natOf? digits).getD 0)), rest.drop digits.length)
  | text =>
    let digits := text.takeWhile Char.isDigit
    let rest := text.drop digits.length
    match natOf? digits, rest with
    | none, _ => return (none, text)
    | some first, '~' :: rest =>
      let step := rest.takeWhile Char.isDigit
      return (some (.every first ((natOf? step).getD 0)), rest.drop step.length)
    | some number, rest => return (some (.line number), rest)

/-- Read the text of a command that adds lines. -/
def readAddedText (text : Octets) : Octets × Octets :=
  let text := text.dropWhile fun c => c = ' ' || c = '\t'
  let text := match text with
    | '\\' :: '\n' :: rest => rest
    | '\\' :: rest => rest
    | text => text
  let rec upToLineEnd : Octets → Octets × Octets
    | [] => ([], [])
    | '\\' :: c :: rest =>
      let (line, after) := upToLineEnd rest
      (c :: line, after)
    | c :: rest =>
      if c = '\n' then ([], rest)
      else
        let (line, after) := upToLineEnd rest
        (c :: line, after)
  upToLineEnd text

/-- Read the command for substitutions behind its letter. -/
def readSubstitution (text : Octets) : Except String (EditAction × Octets) := do
  match text with
  | [] => .error "unterminated `s' command"
  | delimiter :: rest =>
    match readDelimited delimiter rest with
    | none => .error "unterminated `s' command"
    | some (pattern, rest) =>
      match readDelimited delimiter rest with
      | none => .error "unterminated `s' command"
      | some (replacement, rest) =>
        let flags := rest.takeWhile fun c => c.isDigit || ['g', 'p', 'i', 'I', 'm', 'M'].contains c
        let regex ← readEditRegex isExtended pattern
        let first := (natOf? (flags.filter Char.isDigit)).getD 1
        return (.substitute regex (readReplacement replacement) first (flags.contains 'g')
          (flags.contains 'i' || flags.contains 'I') (flags.contains 'p'), rest.drop flags.length)

/-- Read the command that puts bytes in place of others behind its letter. -/
def readTransliteration (text : Octets) : Except String (EditAction × Octets) := do
  match text with
  | [] => .error "unterminated `y' command"
  | delimiter :: rest =>
    let found : Option (Octets × Octets × Octets) := do
      let (old, rest) ← readDelimited delimiter rest
      let (new, rest) ← readDelimited delimiter rest
      return (old, new, rest)
    match found with
    | none => .error "unterminated `y' command"
    | some (old, new, rest) =>
      if old.length ≠ new.length then .error "strings for `y' command are different lengths"
      else return (.transliterate (old.zip new), rest)

/-- Read commands up to the end of a script or a closing brace, which is left. -/
def readCommands : Nat → Octets → Except String (List EditCommand × Octets)
  | 0, _ => .ok ([], [])
  | fuel + 1, text => do
    let text := text.dropWhile fun c => isBlank c || c = ';'
    match text with
    | [] => return ([], [])
    | '\x7d' :: _ => return ([], text)
    | '#' :: rest => readCommands fuel (rest.dropWhile (· ≠ '\n'))
    | text =>
      let number := text.length
      let (first, rest) ← readAddress isExtended text
      let rest := rest.dropWhile (· = ' ')
      let (last, rest) ← match first, rest with
        | some _, ',' :: rest => readAddress isExtended (rest.dropWhile (· = ' '))
        | _, rest => pure (none, rest)
      let rest := rest.dropWhile (· = ' ')
      let isNegated := rest.head? = some '!'
      let rest := if isNegated then (rest.drop 1).dropWhile (· = ' ') else rest
      let (action, rest) : EditAction × Octets ← match rest with
        | [] => .error "missing command"
        | c :: rest =>
          let status := (natOf? ((rest.dropWhile (· = ' ')).takeWhile Char.isDigit)).getD 0
          let behindStatus := (rest.dropWhile (· = ' ')).dropWhile Char.isDigit
          match c with
          | '\x7b' => do
            let (commands, rest) ← readCommands fuel rest
            match rest with
            | '\x7d' :: rest => pure (.block commands, rest)
            | _ => .error "unmatched `\x7b'"
          | 's' => readSubstitution isExtended rest
          | 'y' => readTransliteration rest
          | 'p' => pure (.print, rest)
          | 'P' => pure (.printFirst, rest)
          | 'd' => pure (.delete, rest)
          | 'D' => pure (.deleteFirst, rest)
          | 'q' => pure (.quit status true, behindStatus)
          | 'Q' => pure (.quit status false, behindStatus)
          | '=' => pure (.showNumber, rest)
          | 'n' => pure (.next, rest)
          | 'N' => pure (.appendNext, rest)
          | 'h' => pure (.hold false, rest)
          | 'H' => pure (.hold true, rest)
          | 'g' => pure (.get false, rest)
          | 'G' => pure (.get true, rest)
          | 'x' => pure (.exchange, rest)
          | 'a' => let (text, rest) := readAddedText rest; pure (.append text, rest)
          | 'i' => let (text, rest) := readAddedText rest; pure (.insert text, rest)
          | 'c' => let (text, rest) := readAddedText rest; pure (.change text, rest)
          | c => .error (String.ofList ("unknown command: `".toList ++ [c, '\'']))
      let rest := rest.dropWhile fun c => c = ' ' || c = '\t'
      if !rest.head?.all [';', '\n', '\x7d', '#'].contains then
        match action with
        | .append _ | .insert _ | .change _ | .block _ => pure ()
        | .substitute .. => .error "unknown option to `s'"
        | _ => .error "extra characters after command"
      let (commands, rest) ← readCommands fuel rest
      return ({ number, first, last, isNegated, action } :: commands, rest)

/-- The commands of a script. -/
def readEditScript (script : Octets) : Except String (List EditCommand) := do
  match ← readCommands isExtended (script.length + 1) script with
  | (commands, []) => return commands
  | _ => .error "unexpected `\x7d'"

end Reading

/-- What editing has come to. -/
structure Editing where
  /-- The line at hand. -/
  line : Octets
  held : Octets := []
  /-- The number of the line at hand. -/
  number : Nat
  /-- The lines that come next. -/
  rest : List Octets
  /-- What has been written, backwards. -/
  written : Octets := []
  /-- What is to be written behind the line at hand. -/
  added : List Octets := []
  /-- The commands within whose ranges the line lies, with the numbers of the lines where these end
  if that is known. -/
  within : List (Nat × Option Nat) := []

/-- How a command leads on. -/
inductive EditFlow where
  | on
  | endLine (prints : Bool)
  /-- Start over with what is left of the line. -/
  | again
  | quit (status : Nat) (prints : Bool)

namespace Editing

/-- Write lines. -/
def write (editing : Editing) (text : Octets) : Editing :=
  { editing with written := '\n' :: (text.reverse ++ editing.written) }

/-- Write what is to be written behind a line. -/
def writeAdded (editing : Editing) : Editing :=
  { editing.added.foldl write editing with added := [] }

/-- Whether the line at hand is chosen by an address. -/
def isAt (editing : Editing) : EditAddress → Bool
  | .line number => editing.number = number
  | .final => editing.rest.isEmpty
  | .pattern regex => (regex.find? false editing.line).isSome
  | .more _ => false
  | .every first step =>
    if step = 0 then editing.number = first
    else first ≤ editing.number && (editing.number - first) % step = 0

/-- Whether a command is carried out for the line at hand. -/
def isChosen (editing : Editing) (command : EditCommand) : Bool × Editing :=
  let leave : Editing :=
    { editing with within := editing.within.filter (·.1 ≠ command.number) }
  let stay (finish : Option Nat) : Editing :=
    { leave with within := (command.number, finish) :: leave.within }
  match command.first, command.last with
  | none, _ => (true, editing)
  | some first, none => (editing.isAt first, editing)
  | some first, some last =>
    match editing.within.lookup command.number with
    | some (some finish) => (true, if finish ≤ editing.number then leave else editing)
    | some none => (true, if editing.isAt last then leave else editing)
    | none =>
      if !editing.isAt first then (false, editing)
      else match last with
        | .line number =>
          (true, if number ≤ editing.number then editing else stay (some number))
        | .more count =>
          (true, if count = 0 then editing else stay (some (editing.number + count)))
        | .final => (true, if editing.rest.isEmpty then editing else stay none)
        | _ => (true, stay none)

/-- What is put in place of a match. -/
def replace (replacement : List Replacement) (found : Regex.Match) : Octets :=
  replacement.flatMap fun part => match part with
    | .text octets => octets
    | .group index => found.group index

/-- Put something in place of matches, from one of them on. Whether there was any is returned too. -/
def substitute (regex : Regex) (replacement : List Replacement) (isGlobal foldsCase : Bool) :
    Nat → Nat → Octets → Octets → Octets × Bool
  | 0, _, _, after => (after, false)
  | fuel + 1, skipped, before, after =>
    match regex.findFrom? foldsCase (fun _ => true) before after with
    | none => (after, false)
    | some found =>
      let lead := after.take (after.length - found.start.after.length)
      let isReplaced := skipped = 0
      let new := if isReplaced then replace replacement found else found.text
      let finish := found.finish
      if isReplaced && !isGlobal then (lead ++ new ++ finish.after, true)
      else if found.text.isEmpty then
        match finish.after with
        | [] => (lead ++ new, isReplaced)
        | c :: rest =>
          let (text, others) := substitute regex replacement isGlobal foldsCase fuel (skipped - 1)
            (c :: finish.before) rest
          (lead ++ new ++ c :: text, isReplaced || others)
      else
        let (text, others) := substitute regex replacement isGlobal foldsCase fuel (skipped - 1)
          finish.before finish.after
        (lead ++ new ++ text, isReplaced || others)

/-- Carry out commands one after another. -/
def carryOut (isQuiet : Bool) : Nat → List EditCommand → Editing → Editing × EditFlow
  | 0, _, editing => (editing, .on)
  | _, [], editing => (editing, .on)
  | fuel + 1, command :: commands, editing =>
    let (isChosen, editing) := editing.isChosen command
    let goOn (editing : Editing) := carryOut isQuiet fuel commands editing
    if isChosen = command.isNegated then goOn editing
    else match command.action with
      | .substitute regex replacement first isGlobal foldsCase prints =>
        let (line, isDone) := substitute regex replacement isGlobal foldsCase
          (editing.line.length + 2) (first - 1) [] editing.line
        let editing := if isDone then { editing with line } else editing
        goOn (if isDone && prints then editing.write line else editing)
      | .print => goOn (editing.write editing.line)
      | .printFirst => goOn (editing.write (editing.line.takeWhile (· ≠ '\n')))
      | .delete => (editing, .endLine false)
      | .deleteFirst =>
        if editing.line.contains '\n' then
          ({ editing with line := (editing.line.dropWhile (· ≠ '\n')).drop 1 }, .again)
        else (editing, .endLine false)
      | .quit status prints => (editing, .quit status prints)
      | .showNumber => goOn (editing.write (digitsOf editing.number))
      | .transliterate table =>
        goOn { editing with line := editing.line.map fun c => (table.lookup c).getD c }
      | .append text => goOn { editing with added := editing.added ++ [text] }
      | .insert text => goOn (editing.write text)
      | .change text =>
        let isInside := command.last.isSome && !command.isNegated
          && (editing.within.lookup command.number).isSome
        (if isInside then editing else editing.write text, .endLine false)
      | .next =>
        match editing.rest with
        | [] => (editing, .quit 0 true)
        | line :: rest =>
          let editing := if isQuiet then editing else editing.write editing.line
          goOn { editing.writeAdded with line, rest, number := editing.number + 1 }
      | .appendNext =>
        match editing.rest with
        | [] => (editing, .quit 0 true)
        | line :: rest =>
          goOn { editing with
            line := editing.line ++ '\n' :: line
            rest
            number := editing.number + 1 }
      | .hold adds =>
        goOn { editing with
          held := if adds then editing.held ++ '\n' :: editing.line else editing.line }
      | .get adds =>
        goOn { editing with
          line := if adds then editing.line ++ '\n' :: editing.held else editing.held }
      | .exchange => goOn { editing with line := editing.held, held := editing.line }
      | .block inner =>
        match carryOut isQuiet fuel inner editing with
        | (editing, .on) => goOn editing
        | (editing, flow) => (editing, flow)

/-- Edit all lines. -/
def run (isQuiet : Bool) (commands : List EditCommand) : Nat → Editing → Octets × Nat
  | 0, editing => (editing.written.reverse, 0)
  | fuel + 1, editing =>
    let finish (prints : Bool) (editing : Editing) : Editing :=
      (if prints && !isQuiet then editing.write editing.line else editing).writeAdded
    let next (editing : Editing) : Octets × Nat :=
      match editing.rest with
      | [] => (editing.written.reverse, 0)
      | line :: rest => run isQuiet commands fuel { editing with line, rest, number := editing.number + 1 }
    match carryOut isQuiet (fuel + 1) commands editing with
    | (editing, .on) => next (finish true editing)
    | (editing, .endLine prints) => next (finish prints editing)
    | (editing, .again) => run isQuiet commands fuel editing.writeAdded
    | (editing, .quit status prints) => ((finish prints editing).written.reverse, status)

end Editing

/-- What editing makes of a text, and with which exit code it ends. -/
def editText (isQuiet : Bool) (script : Octets) (commands : List EditCommand) (content : Octets) :
    Octets × Nat :=
  match octetLines content with
  | [] => ([], 0)
  | line :: rest =>
    let fuel := 4 * content.length + script.length + 16
    let (output, status) := Editing.run isQuiet commands fuel { line, number := 1, rest }
    (if content.getLast? = some '\n' then output else output.dropLast, status)

/-- Edit texts as `sed` does. The commands of a script are carried out for one line after another,
each for the lines that its addresses choose. -/
def editLines (args : List Octets) : Run Nat :=
  withOptions "sed" "nErsiuz" "e" 1 args fun options => do
    let given := options.values.reverse.map Prod.snd
    let (scripts, paths) :=
      if given.isEmpty then (options.operands.take 1, options.operands.drop 1)
      else (given, options.operands)
    if scripts.isEmpty then
      warn "Usage: sed [OPTION]... \x7bscript-only-if-no-other-script\x7d [input-file]...\n".toList
      return 1
    let script := joinOctets ['\n'] scripts
    match readEditScript (options.has 'E' || options.has 'r') script with
    | .error reason => do
      complainAs "sed" ("-e expression #1, char ".toList ++ digitsOf script.length ++ ": ".toList
        ++ reason.toList)
      return 1
    | .ok commands => do
      let complaint (path : Octets) (error : FileError) : Octets :=
        (if error = .isDirectory then "read error on " else "can't read ").toList ++ path
      let (contents, isComplete) ← readOperands "sed" complaint paths
      if options.has 'i' then
        for (path, content) in contents do
          let (output, _) := editText (options.has 'n') script commands content
          let _ ← changeFiles (·.writeBytes (textOf path) (bytesOfOctets output))
        return if isComplete then 0 else 2
      else
        let (output, status) :=
          editText (options.has 'n') script commands (contents.flatMap Prod.snd)
        say output
        return if status ≠ 0 then status else if isComplete then 0 else 2

/-- The utility that edits texts, with its name. -/
def editUtilities : List (String × Utility) :=
  [("sed", editLines)]

end TerraStack.Shell
