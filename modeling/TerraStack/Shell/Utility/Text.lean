import TerraStack.Shell.Utility.Value

namespace TerraStack.Shell

open Run

/-- Do something with the contents of all operands, one after another. -/
def withContent (utility : String) (operands : List Octets) (action : Octets → Run Unit)
    (complaint : Octets → FileError → Octets := fun path _ => path) : Run Nat := do
  let (contents, isComplete) ← readOperands utility complaint operands
  action (contents.flatMap Prod.snd)
  return if isComplete then 0 else 1

/-- Numbered lines, the numbers in a column. -/
def numbered (lines : List Octets) (isCounted : Octets → Bool) (blank : Octets → Octets) :
    Nat → List Octets
  | first => go first lines
where
  go (number : Nat) : List Octets → List Octets
    | [] => []
    | line :: rest =>
      if isCounted line then
        let digits := digitsOf number
        (List.replicate (6 - digits.length) ' ' ++ digits ++ '\t' :: line) :: go (number + 1) rest
      else blank line :: go number rest

/-- Write contents one after another. -/
def concatenate (args : List Octets) : Run Nat :=
  withOptions "cat" "nbsuvetAET" "" 1 args fun options =>
    withContent "cat" options.operands fun content => do
      let hasEnd := content.getLast? = some '\n'
      let lines := octetLines content
      let rec squeeze (afterBlank : Bool) : List Octets → List Octets
        | [] => []
        | line :: rest =>
          if line.isEmpty && afterBlank then squeeze true rest else line :: squeeze line.isEmpty rest
      let lines := if options.has 's' then squeeze false lines else lines
      let lines := if options.has 'E' || options.has 'A' || options.has 'e' then
          lines.mapIdx fun i line =>
            if i + 1 < lines.length || hasEnd then line ++ ['$'] else line
        else lines
      let lines :=
        if options.has 'b' then numbered lines (!·.isEmpty) id 1
        else if options.has 'n' then numbered lines (fun _ => true) id 1
        else lines
      let showsTabs := options.has 'T' || options.has 'A' || options.has 't'
      let octets := (fromLines lines).flatMap fun c =>
        if showsTabs && c = '\t' then ['^', 'I'] else [c]
      say (if hasEnd then octets else octets.dropLast)

/-- Write lines in the opposite order. -/
def concatenateBackwards (args : List Octets) : Run Nat :=
  let write (content : Octets) : Run Unit :=
    let parts := splitAt '\n' content
    let ended := (parts.dropLast).map (· ++ ['\n'])
    say ((ended ++ [parts.getLastD []]).reverse.flatten)
  withContent "tac" args write fun path error =>
    if error = .isDirectory then path ++ ": read error".toList
    else "failed to open ".toList ++ quoted path ++ " for reading".toList

/-- Write each line backwards. -/
def reverseLines (args : List Octets) : Run Nat :=
  withContent "rev" args fun content =>
    say (joinOctets ['\n'] ((splitAt '\n' content).map List.reverse))

/-- Cut a text behind a number of lines. -/
def behindLines : Nat → Octets → Octets × Octets
  | 0, text => ([], text)
  | _, [] => ([], [])
  | count + 1, c :: rest =>
    let (taken, left) := behindLines (if c = '\n' then count else count + 1) rest
    (c :: taken, left)

/-- The number of lines of a text, of which the last need not be ended. -/
def lineCount (text : Octets) : Nat :=
  (octetLines text).length

/-- The first lines or bytes of a text, or all but the last. -/
def firstPart (isBytes isAllBut : Bool) (count : Nat) (text : Octets) : Octets :=
  let take := if isAllBut then (if isBytes then text.length else lineCount text) - count else count
  if isBytes then text.take take else (behindLines take text).1

/-- The last lines or bytes of a text, or all from one on. -/
def lastPart (isBytes isFrom : Bool) (count : Nat) (text : Octets) : Octets :=
  let drop := if isFrom then count - 1 else (if isBytes then text.length else lineCount text) - count
  if isBytes then text.drop drop else (behindLines drop text).2

/-- A hyphen and a number in place of an option. -/
def withCountOption (args : List Octets) : List Octets :=
  match args with
  | ('-' :: digits) :: rest =>
    if (natOf? digits).isSome then ['-', 'n'] :: digits :: rest else args
  | args => args

/-- Write a part of each operand. A sign before the number turns its meaning around. -/
def writeParts (utility : String) (sign : Char) (part : Bool → Bool → Nat → Octets → Octets)
    (args : List Octets) : Run Nat :=
  withOptions utility "qvfF" "nc" 1 (withCountOption args) fun options => do
    let isBytes := (options.value? 'c').isSome
    let given := ((options.value? 'c') <|> options.value? 'n').getD ['1', '0']
    let isTurned := given.head? = some sign
    let digits := if given.head? = some '+' || given.head? = some '-' then given.drop 1 else given
    match natOf? digits with
    | none => do
      let unit := if isBytes then "bytes" else "lines"
      complainAs utility ("invalid number of ".toList ++ unit.toList ++ ": ".toList ++ quoted given)
      return 1
    | some count => do
      let complaint (path : Octets) (error : FileError) : Octets :=
        if error = .isDirectory then "error reading ".toList ++ quoted path
        else "cannot open ".toList ++ quoted path ++ " for reading".toList
      let (contents, isComplete) ← readOperands utility complaint options.operands
      let hasHeaders := options.has 'v' || (1 < options.operands.length && !options.has 'q')
      let parts := contents.map fun (path, content) =>
        let name := if path = ['-'] then "standard input".toList else path
        let header := if hasHeaders then "==> ".toList ++ name ++ " <==\n".toList else []
        header ++ part isBytes isTurned count content
      say (joinOctets (if hasHeaders then ['\n'] else []) parts)
      return if isComplete then 0 else 1

/-- The number of words in a text. -/
def wordCount (text : Octets) : Nat :=
  (text.foldl (fun (count, isInside) c =>
    if isBlank c then (count, false)
    else (if isInside then count else count + 1, true)) (0, false)).1

/-- The counts of a text that are asked for. -/
def countsOf (options : Options) (text : Octets) : List Nat :=
  let asks (switch : Char) (isStandard : Bool) : Bool :=
    options.has switch || (isStandard && options.switches.isEmpty)
  let lines := (text.filter (· = '\n')).length
  let widest := ((octetLines text).map List.length).foldl max 0
  [(asks 'l' true, lines), (asks 'w' true, wordCount text),
    (asks 'm' false, text.length), (asks 'c' true, text.length),
    (asks 'L' false, widest)].filterMap fun (isAsked, count) => if isAsked then some count else none

/-- A number in a column. -/
def inColumn (width number : Nat) : Octets :=
  let digits := digitsOf number
  List.replicate (width - digits.length) ' ' ++ digits

/-- Whether the standard input is a file. -/
def inputIsFile : Run Bool := do
  match (← place? 0).map (← get).stream with
  | some (.file ..) => return true
  | _ => return false

/-- Count lines, words and bytes. -/
def countWords (args : List Octets) : Run Nat :=
  withOptions "wc" "lwcmL" "" 1 args fun options => do
    let isFile ← inputIsFile
    let (contents, isComplete) ← readOperands "wc" (fun path _ => path) options.operands
    let counted := contents.map fun (path, content) =>
      (if options.operands.isEmpty then none else some path, countsOf options content)
    let total := (contents.map fun (_, content) => content.length).foldl (· + ·) 0
    let isPlain := options.operands.length ≤ 1 && (countsOf options []).length = 1
    let fromPipe := contents.any fun (path, _) => path = ['-'] && !isFile
    let width := if isPlain then 1
      else max (digitsOf total).length (if fromPipe then 7 else 1)
    let line (name : Option Octets) (counts : List Nat) : Octets :=
      joinOctets [' '] (counts.map (inColumn width) ++ name.toList) ++ ['\n']
    say (counted.flatMap fun (name, counts) => line name counts)
    if 1 < options.operands.length then
      let zeros := (countsOf options []).map fun _ => 0
      let totals := counted.foldl (fun sums (_, counts) => List.zipWith (· + ·) sums counts) zeros
      say (line (some "total".toList) totals)
    return if isComplete then 0 else 1

/-- A part of a line by which lines are sorted. -/
structure SortKey where
  first : Nat
  last : Option Nat := none
  letters : Octets := []

/-- The key that a text asks for. -/
def sortKey? (text : Octets) : Option SortKey := do
  let number (text : Octets) := (text.takeWhile Char.isDigit, text.dropWhile Char.isDigit)
  let (first, rest) := number text
  let letters (rest : Octets) := rest.filter Char.isAlpha
  let first ← natOf? first
  match rest.dropWhile (· ≠ ',') with
  | ',' :: after =>
    let (last, more) := number after
    return { first, last := natOf? last, letters := letters rest ++ letters more }
  | _ => return { first, letters := letters rest }

/-- The fields of a line. Without a separator, fields start with the blanks before them. -/
def sortFields (separator : Option Char) (line : Octets) : List Octets :=
  match separator with
  | some separator => splitAt separator line
  | none => go (line.length + 1) line
where
  go : Nat → Octets → List Octets
    | 0, _ => []
    | _, [] => []
    | fuel + 1, line =>
      let blanks := line.takeWhile isBlank
      let word := (line.drop blanks.length).takeWhile (!isBlank ·)
      (blanks ++ word) :: go fuel (line.drop (blanks.length + word.length))

/-- The part of a line that a key names. -/
def keyPart (separator : Option Char) (key : SortKey) (line : Octets) : Octets :=
  let fields := (sortFields separator line).drop (key.first - 1)
  let fields := key.last.elim fields fun last => fields.take (last + 1 - key.first)
  joinOctets separator.toList fields

/-- The number at the start of a text, in thousandths. -/
def sortNumber (text : Octets) : Int :=
  let text := text.dropWhile isBlank
  let (isNegative, text) := match text with
    | '-' :: rest => (true, rest)
    | text => (false, text)
  let whole := text.takeWhile Char.isDigit
  let part := match text.drop whole.length with
    | '.' :: rest => rest.takeWhile Char.isDigit
    | _ => []
  let digits := whole ++ (part ++ List.replicate 9 '0').take 9
  let value : Int := ofDigits 10 (takeDigits 10 digits)
  if isNegative then -value else value

/-- How two texts compare, as some letters ask. -/
def compareAs (letters : Octets) (left right : Octets) : Ordering :=
  let plain (text : Octets) : Octets :=
    let text := if letters.contains 'b' then text.dropWhile isBlank else text
    if letters.contains 'f' then text.map Char.toUpper else text
  let order := if letters.contains 'n' then compare (sortNumber left) (sortNumber right)
    else compare (String.ofList (plain left)) (String.ofList (plain right))
  if letters.contains 'r' then order.swap else order

/-- Sort lines. -/
def sortLines (args : List Octets) : Run Nat :=
  withOptions "sort" "rnufbsdighVRc" "kto" 2 args fun options => do
    let keys := (options.values.reverse.filter (·.1 = 'k')).filterMap fun (_, key) => sortKey? key
    let separator := (options.value? 't').bind List.head?
    let global := options.switches.filter ['r', 'n', 'f', 'b'].contains
    let byKey (key : SortKey) (left right : Octets) : Ordering :=
      compareAs (if key.letters.isEmpty then global else key.letters)
        (keyPart separator key left) (keyPart separator key right)
    let byKeys (left right : Octets) : Ordering :=
      if keys.isEmpty then compareAs global left right
      else keys.foldl (fun order key => order.then (byKey key left right)) .eq
    let isLoose := options.has 'u' || options.has 's'
    let whole (left right : Octets) : Ordering :=
      if isLoose then byKeys left right
      else (byKeys left right).then
        (compareAs (options.switches.filter (· = 'r')) left right)
    let complaint (path : Octets) (error : FileError) : Octets :=
      (if error = .isDirectory then "read failed: " else "cannot read: ").toList ++ path
    let (contents, isComplete) ← readOperands "sort" complaint options.operands
    if !isComplete then return 2
    let lines := contents.flatMap fun (_, content) => octetLines content
    if options.has 'c' then
      let isSorted := (lines.zip lines.tail).all fun (a, b) => (whole a b).isLE
      return if isSorted then 0 else 1
    let sorted := lines.mergeSort fun a b => (whole a b).isLE
    let rec distinct : List Octets → List Octets
      | a :: b :: rest =>
        if byKeys a b = .eq then distinct (a :: rest) else a :: distinct (b :: rest)
      | lines => lines
    termination_by lines => lines.length
    let octets := fromLines (if options.has 'u' then distinct sorted else sorted)
    match options.value? 'o' with
    | none => do
      say octets
      return 0
    | some path => do
      let _ ← changeFiles (·.writeBytes (textOf path) (bytesOfOctets octets))
      return 0

/-- Lines with the number of times that each stands there in succession. -/
def countRepeats (isSame : Octets → Octets → Bool) (lines : List Octets) : List (Octets × Nat) :=
  lines.foldr (fun line counted => match counted with
    | (next, count) :: rest =>
      if isSame line next then (line, count + 1) :: rest else (line, 1) :: counted
    | [] => [(line, 1)]) []

/-- Write lines that are repeated in succession once. -/
def writeDistinct (args : List Octets) : Run Nat :=
  withOptions "uniq" "cdui" "fsw" 1 args fun options => do
    let isSame (left right : Octets) : Bool :=
      if options.has 'i' then left.map Char.toLower = right.map Char.toLower else left = right
    withContent "uniq" (options.operands.take 1) fun content => do
      let counted := (countRepeats isSame (octetLines content)).filter fun (_, count) =>
        (!options.has 'd' || 1 < count) && (!options.has 'u' || count = 1)
      say (fromLines (counted.map fun (line, count) =>
        if options.has 'c' then inColumn 7 count ++ ' ' :: line else line))

/-- The ranges of places that a list names, the last place of which may be open. -/
def placesOf? (text : Octets) : Option (List (Nat × Option Nat)) :=
  (splitAt ',' text).mapM fun part =>
    match splitAt '-' part with
    | [place] => (natOf? place).map fun place => (place, some place)
    | [first, last] =>
      if first.isEmpty && last.isEmpty then none
      else do
        let first ← if first.isEmpty then some 1 else natOf? first
        if last.isEmpty then return (first, none)
        else return (first, some (← natOf? last))
    | _ => none

/-- The elements at some places. -/
def atPlaces {α : Type} (places : List (Nat × Option Nat)) (elements : List α) : List α :=
  (elements.zipIdx 1).filterMap fun (element, place) =>
    if places.any fun (first, last) => first ≤ place && last.all (place ≤ ·) then some element
    else none

/-- Write parts of lines. -/
def cutLines (args : List Octets) : Run Nat :=
  withOptions "cut" "sn" "dfcb" 1 args fun options => do
    let given := (options.value? 'f') <|> (options.value? 'c') <|> (options.value? 'b')
    match given, given.bind placesOf? with
    | none, _ => do
      complainAs "cut" "you must specify a list of bytes, characters, or fields".toList
      warn "Try 'cut --help' for more information.\n".toList
      return 1
    | some _, none => do
      complainAs "cut" "invalid field range".toList
      warn "Try 'cut --help' for more information.\n".toList
      return 1
    | some _, some places =>
      withContent "cut" options.operands fun content => do
        let separator := ((options.value? 'd').bind List.head?).getD '\t'
        say (fromLines ((octetLines content).filterMap fun line =>
          if (options.value? 'f').isNone then some (atPlaces places line)
          else if line.contains separator then
            some (joinOctets [separator] (atPlaces places (splitAt separator line)))
          else if options.has 's' then none
          else some line))

/-- The bytes that a set names. -/
def setOctets : Nat → Octets → Octets
  | 0, _ => []
  | _, [] => []
  | fuel + 1, c :: rest =>
    let classEnd? := match c, rest with
      | '[', ':' :: after =>
        let name := after.takeWhile Char.isAlpha
        match after.drop name.length with
        | ':' :: ']' :: after => some (String.ofList name, after)
        | _ => none
      | _, _ => none
    match classEnd? with
    | some (name, after) =>
      (classRanges name).flatMap (fun (least, greatest) => between least greatest)
        ++ setOctets fuel after
    | none =>
      let (first, after) := one (c :: rest)
      match after with
      | '-' :: d :: more =>
        let (last, more) := one (d :: more)
        between first last ++ setOctets fuel more
      | after => first :: setOctets fuel after
where
  one (text : Octets) : Char × Octets :=
    match text with
    | '\\' :: rest => (readEscape? .format rest).getD ('\\', rest)
    | c :: rest => (c, rest)
    | [] => ('\x00', [])
  between (least greatest : Char) : Octets :=
    (List.range (greatest.toNat + 1 - least.toNat)).map fun i => Char.ofNat (least.toNat + i)

/-- Put bytes in place of others, or leave them out. -/
def mapOctets (args : List Octets) : Run Nat :=
  withOptions "tr" "dscCt" "" 1 args fun options => do
    let sets := options.operands.map fun set => setOctets (set.length + 1) set
    let first := sets.headD []
    let second := sets.getD 1 []
    let isMember (c : Char) : Bool :=
      first.contains c != (options.has 'c' || options.has 'C')
    let deletes := options.has 'd'
    let squeezes := options.has 's'
    let help := "Try 'tr --help' for more information.\n".toList
    if sets.length < (if deletes != squeezes then 1 else 2) then
      match options.operands with
      | [] => discard (missingOperand "tr")
      | set :: _ => do
        complainAs "tr" ("missing operand after ".toList ++ quoted set)
        let activity := if deletes then "both deleting and squeezing repeats" else "translating"
        warn ("Two strings must be given when ".toList ++ activity.toList ++ ".\n".toList ++ help)
      return 1
    let allowed := if deletes && !squeezes then 1 else 2
    if let some extra := options.operands[allowed]? then
      complainAs "tr" ("extra operand ".toList ++ quoted extra)
      if allowed = 1 && sets.length = 2 then
        warn "Only one string may be given when deleting without squeezing repeats.\n".toList
      warn help
      return 1
    let change (c : Char) : Char :=
      if !isMember c then c
      else if options.has 'c' || options.has 'C' then second.getLastD c
      else second.getD ((first.idxOf? c).getD 0) (second.getLastD c)
    let content ← readAll 0
    let content :=
      if deletes then content.filter (!isMember ·)
      else if second.isEmpty then content
      else content.map change
    let isSqueezed (c : Char) : Bool :=
      squeezes && if second.isEmpty then isMember c else second.contains c
    let squeezed := content.foldl (fun done c =>
      if isSqueezed c && done.head? = some c then done else c :: done) ([] : Octets)
    say squeezed.reverse
    return 0

/-- Write the lines of operands side by side. -/
def pasteLines (args : List Octets) : Run Nat :=
  withOptions "paste" "s" "d" 1 args fun options => do
    let separator := ((options.value? 'd').bind List.head?).getD '\t'
    let (contents, isComplete) ← readOperands "paste" (fun path _ => path) options.operands
    let hyphens := (options.operands.filter (· = ['-'])).length
    let columns := contents.zipIdx.map fun ((path, _), i) =>
      -- Operands that stand for the standard input share its lines.
      if path = ['-'] && 1 < hyphens then
        let input := octetLines ((contents.lookup ['-']).getD [])
        let before := (contents.take i).countP fun (path, _) => path = ['-']
        (input.zipIdx.filter fun (_, j) => j % hyphens = before).map Prod.fst
      else octetLines ((contents[i]?.map Prod.snd).getD [])
    if options.has 's' then say (fromLines (columns.map (joinOctets [separator])))
    else
      let height := (columns.map List.length).foldl max 0
      say (fromLines ((List.range height).map fun i =>
        joinOctets [separator] (columns.map (·.getD i []))))
    return if isComplete then 0 else 1

/-- Number the lines that are not empty. -/
def numberLines (args : List Octets) : Run Nat :=
  withOptions "nl" "" "b" 1 args fun options =>
    withContent "nl" options.operands fun content =>
      let isAll := options.value? 'b' = some ['a']
      say (fromLines (numbered (octetLines content) (fun line => isAll || !line.isEmpty)
        (fun _ => List.replicate 7 ' ') 1))

/-- Write the standard input to files as well. -/
def branch (args : List Octets) : Run Nat :=
  withOptions "tee" "aip" "" 1 args fun options => do
    let content ← readAll 0
    say content
    let mut status := 0
    for path in options.operands do
      let device := deviceDescriptor? path
      device.forM fun descriptor => discard (write descriptor content)
      let result ← changeFiles fun files =>
        if device.isSome then .ok files else
        let old := if options.has 'a' then (files.readBytes (textOf path)).toOption.getD [] else []
        files.writeBytes (textOf path) (old ++ bytesOfOctets content)
      if let .error error := result then
        complainAs "tee" (path ++ ": ".toList ++ error.message.toList)
        status := 1
    return status

/-- Write a text again and again. Nobody reads more than so much of it. -/
def repeatText (args : List Octets) : Run Nat := do
  let line := if args.isEmpty then ['y'] else joinOctets [' '] args
  say (fromLines (List.replicate 4096 line))
  return 0

/-- Compare two files. -/
def compareFiles (args : List Octets) : Run Nat :=
  withOptions "cmp" "sl" "" 2 args fun options => do
    let (contents, _) ← readOperands "cmp" (fun path _ => path) options.operands
    match contents.map Prod.snd with
    | [left, right] =>
      if left = right then return 0
      let same := ((left.zip right).takeWhile fun (a, b) => a = b).map Prod.fst
      if !options.has 's' then
        match options.operands with
        | [first, second] =>
          if same.length = left.length || same.length = right.length then
            complainAs "cmp" ("EOF on ".toList
              ++ (if left.length < right.length then first else second))
          else
            say (first ++ [' '] ++ second ++ " differ: char ".toList ++ digitsOf (same.length + 1)
              ++ ", line ".toList ++ digitsOf ((same.filter (· = '\n')).length + 1) ++ ['\n'])
        | _ => pure ()
      return 1
    | _ => return 2

/-- Utilities for texts, with their names. -/
def textUtilities : List (String × Utility) := [
  ("cat", concatenate),
  ("tac", concatenateBackwards),
  ("rev", reverseLines),
  ("head", writeParts "head" '-' firstPart),
  ("tail", writeParts "tail" '+' lastPart),
  ("wc", countWords),
  ("sort", sortLines),
  ("uniq", writeDistinct),
  ("cut", cutLines),
  ("tr", mapOctets),
  ("paste", pasteLines),
  ("nl", numberLines),
  ("tee", branch),
  ("yes", repeatText),
  ("cmp", compareFiles)]

end TerraStack.Shell
