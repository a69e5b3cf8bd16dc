import TerraStack.FileSystem
import TerraStack.Shell.Octets

namespace TerraStack.Shell

/-- A byte of a word, and whether it is quoted. -/
structure Mark where
  octet : Char
  isQuoted : Bool
  deriving Repr, DecidableEq

/-- A byte without quotes that is this one. -/
def Mark.is (mark : Mark) (c : Char) : Bool :=
  !mark.isQuoted && mark.octet = c

/-- What matches a part of a text. A star matches any bytes, a question mark any byte, and brackets
one of the bytes in them, unless they are quoted. -/
inductive Matcher where
  | octet (c : Char)
  | one
  | many
  /-- A byte in one of the ranges, or in none. -/
  | among (isNegated : Bool) (ranges : List (Char × Char))
  deriving Repr, DecidableEq

/-- The bytes of a named class. -/
def classRanges (name : String) : List (Char × Char) :=
  let digits := [('0', '9')]
  let letters := [('A', 'Z'), ('a', 'z')]
  match name with
  | "alpha" => letters
  | "digit" => digits
  | "alnum" => digits ++ letters
  | "lower" => [('a', 'z')]
  | "upper" => [('A', 'Z')]
  | "space" => [('\t', '\r'), (' ', ' ')]
  | "blank" => [('\t', '\t'), (' ', ' ')]
  | "punct" => [('!', '/'), (':', '@'), ('[', '`'), ('\x7b', '~')]
  | "xdigit" => digits ++ [('A', 'F'), ('a', 'f')]
  | "print" => [(' ', '~')]
  | "graph" => [('!', '~')]
  | "cntrl" => [('\x00', '\x1f'), ('\x7f', '\x7f')]
  | _ => []

/-- The name of a class that stands between `[:` and `:]`, and what follows. -/
def readClass? (marks : List Mark) : Option (String × List Mark) :=
  match marks with
  | first :: second :: rest =>
    if first.is '[' && second.is ':' then
      let name := (rest.takeWhile fun mark => mark.octet.isAlpha).map Mark.octet
      match rest.drop name.length with
      | colon :: bracket :: after =>
        if colon.is ':' && bracket.is ']' then some (.ofList name, after) else none
      | _ => none
    else none
  | _ => none

/-- Read the ranges in brackets and what follows them. A closing bracket that stands first is one of
the bytes. -/
def readRanges? (isFirst : Bool) : Nat → List Mark → Option (List (Char × Char) × List Mark)
  | 0, _ => none
  | _, [] => none
  | fuel + 1, mark :: rest =>
    if mark.is ']' && !isFirst then some ([], rest)
    else
      let continued (ranges : List (Char × Char)) (rest : List Mark) :=
        (readRanges? false fuel rest).map fun (others, after) => (ranges ++ others, after)
      match readClass? (mark :: rest), rest with
      | some (name, after), _ => continued (classRanges name) after
      | none, dash :: last :: after =>
        if dash.is '-' && !last.is ']' then continued [(mark.octet, last.octet)] after
        else continued [(mark.octet, mark.octet)] rest
      | none, rest => continued [(mark.octet, mark.octet)] rest

/-- Read what stands in brackets. -/
def readAmong? (marks : List Mark) : Option (Matcher × List Mark) :=
  let isNegated := marks.head?.any (·.is '!')
  let marks := if isNegated then marks.drop 1 else marks
  (readRanges? true (marks.length + 1) marks).map fun (ranges, after) =>
    (.among isNegated ranges, after)

/-- The matchers that the bytes of a word are. A bracket that is not closed stands for itself. -/
def matchersFrom : Nat → List Mark → List Matcher
  | 0, _ => []
  | _, [] => []
  | fuel + 1, mark :: rest =>
    if mark.is '*' then .many :: matchersFrom fuel rest
    else if mark.is '?' then .one :: matchersFrom fuel rest
    else if mark.is '[' then
      match readAmong? rest with
      | some (matcher, after) => matcher :: matchersFrom fuel after
      | none => .octet '[' :: matchersFrom fuel rest
    else .octet mark.octet :: matchersFrom fuel rest

/-- The matchers that the bytes of a word are. -/
def matchersOf (marks : List Mark) : List Matcher :=
  matchersFrom (marks.length + 1) marks

/-- Whether a matcher matches a byte. -/
def Matcher.accepts (c : Char) : Matcher → Bool
  | .octet d => c = d
  | .one => true
  | .many => true
  | .among isNegated ranges =>
    (ranges.any fun (least, greatest) => least ≤ c && c ≤ greatest) != isNegated

/-- The ends of a text, from the whole text to the empty one. -/
def endings : Octets → List Octets
  | [] => [[]]
  | c :: rest => (c :: rest) :: endings rest

/-- Whether matchers match a text from its start to its end. -/
def matchesAll : List Matcher → Octets → Bool
  | [], text => text.isEmpty
  | .many :: matchers, text => (endings text).any (matchesAll matchers)
  | matcher :: matchers, text =>
    match text with
    | c :: rest => matcher.accepts c && matchesAll matchers rest
    | [] => false

/-- Whether a text fits a pattern. -/
def fits (pattern : List Mark) (text : Octets) : Bool :=
  matchesAll (matchersOf pattern) text

/-- The text without what matches a pattern at its start, or at its end. -/
def withoutMatch (atEnd longest : Bool) (pattern : List Mark) (text : Octets) : Octets :=
  let matchers := matchersOf pattern
  let lengths := List.range (text.length + 1)
  let lengths := if longest then lengths.reverse else lengths
  if atEnd then
    let kept? := lengths.find? fun n => matchesAll matchers (text.drop (text.length - n))
    kept?.elim text fun n => text.take (text.length - n)
  else
    let kept? := lengths.find? fun n => matchesAll matchers (text.take n)
    kept?.elim text fun n => text.drop n

/-- Whether a word is a pattern. -/
def isPattern (marks : List Mark) : Bool :=
  (matchersOf marks).any fun matcher => match matcher with
    | .octet _ => false
    | _ => true

/-- The names in a directory that fit a pattern. -/
def namesFitting (files : FileSystem) (directory : String) (pattern : List Mark) :
    List Octets :=
  match files.locate (if directory = "" then "." else directory) with
  | .error _ => []
  | .ok location =>
    if !files.isDirectory location then []
    else
      let names := (files.children location).map fun (name, _) => octetsOf name
      let dots := if pattern.head?.any (·.octet = '.') then [['.'], ['.', '.']] else []
      (dots ++ names).filter fun name =>
        fits pattern name && (name.head? ≠ some '.' || pattern.head?.any (·.octet = '.'))

/-- The parts of a pattern between its slashes. -/
def patternParts (marks : List Mark) : List (List Mark) :=
  marks.foldr (fun mark parts =>
    if mark.octet = '/' then [] :: parts
    else match parts with
      | part :: parts => (mark :: part) :: parts
      | [] => [[mark]]) [[]]

/-- The paths that start with a path and go on as the parts of a pattern say. A hidden name fits
only a dot of its own. -/
def pathsFitting (files : FileSystem) (done : Octets) : List (List Mark) → List Octets
  | [] => [done]
  | [part] =>
    if isPattern part then (namesFitting files (textOf done) part).map (done ++ ·)
    else
      let path := done ++ part.map Mark.octet
      if files.contains (textOf path) then [path] else []
  | part :: next :: parts =>
    let paths :=
      if isPattern part then (namesFitting files (textOf done) part).map (done ++ ·)
      else [done ++ part.map Mark.octet]
    paths.flatMap fun path => pathsFitting files (path ++ ['/']) (next :: parts)

/-- The paths that a word stands for: those that fit it if it is a pattern that anything fits, and
else the word itself. -/
def expandPaths (files : FileSystem) (marks : List Mark) : List Octets :=
  let plain := [marks.map Mark.octet]
  if isPattern marks then
    let paths := pathsFitting files [] (patternParts marks)
    if paths.isEmpty then plain else paths
  else plain

end TerraStack.Shell
