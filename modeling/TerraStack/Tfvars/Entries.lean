import TerraStack.OrderedMap
import TerraStack.Text.Affix
import TerraStack.Text.Blank
import TerraStack.Text.Lines
import TerraStack.Tfvars.Bracket

namespace TerraStack.Tfvars

/-- An entry of which some lines have been read. Its value is kept as it is written. -/
structure OpenEntry where
  name : List Char
  value : List Char
  depth : Int
  /-- The marker that ends the heredoc at hand. -/
  marker : Option (List Char)

/-- Whether the value ends with the line read last. One that opens a bracket goes on until the
brackets are balanced, and a heredoc goes on up to the line with its marker. -/
def OpenEntry.isComplete (entry : OpenEntry) : Bool :=
  entry.marker.isNone && entry.depth ≤ 0

/-- The entry with one more line. -/
def OpenEntry.addLine (entry : OpenEntry) (line : List Char) : OpenEntry :=
  let value := entry.value ++ '\n' :: line
  match entry.marker with
  | some marker =>
    if Text.trimChars line = marker then { entry with value, marker := none }
    else { entry with value }
  | none => { entry with value, depth := entry.depth + bracketDepth line }

/-- The marker of a heredoc that a value opens. -/
def heredocMarker? (value : List Char) : Option (List Char) :=
  (Text.afterStart? ['<', '<'] value).bind fun rest =>
    let marker := Text.trimChars ((Text.afterStart? ['-'] rest).getD rest)
    if marker.isEmpty then none else some marker

/-- Whether a line, without the white space around it, says nothing. -/
def isSilent (line : List Char) : Bool :=
  line.isEmpty || (Text.afterStart? ['#'] line).isSome || (Text.afterStart? ['/', '/'] line).isSome

/-- The parts of a line before and after its first equal sign. -/
def splitEqual? (line : List Char) : Option (List Char × List Char) :=
  match line.dropWhile (· ≠ '=') with
  | [] => none
  | _ :: rest => some (line.takeWhile (· ≠ '='), rest)

/-- The entry that a line begins, if it begins one. -/
def beginEntry? (line : List Char) : Option OpenEntry :=
  let line := Text.trimChars line
  if isSilent line then none
  else (splitEqual? line).map fun (name, value) =>
    let value := Text.trimChars value
    ⟨Text.trimChars name, value, bracketDepth value, heredocMarker? value⟩

/-- The entries read so far, and the one that has not ended. -/
structure Reading where
  entries : OrderedMap String String
  open? : Option OpenEntry

/-- Keep an entry, among the others if it is complete. -/
def Reading.keep (reading : Reading) (entry : OpenEntry) : Reading :=
  if entry.isComplete then
    ⟨reading.entries.insert (.ofList entry.name) (.ofList entry.value), none⟩
  else ⟨reading.entries, some entry⟩

/-- Read one more line. -/
def Reading.addLine (reading : Reading) (line : List Char) : Reading :=
  match reading.open? with
  | some entry => reading.keep (entry.addLine line)
  | none =>
    match beginEntry? line with
    | some entry => reading.keep entry
    | none => reading

/-- The entries of a text. An entry that does not end is dropped, as are comments and lines without
an equal sign. Of two entries with the same name the later one counts, in the place of the earlier. -/
def parse (text : String) : OrderedMap String String :=
  ((Text.lineChars text.toList).foldl Reading.addLine ⟨∅, none⟩).entries

end TerraStack.Tfvars
