import TerraStack.Yaml.Character
import TerraStack.Yaml.Error
import TerraStack.Yaml.Tag
import TerraStack.Yaml.Token

namespace TerraStack.Yaml

/-- Whether a character may follow the name of an anchor or an alias. -/
def endsName : List Char → Bool
  | [] => true
  | c :: rest => atGap (c :: rest) || ['?', ':', ',', ']', '\x7d', '%', '@', '`'].contains c

/-- Read the name of an anchor or an alias after its indicator. -/
def readName (cursor : Cursor) : Except Error (String × Cursor) :=
  let start := cursor.next
  let name := start.rest.takeWhile isWord
  let after := start.skip name.length
  if name.isEmpty || !endsName after.rest then .error .badProperty
  else .ok (.ofList name, after)

/-- Whether a character may stand in a tag. Some flow indicators may in a tag between brackets. -/
def isTagCharacter (inBrackets : Bool) (c : Char) : Bool :=
  isWord c ||
    [';', '/', '?', ':', '@', '&', '=', '+', '$', '.', '%', '!', '~', '*', '\'', '(', ')'].contains c ||
    (inBrackets && [',', '[', ']'].contains c)

/-- How many bytes the character has that a byte starts, and zero if a byte starts none. -/
def groupSize (lead : UInt8) : Nat :=
  if lead < 0x80 then 1
  else if lead &&& 0xE0 = 0xC0 then 2
  else if lead &&& 0xF0 = 0xE0 then 3
  else if lead &&& 0xF8 = 0xF0 then 4
  else 0

/-- The bytes of a tag, in which `%` and two hexadecimal digits stand for a byte. Bytes written so
come in groups of the shape that characters have, though a group need not spell one; `missing` bytes
are to come in the group at hand. -/
def tagBytes? (missing : Nat) : List Char → Option (List UInt8)
  | [] => if missing = 0 then some [] else none
  | '%' :: high :: low :: rest => do
    let byte := UInt8.ofNat (16 * (← hexValue? high) + (← hexValue? low))
    let size :=
      if missing = 0 then groupSize byte else if byte &&& 0xC0 = 0x80 then missing else 0
    if size = 0 then none
    else (byte :: ·) <$> tagBytes? (size - 1) rest
  | c :: rest =>
    if c = '%' || missing ≠ 0 then none else (.ofNat c.toNat :: ·) <$> tagBytes? 0 rest

/-- Read the characters of a tag: their number and the bytes they spell up to the first that is
zero, which ends a tag. There may be none. -/
def readTagText (inBrackets : Bool) (cursor : Cursor) :
    Except Error (Nat × List UInt8 × Cursor) :=
  let text := cursor.rest.takeWhile (isTagCharacter inBrackets)
  match tagBytes? 0 text with
  | some bytes => .ok (text.length, bytes.takeWhile (· ≠ 0), cursor.skip text.length)
  | none => .error .badProperty

/-- Read the handle of a tag: an exclamation mark, a word and maybe a second exclamation mark. -/
def readHandle (cursor : Cursor) : Except Error (List Char × Cursor) :=
  match cursor.rest with
  | '!' :: rest =>
    let word := rest.takeWhile isWord
    let after := cursor.next.skip word.length
    match after.rest with
    | '!' :: _ => .ok ('!' :: word ++ ['!'], after.next)
    | _ => .ok ('!' :: word, after)
  | _ => .error .badProperty

/-- Whether a handle has a second exclamation mark, and so is no part of the tag's name. -/
def isNamedHandle (handle : List Char) : Bool :=
  1 < handle.length && handle.getLast? = some '!'

/-- Whether a tag may end here. -/
def endsTag (inFlow : Bool) (cursor : Cursor) : Bool :=
  atGap cursor.rest || (inFlow && cursor.rest.head? = some ',')

/-- Read a tag: its handle, which is empty for a tag between brackets, and the rest of its name. The
tag without a name is `!` under the empty handle. -/
def readTag (inFlow : Bool) (cursor : Cursor) : Except Error (Token × Cursor) := do
  let (handle, suffix, cursor) ←
    if cursor.next.rest.head? = some '<' then do
      let (length, bytes, cursor) ← readTagText true cursor.next.next
      if length = 0 || cursor.rest.head? ≠ some '>' then .error .badProperty
      .ok ("", bytes, cursor.next)
    else do
      let (handle, cursor) ← readHandle cursor
      let (length, bytes, cursor) ← readTagText false cursor
      if isNamedHandle handle then
        if length = 0 then .error .badProperty
        .ok (.ofList handle, bytes, cursor)
      else
        let name := Text.encode (.ofList (handle.drop 1)) ++ bytes
        if name.isEmpty then .ok ("", Tag.mark, cursor) else .ok ("!", name, cursor)
  if endsTag inFlow cursor then .ok (.tag handle suffix, cursor) else .error .badProperty

/-- Read the digits of a version number. -/
def readVersionNumber (cursor : Cursor) : Except Error (Nat × Cursor) :=
  let digits := cursor.rest.takeWhile Char.isDigit
  if digits.isEmpty || 9 < digits.length then .error .badDirective
  else .ok (digits.foldl (fun n c => 10 * n + (c.toNat - '0'.toNat)) 0, cursor.skip digits.length)

/-- Read the version of a `%YAML` directive. -/
def readVersion (cursor : Cursor) : Except Error (Token × Cursor) := do
  let (major, cursor) ← readVersionNumber (cursor.skipWhile isSpace)
  if cursor.rest.head? ≠ some '.' then .error .badDirective
  let (minor, cursor) ← readVersionNumber cursor.next
  .ok (.versionDirective major minor, cursor)

/-- Read the handle of a `%TAG` directive and what it stands for. -/
def readTagDirective (cursor : Cursor) : Except Error (Token × Cursor) := do
  let (handle, cursor) ← readHandle (cursor.skipWhile isSpace)
  if !(isNamedHandle handle || handle = ['!']) then .error .badDirective
  if !cursor.rest.head?.any isSpace then .error .badDirective
  let (length, bytes, cursor) ← readTagText true (cursor.skipWhile isSpace)
  if length = 0 || !atGap cursor.rest then .error .badDirective
  .ok (.tagDirective (.ofList handle) bytes, cursor)

/-- Read a directive to the end of its line. -/
def readDirective (cursor : Cursor) : Except Error (Token × Cursor) := do
  let start := cursor.next
  let name := start.rest.takeWhile isWord
  let after := start.skip name.length
  if name.isEmpty || !atGap after.rest then .error .badDirective
  let (token, cursor) ←
    if name = "YAML".toList then readVersion after
    else if name = "TAG".toList then readTagDirective after
    else .error .badDirective
  let cursor := cursor.skipWhile isSpace
  let cursor := if cursor.rest.head? = some '#' then cursor.skipWhile (!isBreak ·) else cursor
  if atLineEnd cursor.rest then .ok (token, cursor.next) else .error .badDirective

end TerraStack.Yaml
