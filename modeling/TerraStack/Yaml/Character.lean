namespace TerraStack.Yaml

/-- Whether a character may stand in a document. Apart from the tab and the line ends, control
characters may not. -/
def isAllowed (c : Char) : Bool :=
  let n := c.toNat
  n = 0x9 || n = 0xA || n = 0xD || (0x20 ≤ n && n ≤ 0x7E) || n = 0x85 ||
    (0xA0 ≤ n && n ≤ 0xD7FF) || (0xE000 ≤ n && n ≤ 0xFFFD) || (0x10000 ≤ n && n ≤ 0x10FFFF)

def byteOrderMark : Char := '\ufeff'

/-- Write every line end that counts as a line feed as one: a carriage return with or without a line
feed after it, and the next-line character. The Unicode separators stay as they are. -/
def normalizeBreaks : List Char → List Char
  | [] => []
  | '\r' :: '\n' :: rest => '\n' :: normalizeBreaks rest
  | c :: rest => (if c = '\r' ∨ c = '\u0085' then '\n' else c) :: normalizeBreaks rest

/-- Whether a character of a normalised text ends a line. -/
def isBreak (c : Char) : Bool :=
  c = '\n' || c = '\u2028' || c = '\u2029'

/-- Whether a character separates tokens within a line. -/
def isSpace (c : Char) : Bool :=
  c = ' ' || c = '\t'

/-- Whether a text is at its end, at a line end or at a space. -/
def atGap : List Char → Bool
  | [] => true
  | c :: _ => isSpace c || isBreak c

/-- Whether a text is at its end or at a line end. -/
def atLineEnd : List Char → Bool
  | [] => true
  | c :: _ => isBreak c

/-- Whether a character may stand in the name of an anchor, a handle or a directive. -/
def isWord (c : Char) : Bool :=
  c.isAlphanum || c = '_' || c = '-'

/-- Whether a character separates the items of a flow collection or encloses them. -/
def isFlowIndicator (c : Char) : Bool :=
  c = ',' || c = '[' || c = ']' || c = '\x7b' || c = '\x7d'

/-- The value of a hexadecimal digit. -/
def hexValue? (c : Char) : Option Nat :=
  if c.isDigit then some (c.toNat - '0'.toNat)
  else if 'a' ≤ c ∧ c ≤ 'f' then some (c.toNat - 'a'.toNat + 10)
  else if 'A' ≤ c ∧ c ≤ 'F' then some (c.toNat - 'A'.toNat + 10)
  else none

/-- Whether a text at the start of a line marks a document with three times the same character. -/
def isDocumentMarker (mark : Char) : List Char → Bool
  | a :: b :: c :: rest => a = mark && b = mark && c = mark && atGap rest
  | _ => false

/-- Whether a text at the start of a line marks the start or the end of a document. -/
def isAnyMarker (cs : List Char) : Bool :=
  isDocumentMarker '-' cs || isDocumentMarker '.' cs

/-- A place in a text: the bytes in front of it, its line, and the characters in front of it there. -/
structure Position where
  index : Nat
  line : Nat
  column : Nat
  deriving Repr, DecidableEq, Inhabited

/-- The place after a character. -/
def Position.after (position : Position) (c : Char) : Position :=
  let index := position.index + c.utf8Size
  if isBreak c then ⟨index, position.line + 1, 0⟩
  else ⟨index, position.line, position.column + 1⟩

/-- What is left of a text, and where it starts. -/
structure Cursor where
  rest : List Char
  position : Position
  deriving Inhabited

namespace Cursor

def ofText (text : List Char) : Cursor :=
  ⟨text, ⟨0, 0, 0⟩⟩

/-- Skip one character. -/
def next (cursor : Cursor) : Cursor :=
  match cursor.rest with
  | [] => cursor
  | c :: rest => ⟨rest, cursor.position.after c⟩

/-- Skip some characters. -/
def skip : Nat → Cursor → Cursor
  | 0, cursor => cursor
  | count + 1, cursor => skip count cursor.next

/-- Skip the characters that `accept` accepts. -/
def skipWhile (accept : Char → Bool) (cursor : Cursor) : Cursor :=
  cursor.skip (cursor.rest.takeWhile accept).length

end Cursor
end TerraStack.Yaml
