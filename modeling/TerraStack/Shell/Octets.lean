import TerraStack.Text.Bytes

namespace TerraStack.Shell

/-- Bytes as a shell sees them, which knows no characters. A byte is written as the character with
its number, so that a script in ASCII reads as itself. -/
abbrev Octets := List Char

/-- The characters with the numbers of some bytes. -/
def octetsOfBytes (bytes : List UInt8) : Octets :=
  bytes.map fun byte => Char.ofNat byte.toNat

/-- The bytes that are the numbers of some characters. -/
def bytesOfOctets (octets : Octets) : List UInt8 :=
  octets.map fun c => .ofNat c.toNat

/-- The bytes of a text. -/
def octetsOf (text : String) : Octets :=
  octetsOfBytes (Text.encode text)

/-- The text that bytes spell, where they spell one. -/
def textOf (octets : Octets) : String :=
  Text.decodeAll (bytesOfOctets octets)

/-- The digits of a number. -/
def digitsOf (number : Int) : Octets :=
  (toString number).toList

/-- The number that digits denote, if a text is nothing else. -/
def natOf? (text : Octets) : Option Nat :=
  if text.isEmpty || !text.all Char.isDigit then none else some (ofDigits text)
where
  ofDigits (digits : Octets) : Nat :=
    digits.foldl (fun n c => 10 * n + (c.toNat - '0'.toNat)) 0

/-- Whether a byte may start a name. -/
def startsName (c : Char) : Bool :=
  c.isAlpha || c = '_'

/-- Whether a byte may stand in a name. -/
def isNameOctet (c : Char) : Bool :=
  c.isAlphanum || c = '_'

/-- Whether bytes are the name of a variable. -/
def isName (octets : Octets) : Bool :=
  octets.head?.any startsName && octets.all isNameOctet

/-- Whether a byte is white space. -/
def isBlank (c : Char) : Bool :=
  c = ' ' || ('\t' ≤ c && c ≤ '\r')

/-- The parts between the places where a byte stands, at least one. -/
def splitAt (separator : Char) (octets : Octets) : List Octets :=
  octets.foldr (fun c parts =>
    if c = separator then [] :: parts
    else match parts with
      | part :: parts => (c :: part) :: parts
      | [] => [[c]]) [[]]

/-- The lines of bytes, without the line feeds that end them. What follows the last of these is a
line unless it is empty. -/
def octetLines (octets : Octets) : List Octets :=
  let parts := splitAt '\n' octets
  if parts.getLast? = some [] then parts.dropLast else parts

/-- Lines with a line feed behind each. -/
def fromLines (lines : List Octets) : Octets :=
  lines.flatMap (· ++ ['\n'])

/-- Parts with a separator between every two. -/
def joinOctets (separator : Octets) (parts : List Octets) : Octets :=
  (parts.intersperse separator).flatten

end TerraStack.Shell
