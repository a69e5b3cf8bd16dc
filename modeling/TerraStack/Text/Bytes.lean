namespace TerraStack.Text

/-- The byte that ends a line. -/
def lineFeed : UInt8 := 10

/-- The text that bytes spell, if they spell one. -/
def decode? (bytes : List UInt8) : Option String :=
  String.fromUTF8? ⟨bytes.toArray⟩

/-- The bytes of a text. -/
def encode (text : String) : List UInt8 :=
  text.toUTF8.toList

/-- The ranges in which the bytes lie that follow the first byte of a character of several bytes. -/
def tailRanges (lead : UInt8) : List (UInt8 × UInt8) :=
  let any : UInt8 × UInt8 := (0x80, 0xBF)
  if 0xC2 ≤ lead ∧ lead ≤ 0xDF then [any]
  else if lead = 0xE0 then [(0xA0, 0xBF), any]
  else if lead = 0xED then [(0x80, 0x9F), any]
  else if 0xE1 ≤ lead ∧ lead ≤ 0xEF then [any, any]
  else if lead = 0xF0 then [(0x90, 0xBF), any, any]
  else if lead = 0xF4 then [(0x80, 0x8F), any, any]
  else if 0xF1 ≤ lead ∧ lead ≤ 0xF3 then [any, any, any]
  else []

/-- The bytes at the start of some bytes that lie in ranges, one for each range. -/
def bytesWithin : List (UInt8 × UInt8) → List UInt8 → List UInt8
  | (least, greatest) :: ranges, byte :: rest =>
    if least ≤ byte ∧ byte ≤ greatest then byte :: bytesWithin ranges rest else []
  | _, _ => []

/-- The text of bytes in which the replacement character stands for what spells nothing, once for as
many bytes as could start a character. -/
def decodeAll (bytes : List UInt8) : String :=
  match bytes with
  | [] => ""
  | lead :: rest =>
    let tail := bytesWithin (tailRanges lead) rest
    (decode? (lead :: tail)).getD "\ufffd" ++ decodeAll (rest.drop tail.length)
termination_by bytes.length

/-- The lines of a stream, each with the line feed that ends it. The last need not have one. -/
def byteLines : List UInt8 → List (List UInt8)
  | [] => []
  | byte :: rest =>
    if byte = lineFeed then [byte] :: byteLines rest
    else match byteLines rest with
      | [] => [[byte]]
      | line :: lines => (byte :: line) :: lines

/-- The texts of lines up to the first that is none. A stream need not be text throughout, so it is
read line by line, and what comes before that line is not lost. -/
def textsBefore : List (List UInt8) → List String
  | [] => []
  | line :: rest =>
    match decode? line with
    | some text => text :: textsBefore rest
    | none => []

end TerraStack.Text
