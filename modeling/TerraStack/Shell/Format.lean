import TerraStack.Decimal.Binary64
import TerraStack.Decimal.Literal
import TerraStack.Shell.Arithmetic

namespace TerraStack.Shell

/-- Which escapes a text may have. -/
inductive EscapeStyle where
  /-- Those of a format. -/
  | format
  /-- Those of the texts that the shell writes: octal numbers may start with one more zero, and one
  escape ends all output. -/
  | shell
  /-- Those of the program `echo`, which knows hexadecimal numbers too. -/
  | utility
  deriving DecidableEq

/-- The byte that a letter stands for behind a backslash. -/
def escapedLetter? : Char → Option Char
  | 'a' => some '\x07'
  | 'b' => some '\x08'
  | 'e' => some '\x1b'
  | 'f' => some '\x0c'
  | 'n' => some '\n'
  | 'r' => some '\r'
  | 't' => some '\t'
  | 'v' => some '\x0b'
  | '\\' => some '\\'
  | _ => none

/-- The byte with a number, of which only the lowest eight bits count. -/
def octetOf (number : Nat) : Char :=
  Char.ofNat (number % 256)

/-- What the text behind a backslash stands for and what follows, or nothing where all output ends. -/
def readEscape? (style : EscapeStyle) (text : Octets) : Option (Char × Octets) :=
  let number (base width : Nat) (text : Octets) :=
    let digits := (takeDigits base text).take width
    (octetOf (ofDigits base digits), text.drop digits.length)
  let isOctal (c : Char) := '0' ≤ c && c ≤ '7'
  match style, text with
  | .shell, 'c' :: _ | .utility, 'c' :: _ => none
  | .utility, 'x' :: rest =>
    if (takeDigits 16 rest).isEmpty then some ('\\', text) else some (number 16 2 rest)
  | .utility, '0' :: rest => some (number 8 3 rest)
  | .shell, '0' :: c :: rest =>
    if c.isDigit then some (number 8 3 (c :: rest)) else some (number 8 3 ('0' :: c :: rest))
  | _, c :: rest =>
    if isOctal c then some (number 8 3 (c :: rest))
    else match escapedLetter? c with
      | some octet => some (octet, rest)
      | none => some ('\\', c :: rest)
  | _, [] => some ('\\', [])

/-- A text with its escapes carried out, and whether one of them ends all output. -/
def unescape (style : EscapeStyle) : Nat → Octets → Octets × Bool
  | 0, _ => ([], false)
  | _, [] => ([], false)
  | fuel + 1, '\\' :: rest =>
    match readEscape? style rest with
    | none => ([], true)
    | some (c, after) =>
      let (octets, ends) := unescape style fuel after
      (c :: octets, ends)
  | fuel + 1, c :: rest =>
    let (octets, ends) := unescape style fuel rest
    (c :: octets, ends)

/-- A text with its escapes carried out, and whether one of them ends all output. -/
def unescaped (style : EscapeStyle) (text : Octets) : Octets × Bool :=
  unescape style (text.length + 1) text

/-- What the `echo` of the shell writes: escapes are carried out. -/
def echoOctets (args : List Octets) : Octets :=
  let isSilent := args.head? = some ['-', 'n']
  let (octets, ends) := unescaped .shell (joinOctets [' '] (if isSilent then args.drop 1 else args))
  if isSilent || ends then octets else octets ++ ['\n']

/-- How an argument is shown. -/
structure Conversion where
  flags : Octets := []
  width : Nat := 0
  precision : Option Nat := none

namespace Conversion

def has (conversion : Conversion) (flag : Char) : Bool :=
  conversion.flags.contains flag

/-- A text with blanks up to the width. -/
def pad (conversion : Conversion) (text : Octets) : Octets :=
  let blanks := List.replicate (conversion.width - text.length) ' '
  if conversion.has '-' then text ++ blanks else blanks ++ text

/-- A number with its sign, padded with zeros where that is asked for. -/
def padNumber (conversion : Conversion) (mayFill : Bool) (sign digits : Octets) : Octets :=
  let fills := mayFill && conversion.has '0' && !conversion.has '-'
  let missing := if fills then conversion.width - sign.length - digits.length else 0
  conversion.pad (sign ++ List.replicate missing '0' ++ digits)

/-- The digits of a whole number, at least as many as the precision says. -/
def wholeDigits (conversion : Conversion) (base : Nat) (value : Nat) : Octets :=
  let digits := if value = 0 && conversion.precision = some 0 then [] else Nat.toDigits base value
  List.replicate (conversion.precision.getD 1 - digits.length) '0' ++ digits

/-- The sign of a number that has one. -/
def signOf (conversion : Conversion) (isNegative : Bool) : Octets :=
  if isNegative then ['-'] else if conversion.has '+' then ['+']
  else if conversion.has ' ' then [' '] else []

/-- An integer in decimal. -/
def signed (conversion : Conversion) (value : Int) : Octets :=
  conversion.padNumber conversion.precision.isNone (conversion.signOf (value < 0))
    (conversion.wholeDigits 10 value.natAbs)

/-- An integer without a sign. -/
def unsigned (conversion : Conversion) (kind : Char) (value : Nat) : Octets :=
  let base := if kind = 'o' then 8 else if kind = 'u' then 10 else 16
  let digits := conversion.wholeDigits base value
  let digits := if kind = 'X' then digits.map Char.toUpper else digits
  let mark : Octets :=
    if !conversion.has '#' || value = 0 then []
    else if kind = 'o' then ['0'] else if kind = 'u' then [] else ['0', kind]
  conversion.padNumber conversion.precision.isNone mark digits

/-- A float with a fixed number of places. A tie goes to the even digit. -/
def fixed (conversion : Conversion) (value : Float) : Octets :=
  let places := conversion.precision.getD 6
  match Decimal.Binary64.ofFloat value with
  | .nan => conversion.pad "nan".toList
  | .infinite isNegative => conversion.pad (conversion.signOf isNegative ++ "inf".toList)
  | .finite isNegative significand exponent =>
    let scaled := Decimal.Binary64.roundDiv (significand * Nat.pow 2 exponent.toNat * Nat.pow 10 places)
      (Nat.pow 2 (-exponent).toNat)
    let digits := Nat.toDigits 10 scaled
    let digits := List.replicate (places + 1 - digits.length) '0' ++ digits
    let point := if places = 0 then [] else '.' :: digits.drop (digits.length - places)
    conversion.padNumber true (conversion.signOf isNegative)
      (digits.take (digits.length - places) ++ point)

/-- The first digits of a number that is not zero, one before the point and some behind it, and the
power of ten by which they are multiplied. A tie goes to the even digit. -/
def leadingDigits (significand : Nat) (exponent : Int) (places : Nat) : Octets × Int :=
  let above := significand * Nat.pow 2 exponent.toNat
  let below := Nat.pow 2 (-exponent).toNat
  let size (n : Nat) : Int := (Nat.toDigits 10 n).length
  let guess := size above - size below
  let isAtLeast (power : Int) : Bool :=
    Nat.pow 10 power.toNat * below ≤ above * Nat.pow 10 (-power).toNat
  let power := if isAtLeast guess then guess else guess - 1
  let shift := (places : Int) - power
  let rounded :=
    Decimal.Binary64.roundDiv (above * Nat.pow 10 shift.toNat) (below * Nat.pow 10 (-shift).toNat)
  if rounded < Nat.pow 10 (places + 1) then (Nat.toDigits 10 rounded, power)
  else (Nat.toDigits 10 (rounded / 10), power + 1)

/-- A power of ten behind a number. -/
def powerText (isUpper : Bool) (power : Int) : Octets :=
  let digits := Nat.toDigits 10 power.natAbs
  (if isUpper then 'E' else 'e') :: (if power < 0 then '-' else '+')
    :: (List.replicate (2 - digits.length) '0' ++ digits)

/-- Digits with a point behind the first of them, and without zeros at the end if these are dropped. -/
def withPoint (dropsZeros : Bool) (whole part : Octets) : Octets :=
  let part := if dropsZeros then (part.reverse.dropWhile (· = '0')).reverse else part
  if part.isEmpty then whole else whole ++ '.' :: part

/-- A float with a power of ten, or without one where that is short enough. -/
def floating (conversion : Conversion) (kind : Char) (value : Float) : Octets :=
  match Decimal.Binary64.ofFloat value with
  | .nan => conversion.pad "nan".toList
  | .infinite isNegative => conversion.pad (conversion.signOf isNegative ++ "inf".toList)
  | .finite isNegative significand exponent =>
    let isUpper := kind.isUpper
    let precision := conversion.precision.getD 6
    let isShort := kind.toLower = 'g'
    let places := if isShort then precision - 1 else precision
    let (digits, power) :=
      if significand = 0 then (List.replicate (places + 1) '0', 0)
      else leadingDigits significand exponent places
    let text :=
      if isShort && -4 ≤ power && power ≤ (places : Int) then
        if power < 0 then
          withPoint true ['0'] (List.replicate ((-power).toNat - 1) '0' ++ digits)
        else withPoint true (digits.take (power.toNat + 1)) (digits.drop (power.toNat + 1))
      else withPoint isShort (digits.take 1) (digits.drop 1) ++ powerText isUpper power
    conversion.padNumber true (conversion.signOf isNegative) text

end Conversion

/-- The number at the start of a text, and whether nothing is left, something, or all. -/
inductive Reading (α : Type) where
  | whole (value : α)
  /-- A number beyond the greatest or the least, which stands for it. -/
  | limited (value : α)
  | part (value : α)
  | nothing

/-- The integer at the start of an argument. A quote asks for the number of the byte behind it. -/
def readArgument (isSigned : Bool) (arg : Octets) : Reading Int :=
  match arg with
  | [] => .whole 0
  | c :: rest =>
    if c = '"' || c = '\'' then .whole (rest.head?.elim 0 fun c => (c.toNat : Int))
    else
      let text := arg.dropWhile isBlank
      let (isNegative, digits) := match text with
        | '-' :: digits => (true, digits)
        | '+' :: digits => (false, digits)
        | digits => (false, digits)
      if !digits.head?.any Char.isDigit then .nothing
      else
        let (value, after) := readNatural digits
        let value : Int := if isNegative then -value else value
        let beyond : Int := if isSigned then Nat.pow 2 63 else Nat.pow 2 64
        let limited := max (-(Nat.pow 2 63 : Int)) (min value (beyond - 1))
        if !after.isEmpty then .part limited
        else if limited = value then .whole value
        else .limited limited

/-- The float that an argument denotes. -/
def readFloatArgument (arg : Octets) : Reading Float :=
  match arg with
  | [] => .whole 0
  | _ => (Decimal.readFloat? (arg.dropWhile isBlank)).elim .nothing .whole

/-- What a format has written so far. -/
structure Formatted where
  args : List Octets
  output : Octets := []
  complaints : List String := []
  /-- Whether all output is ended. -/
  hasEnded : Bool := false
  /-- Why the format is none. -/
  fault : Option String := none

namespace Formatted

def add (formatted : Formatted) (octets : Octets) : Formatted :=
  { formatted with output := formatted.output ++ octets }

/-- Take the next argument. -/
def next (formatted : Formatted) : Option Octets × Formatted :=
  (formatted.args.head?, { formatted with args := formatted.args.drop 1 })

/-- Take the next argument as a number. -/
def nextNumber {α : Type} (formatted : Formatted) (zero : α) (read : Octets → Reading α) :
    α × Formatted :=
  match formatted.next with
  | (none, formatted) => (zero, formatted)
  | (some arg, formatted) =>
    let complain (what : String) : Formatted :=
      { formatted with complaints := formatted.complaints ++ [.ofList arg ++ ": " ++ what] }
    match read arg with
    | .whole value => (value, formatted)
    | .limited value => (value, complain "Numerical result out of range")
    | .part value => (value, complain "not completely converted")
    | .nothing => (zero, complain "expected numeric value")

/-- Read a number in a format, or take it from the arguments. -/
def takeSize (formatted : Formatted) (format : Octets) : Nat × Octets × Formatted :=
  match format with
  | '*' :: rest =>
    let (value, formatted) := formatted.nextNumber 0 (readArgument true)
    (value.toNat, rest, formatted)
  | _ =>
    let digits := format.takeWhile Char.isDigit
    (ofDigits 10 (takeDigits 10 digits), format.drop digits.length, formatted)

/-- Show the next argument as a conversion asks. -/
def convert (formatted : Formatted) (conversion : Conversion) (kind : Char) : Formatted :=
  let cut (text : Octets) := conversion.pad (conversion.precision.elim text text.take)
  if kind = 'd' || kind = 'i' then
    let (value, formatted) := formatted.nextNumber 0 (readArgument true)
    formatted.add (conversion.signed value)
  else if ['o', 'u', 'x', 'X'].contains kind then
    let (value, formatted) := formatted.nextNumber 0 (readArgument false)
    formatted.add (conversion.unsigned kind (value % Nat.pow 2 64).toNat)
  else if ['f', 'F'].contains kind then
    let (value, formatted) := formatted.nextNumber 0 readFloatArgument
    formatted.add (conversion.fixed value)
  else if ['e', 'E', 'g', 'G'].contains kind then
    let (value, formatted) := formatted.nextNumber 0 readFloatArgument
    formatted.add (conversion.floating kind value)
  else
    let (arg, formatted) := formatted.next
    let arg := arg.getD []
    if kind = 'c' then formatted.add (conversion.pad [arg.headD '\x00'])
    else if kind = 'b' then
      let (text, hasEnded) := unescaped .shell arg
      { formatted.add (cut text) with hasEnded }
    else formatted.add (cut arg)

/-- Go through a format once. -/
def pass : Nat → Octets → Formatted → Formatted
  | 0, _, formatted => formatted
  | _, [], formatted => formatted
  | fuel + 1, c :: rest, formatted =>
    if c = '\\' then
      match readEscape? .format rest with
      | some (octet, after) => pass fuel after (formatted.add [octet])
      | none => formatted
    else if c ≠ '%' then pass fuel rest (formatted.add [c])
    else if rest.head? = some '%' then pass fuel (rest.drop 1) (formatted.add ['%'])
    else
      let flags := rest.takeWhile ['#', '-', '+', ' ', '0'].contains
      let (width, after, formatted) := formatted.takeSize (rest.drop flags.length)
      let (precision, after, formatted) := match after with
        | '.' :: after =>
          let (precision, after, formatted) := formatted.takeSize after
          (some precision, after, formatted)
        | after => (none, after, formatted)
      match after with
      | [] => { formatted with fault := some "missing format character" }
      | kind :: after =>
        if "diouxXfFeEgGcbs".toList.contains kind then
          let formatted := formatted.convert { flags, width, precision } kind
          if formatted.hasEnded then formatted else pass fuel after formatted
        else
          let directive := (c :: rest).take (rest.length - after.length + 1)
          { formatted with fault := some (.ofList directive ++ ": invalid directive") }

/-- Go through a format again as long as it uses arguments and some are left. -/
def passes (format : Octets) : Nat → Formatted → Formatted
  | 0, formatted => formatted
  | fuel + 1, formatted =>
    let before := formatted.args.length
    let after := pass (format.length + 1) format formatted
    if after.hasEnded || after.fault.isSome || after.args.isEmpty || after.args.length = before then
      after
    else passes format fuel after

end Formatted

/-- What arguments come to by a format, as `printf` writes them. -/
def formatted (format : Octets) (args : List Octets) : Formatted :=
  Formatted.passes format (args.length + 1) { args }

end TerraStack.Shell
