import TerraStack.Yaml.Error
import TerraStack.Yaml.Folding

namespace TerraStack.Yaml

/-- The quotes around a scalar. In single quotes a quote is written twice and there are no other
escapes. In double quotes a backslash starts an escape, and before a line end it drops the line end. -/
inductive Quote where
  | single
  | double
  deriving Repr, DecidableEq

def Quote.mark : Quote → Char
  | .single => '\''
  | .double => '"'

/-- The character that a backslash and a letter stand for. -/
def simpleEscape? : Char → Option Char
  | '0' => some '\u0000'
  | 'a' => some '\u0007'
  | 'b' => some '\u0008'
  | 't' => some '\t'
  | '\t' => some '\t'
  | 'n' => some '\n'
  | 'v' => some '\u000b'
  | 'f' => some '\u000c'
  | 'r' => some '\r'
  | 'e' => some '\u001b'
  | ' ' => some ' '
  | '"' => some '"'
  | '/' => some '/'
  | '\\' => some '\\'
  | 'N' => some '\u0085'
  | '_' => some '\u00a0'
  | 'L' => some '\u2028'
  | 'P' => some '\u2029'
  | _ => none

/-- The number of hexadecimal digits after a backslash and a letter. -/
def codeLength? : Char → Option Nat
  | 'x' => some 2
  | 'u' => some 4
  | 'U' => some 8
  | _ => none

/-- The character with a code, unless the code is a surrogate or out of range. -/
def charOfCode? (code : Nat) : Option Char :=
  if h : code.isValidChar then some (Char.ofNatAux code h) else none

/-- A character code of which digits are still to come. -/
structure OpenCode where
  missing : Nat
  value : Nat

/-- Read a quoted scalar after its first quote. `done` is what has been read, backwards, `gap` the
white space after it, and `code` the character code at hand. The result is the text and what follows
the last quote. -/
def quotedFrom (quote : Quote) (done : List Char) (gap : Gap) (code : Option OpenCode)
    (position : Position) : List Char → Except Error (List Char × Cursor)
  | [] => .error .openQuote
  | c :: rest =>
    match code with
    | some ⟨missing, value⟩ =>
      match hexValue? c with
      | none => .error .badEscape
      | some digit =>
        let value := 16 * value + digit
        if 1 < missing then
          quotedFrom quote done gap (some ⟨missing - 1, value⟩) (position.after c) rest
        else
          match charOfCode? value with
          | some decoded => quotedFrom quote (decoded :: done) gap none (position.after c) rest
          | none => .error .badEscape
    | none =>
      if isBreak c then quotedFrom quote done (gap.addBreak c) none (position.after c) rest
      else if isSpace c then quotedFrom quote done (gap.addSpace c) none (position.after c) rest
      else if position.column = 0 && isAnyMarker (c :: rest) then .error .openQuote
      else
        let done := gap.joinTo done
        if c = quote.mark then
          match quote, rest with
          | .single, '\'' :: rest =>
            quotedFrom quote ('\'' :: done) .nothing none ((position.after c).after c) rest
          | _, rest => .ok (done.reverse, ⟨rest, position.after c⟩)
        else if quote = .double && c = '\\' then
          match rest with
          | [] => .error .openQuote
          | e :: rest =>
            let position := (position.after c).after e
            if isBreak e then quotedFrom quote done (.breaks none []) none position rest
            else
              match simpleEscape? e, codeLength? e with
              | some decoded, _ => quotedFrom quote (decoded :: done) .nothing none position rest
              | none, some missing => quotedFrom quote done .nothing (some ⟨missing, 0⟩) position rest
              | none, none => .error .badEscape
        else quotedFrom quote (c :: done) .nothing none (position.after c) rest

/-- Read the quoted scalar at the cursor. -/
def readQuoted (quote : Quote) (cursor : Cursor) : Except Error (List Char × Cursor) :=
  quotedFrom quote [] .nothing none cursor.next.position cursor.next.rest

end TerraStack.Yaml
