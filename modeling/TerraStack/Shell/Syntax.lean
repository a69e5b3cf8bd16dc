import TerraStack.Shell.Octets

namespace TerraStack.Shell

/-- How a file is opened. -/
inductive FileMode where
  | read
  | write
  /-- Write, even where files are protected. -/
  | replace
  | append
  | readWrite
  deriving Repr, DecidableEq

mutual

/-- A piece of a word, which may stand for the value of a parameter, for a number or for the output
of commands. What is quoted is neither split nor matched. -/
inductive Piece where
  | text (isQuoted : Bool) (octets : Octets)
  | parameter (isQuoted : Bool) (name : String) (use : Use)
  /-- What commands write. -/
  | output (isQuoted : Bool) (commands : List Command)
  /-- The value of an expression. -/
  | arithmetic (isQuoted : Bool) (expression : List Piece)

/-- What becomes of a parameter. The flag says whether an empty value counts as none. -/
inductive Use where
  | value
  | length
  /-- The value, or the word if there is none. -/
  | orElse (evenEmpty : Bool) (word : List Piece)
  /-- The value, which is set to the word if there is none. -/
  | orAssign (evenEmpty : Bool) (word : List Piece)
  /-- The value, without which the script ends with the word. -/
  | orFail (evenEmpty : Bool) (word : List Piece)
  /-- The word if there is a value. -/
  | andThen (evenEmpty : Bool) (word : List Piece)
  /-- The value without what matches at its start or its end. -/
  | without (atEnd longest : Bool) (pattern : List Piece)
  /-- No use at all, which shows only when it is tried. -/
  | invalid

/-- What a descriptor is to name while a command runs. -/
inductive Redirect where
  | file (descriptor : Nat) (mode : FileMode) (path : List Piece)
  /-- Make a descriptor the same as another, or close it. -/
  | duplicate (descriptor : Nat) (source : List Piece)
  /-- Read from a text in the script. -/
  | document (descriptor : Nat) (body : List Piece)

/-- A command of the shell language. -/
inductive Command where
  | simple (line : Nat) (assignments : List (String × List Piece)) (words : List (List Piece))
    (redirects : List Redirect)
  | pipeline (commands : List Command)
  | unless (command : Command)
  | both (first second : Command)
  | either (first second : Command)
  | background (command : Command)
  /-- Commands in a shell of their own. -/
  | isolated (commands : List Command)
  | group (commands : List Command)
  | choose (condition body otherwise : List Command)
  /-- Run the body as long as the condition succeeds, or as long as it fails. -/
  | loop (whileFailing : Bool) (condition body : List Command)
  /-- Run the body with a variable set to each word in turn, or to each argument. -/
  | each (name : String) (words : Option (List (List Piece))) (body : List Command)
  /-- Run the first commands of which a pattern matches the word. -/
  | select (subject : List Piece) (branches : List (List (List Piece) × List Command))
  | define (name : String) (body : Command)
  | redirected (line : Nat) (command : Command) (redirects : List Redirect)

end

/-- A word of a command, in pieces. -/
abbrev Word := List Piece

instance : Inhabited Command := ⟨.group []⟩

/-- What is wrong with the words of a script, and the line on which it shows. -/
structure Fault where
  line : Nat
  reason : String
  deriving Repr, DecidableEq

/-- A script: the commands of each line with the number of the line behind them, up to the fault
that ends it, if there is one. -/
structure Script where
  lines : List (List Command × Nat) := []
  fault : Option Fault := none

end TerraStack.Shell
