namespace TerraStack.Tfvars

/-- What a character is part of. -/
inductive Place where
  | code
  | string
  /-- In a string, behind a backslash. -/
  | escape
  deriving Repr, DecidableEq

def isOpening (c : Char) : Bool :=
  c = '\x7b' || c = '[' || c = '('

def isClosing (c : Char) : Bool :=
  c = '\x7d' || c = ']' || c = ')'

/-- What a character adds to the depth. -/
def bracketWeight (c : Char) : Int :=
  if isOpening c then 1 else if isClosing c then -1 else 0

/-- The opening less the closing brackets of a line from a place on. Brackets in a string do not
count, nor does anything in a comment. A string ends with its line at the latest; a backslash in it
protects the next character. -/
def depthFrom : Place → List Char → Int
  | _, [] => 0
  | .escape, _ :: rest => depthFrom .string rest
  | .string, c :: rest =>
    depthFrom (if c = '\\' then .escape else if c = '"' then .code else .string) rest
  | .code, c :: rest =>
    if c = '"' then depthFrom .string rest
    else if c = '#' || (c = '/' && rest.head? = some '/') then 0
    else bracketWeight c + depthFrom .code rest

/-- The opening less the closing brackets of a line. -/
def bracketDepth (line : List Char) : Int :=
  depthFrom .code line

end TerraStack.Tfvars
