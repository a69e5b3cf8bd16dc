import TerraStack.Yaml.Error
import TerraStack.Yaml.Folding

namespace TerraStack.Yaml

/-- A scalar that has been read: its text, where it ends, and whether it ends after a line end. -/
structure PlainScalar where
  text : List Char
  cursor : Cursor
  endsLine : Bool

/-- Whether a character ends a plain scalar. `next` is the text after it. -/
def endsPlain (inFlow : Bool) (c : Char) (next : List Char) : Bool :=
  (c = ':' && atGap next) || (inFlow && isFlowIndicator c)

/-- Whether a colon in a flow collection stands where neither a value nor a word can follow. -/
def isStrayColon (inFlow : Bool) (c : Char) (next : List Char) : Bool :=
  inFlow && c = ':' && match next with
    | d :: _ => isFlowIndicator d || d = '?'
    | [] => false

/-- Whether a line of a plain scalar does not belong to it any more: it is not indented enough, it
marks a document, or it is a comment. -/
def endsAtWord (inFlow : Bool) (indent : Int) (position : Position) (cs : List Char) : Bool :=
  (!inFlow && (position.column : Int) < indent) ||
    (position.column = 0 && isAnyMarker cs) ||
    cs.head? = some '#'

/-- Read a plain scalar. `done` is what has been read, backwards, and `gap` the white space after
it. -/
def plainFrom (inFlow : Bool) (indent : Int) (done : List Char) (gap : Gap) (position : Position) :
    List Char → Except Error PlainScalar
  | [] => .ok ⟨done.reverse, ⟨[], position⟩, gap.hasBreak⟩
  | c :: rest =>
    if isBreak c then
      plainFrom inFlow indent done (gap.addBreak c) (position.after c) rest
    else if isSpace c then
      if c = '\t' && gap.hasBreak && (position.column : Int) < indent then .error .tabIndentation
      else plainFrom inFlow indent done (gap.addSpace c) (position.after c) rest
    else if !gap.isNothing && endsAtWord inFlow indent position (c :: rest) then
      .ok ⟨done.reverse, ⟨c :: rest, position⟩, gap.hasBreak⟩
    else if isStrayColon inFlow c rest then .error .unexpectedCharacter
    else if endsPlain inFlow c rest then
      .ok ⟨done.reverse, ⟨c :: rest, position⟩, gap.hasBreak⟩
    else plainFrom inFlow indent (c :: gap.joinTo done) .nothing (position.after c) rest

/-- Read the plain scalar at the cursor, whose lines are indented by at least `indent`. -/
def readPlain (inFlow : Bool) (indent : Int) (cursor : Cursor) : Except Error PlainScalar :=
  plainFrom inFlow indent [] .nothing cursor.position cursor.rest

end TerraStack.Yaml
