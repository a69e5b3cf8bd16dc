import TerraStack.Yaml.Error
import TerraStack.Yaml.Character

namespace TerraStack.Yaml

/-- What becomes of the line ends at the end of a block. -/
inductive Chomping where
  | strip
  | clip
  | keep
  deriving Repr, DecidableEq

/-- The header of a block scalar. It says whether lines are kept or folded, what becomes of the line
ends at the end, and how deep the block is indented if its first line does not tell. -/
structure BlockHeader where
  chomping : Chomping
  /-- How much deeper than its parent the block is indented, if the header says so. -/
  increment : Option Nat

def chomping? : Char → Option Chomping
  | '+' => some .keep
  | '-' => some .strip
  | _ => none

/-- The increment at a cursor, if there is one. It is not zero. -/
def readIncrement (cursor : Cursor) : Except Error (Option Nat × Cursor) :=
  match cursor.rest with
  | c :: _ =>
    if c = '0' then .error .badBlockHeader
    else if c.isDigit then .ok (some (c.toNat - '0'.toNat), cursor.next)
    else .ok (none, cursor)
  | [] => .ok (none, cursor)

/-- Read the two indicators of a header, which may stand in either order. -/
def readIndicators (cursor : Cursor) : Except Error (BlockHeader × Cursor) := do
  let chompingAt (cursor : Cursor) := cursor.rest.head?.bind chomping?
  match chompingAt cursor with
  | some chomping =>
    let (increment, cursor) ← readIncrement cursor.next
    .ok (⟨chomping, increment⟩, cursor)
  | none =>
    let (increment, cursor) ← readIncrement cursor
    match increment, chompingAt cursor with
    | some _, some chomping => .ok (⟨chomping, increment⟩, cursor.next)
    | _, _ => .ok (⟨.clip, increment⟩, cursor)

/-- Skip a comment at the cursor. -/
def skipComment (cursor : Cursor) : Cursor :=
  match cursor.rest with
  | '#' :: _ => cursor.skipWhile (!isBreak ·)
  | _ => cursor

/-- Read a header to the end of its line. -/
def readHeader (cursor : Cursor) : Except Error (BlockHeader × Cursor) := do
  let (header, cursor) ← readIndicators cursor
  let cursor := skipComment (cursor.skipWhile isSpace)
  if atLineEnd cursor.rest then .ok (header, cursor.next) else .error .badBlockHeader

/-- Empty lines that have been skipped: their line ends, backwards, the greatest column that their
spaces reach, and the cursor at the first character after the indentation. -/
structure EmptyLines where
  breaks : List Char
  widest : Nat
  cursor : Cursor

/-- Skip empty lines and the indentation of the line after them. The indentation is at most
`indent`, if that is known. -/
def emptyLinesFrom (indent : Option Nat) (breaks : List Char) (widest : Nat) (position : Position) :
    List Char → Except Error EmptyLines
  | [] => .ok ⟨breaks, max widest position.column, ⟨[], position⟩⟩
  | c :: rest =>
    let inIndentation := indent.all (position.column < ·)
    if inIndentation && c = ' ' then
      emptyLinesFrom indent breaks widest (position.after c) rest
    else if inIndentation && c = '\t' then .error .tabIndentation
    else
      let widest := max widest position.column
      if isBreak c then emptyLinesFrom indent (c :: breaks) widest (position.after c) rest
      else .ok ⟨breaks, widest, ⟨c :: rest, position⟩⟩

def skipEmptyLines (indent : Option Nat) (cursor : Cursor) : Except Error EmptyLines :=
  emptyLinesFrom indent [] 0 cursor.position cursor.rest

/-- A block of which some lines have been read. All texts are backwards. -/
structure OpenBlock where
  done : List Char
  /-- The end of the line read last. -/
  lineEnd : List Char
  /-- The ends of the empty lines after it. -/
  emptyEnds : List Char
  /-- Whether that line starts with a space. -/
  isIndented : Bool

/-- The text before a line that starts with a space if `isIndented` says so. When lines are folded,
the line end between two lines that start with a word becomes a space, or nothing if empty lines
follow. -/
def OpenBlock.joined (block : OpenBlock) (folded isIndented : Bool) : List Char :=
  if folded && block.lineEnd.head? = some '\n' && !block.isIndented && !isIndented then
    if block.emptyEnds.isEmpty then ' ' :: block.done else block.emptyEnds ++ block.done
  else block.emptyEnds ++ (block.lineEnd ++ block.done)

/-- The text of a block after its last line. -/
def OpenBlock.close (block : OpenBlock) (chomping : Chomping) : List Char :=
  match chomping with
  | .strip => block.done.reverse
  | .clip => (block.lineEnd ++ block.done).reverse
  | .keep => (block.emptyEnds ++ (block.lineEnd ++ block.done)).reverse

/-- Read the lines of a block that are indented by `indent`, at most `fuel` of them. -/
def blockLines (folded : Bool) (indent : Nat) :
    Nat → OpenBlock → Cursor → Except Error (OpenBlock × Cursor)
  | 0, block, cursor => .ok (block, cursor)
  | fuel + 1, block, cursor =>
    if cursor.position.column ≠ indent ∨ cursor.rest.isEmpty then .ok (block, cursor)
    else do
      let isIndented := cursor.rest.head?.any isSpace
      let line := cursor.rest.takeWhile (!isBreak ·)
      let lineEnd := cursor.skip line.length
      let found ← skipEmptyLines (some indent) lineEnd.next
      let done := line.reverse ++ block.joined folded isIndented
      blockLines folded indent fuel
        ⟨done, (lineEnd.rest.take 1), found.breaks, isIndented⟩ found.cursor

/-- Read the block scalar at the cursor, in a collection that is indented by `parent`. -/
def readBlock (folded : Bool) (parent : Int) (cursor : Cursor) :
    Except Error (List Char × Cursor) := do
  let (header, cursor) ← readHeader cursor.next
  let given := header.increment.map (parent.toNat + ·)
  let found ← skipEmptyLines given cursor
  let indent := given.getD (max found.widest (max (parent + 1).toNat 1))
  let (block, cursor) ← blockLines folded indent cursor.rest.length
    ⟨[], [], found.breaks, false⟩ found.cursor
  .ok (block.close header.chomping, cursor)

end TerraStack.Yaml
