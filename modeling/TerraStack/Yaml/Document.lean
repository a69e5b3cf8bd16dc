import TerraStack.OrderedMap
import TerraStack.Yaml.CoreSchema
import TerraStack.Yaml.Event
import TerraStack.Yaml.TokenStream

namespace TerraStack.Yaml

/-- A tag without an exclamation mark that stands in front of something. -/
def withoutMark (tag : List Char) : List Char :=
  match tag with
  | '!' :: c :: rest => c :: rest
  | _ => tag

/-- What tags are told apart by. The mark of an application's tag and one more do not count. -/
def tagName (tag : String) : List Char :=
  withoutMark (withoutMark tag.toList)

mutual

/-- Whether two keys are the same value. An integer and a float never are; the order of a mapping's
entries does not matter. -/
def Node.isSame : Node → Node → Bool
  | .null, .null => true
  | .bool x, .bool y => x == y
  | .integer x, .integer y => x == y
  | .float x, .float y => (x.isNaN && y.isNaN) || x == y
  | .string x, .string y => x == y
  | .sequence xs, .sequence ys => sameItems xs ys
  | .mapping xs, .mapping ys => xs.length == ys.length && sameEntries xs ys
  | .tagged s x, .tagged t y => tagName s == tagName t && x.isSame y
  | _, _ => false

def sameItems : List Node → List Node → Bool
  | [], [] => true
  | x :: xs, y :: ys => x.isSame y && sameItems xs ys
  | _, _ => false

/-- Whether each of some entries is among others. -/
def sameEntries : List (Node × Node) → List (Node × Node) → Bool
  | [], _ => true
  | (key, value) :: rest, others =>
    others.any (fun other => key.isSame other.1 && value.isSame other.2) && sameEntries rest others

end

/-- The anchor that an event carries. -/
def Event.anchor? {target : Type} : Event target → Option String
  | .scalar properties _ _ | .sequenceStart properties | .mappingStart properties =>
    properties.anchor
  | _ => none

/-- The numbers of the anchors met so far, and the events that start at the last anchor with each
number. -/
structure Anchors where
  numbers : OrderedMap String Nat
  targets : List (Nat × List (Event String))

/-- Number the anchors, and let aliases name the number of their anchor. An anchor's number is the
count of the names before it. A name used again counts as one, so the next new name shares its
number, and an alias to a shared number stands for the last node that has it. -/
def numberAnchors (anchors : Anchors) :
    List (Event String) → Except Error (List (Event Nat) × Anchors)
  | [] => .ok ([], anchors)
  | event :: rest => do
    let anchors := match event.anchor? with
      | some name =>
        let number := anchors.numbers.size
        ⟨anchors.numbers.insert name number, (number, event :: rest) :: anchors.targets⟩
      | none => anchors
    let event : Event Nat ← match event with
      | .scalar properties text isPlain => .ok (.scalar properties text isPlain)
      | .sequenceStart properties => .ok (.sequenceStart properties)
      | .mappingStart properties => .ok (.mappingStart properties)
      | .collectionEnd => .ok .collectionEnd
      | .alias name =>
        match anchors.numbers.find? name with
        | some number => .ok (.alias number)
        | none => .error .unknownAlias
    let (rest, anchors) ← numberAnchors anchors rest
    .ok (event :: rest, anchors)

/-- The events of a document, and those from the target of each alias on. -/
structure Document where
  events : List (Event Nat)
  targets : List (Nat × List (Event Nat))

/-- A document with its aliases numbered. A target is the part of the events that is as long as the
part from which its anchor was numbered. -/
def Document.ofEvents (events : List (Event String)) : Except Error Document := do
  let (numbered, anchors) ← numberAnchors ⟨∅, []⟩ events
  .ok ⟨numbered, anchors.targets.map fun (number, part) =>
    (number, numbered.drop (numbered.length - part.length))⟩

/-- What is left to read, and how often an alias may still be followed. -/
structure Remaining where
  events : List (Event Nat)
  jumps : Nat

/-- The node with the tag that stands in front of it, if that is an application's own. -/
def Properties.onto (properties : Properties) (node : Node) : Node :=
  match properties.tag.bind Tag.ownText? with
  | some tag => .tagged tag node
  | none => node

/-- What a scalar denotes. Without a tag, and under one with an application's mark, its text and
quotes say what. -/
def Node.ofScalar (properties : Properties) (text : String) (isPlain : Bool) : Except Error Node :=
  match properties.tag.filter (!·.hasMark) with
  | some tag => Node.ofTagged tag text
  | none => properties.onto <$> if isPlain then Node.ofPlain text else .ok (.string text)

mutual

/-- Build the node that the next events stand for, in which collections may be nested `depth` deep. -/
def Document.build (document : Document) (depth : Nat) :
    Nat → Remaining → Except Error (Node × Remaining)
  | 0, _ => .error .tooDeep
  | fuel + 1, ⟨events, jumps⟩ => do
    match events with
    | [] | .collectionEnd :: _ => .error .unexpectedToken
    | .scalar properties text isPlain :: rest =>
      .ok (← Node.ofScalar properties text isPlain, ⟨rest, jumps⟩)
    | .alias number :: rest =>
      match jumps, document.targets.lookup number with
      | 0, _ => .error .tooManyAliases
      | _, none => .error .unknownAlias
      | jumps + 1, some target =>
        let (node, after) ← document.build depth fuel ⟨target, jumps⟩
        .ok (node, ⟨rest, after.jumps⟩)
    | .sequenceStart properties :: rest =>
      match depth with
      | 0 => .error .tooDeep
      | depth + 1 =>
        let (items, after) ← document.buildItems depth fuel ⟨rest, jumps⟩
        .ok (properties.onto (.sequence items), after)
    | .mappingStart properties :: rest =>
      match depth with
      | 0 => .error .tooDeep
      | depth + 1 =>
        let (entries, after) ← document.buildEntries depth [] fuel ⟨rest, jumps⟩
        .ok (properties.onto (.mapping entries), after)

/-- Build the items of a sequence up to its end. -/
def Document.buildItems (document : Document) (depth : Nat) :
    Nat → Remaining → Except Error (List Node × Remaining)
  | 0, _ => .error .tooDeep
  | fuel + 1, remaining => do
    match remaining.events with
    | .collectionEnd :: rest => .ok ([], { remaining with events := rest })
    | _ =>
      let (item, remaining) ← document.build depth fuel remaining
      let (items, remaining) ← document.buildItems depth fuel remaining
      .ok (item :: items, remaining)

/-- Build the entries of a mapping up to its end. `done` are the entries before, backwards. -/
def Document.buildEntries (document : Document) (depth : Nat) (done : List (Node × Node)) :
    Nat → Remaining → Except Error (List (Node × Node) × Remaining)
  | 0, _ => .error .tooDeep
  | fuel + 1, remaining => do
    match remaining.events with
    | .collectionEnd :: rest => .ok (done.reverse, { remaining with events := rest })
    | _ =>
      let (key, remaining) ← document.build depth fuel remaining
      if done.any fun entry => entry.1.isSame key then .error .duplicateKey
      else
        let (value, remaining) ← document.build depth fuel remaining
        document.buildEntries depth ((key, value) :: done) fuel remaining

end

/-- How deep collections may be nested. -/
def depthLimit : Nat := 128

/-- The node of a document: null if it has no events. At each depth at most every event is read
once more, which bounds the steps. -/
def Document.node (document : Document) : Except Error Node :=
  let size := document.events.length
  if size = 0 then .ok .null
  else (document.build depthLimit ((depthLimit + 2) * (size + 2)) ⟨document.events, 100 * size⟩).map
    Prod.fst

/-- The node that a text denotes. Aliases are followed, so that nothing of them is left in the node.
Nesting is limited to 128 collections and following to a hundred times the number of events, which
also ends an alias that stands in the collection it names. -/
def Node.read (text : String) : Except Error Node := do
  let tokens ← tokensOf text
  let events ← eventsOf tokens
  (← Document.ofEvents events).node

end TerraStack.Yaml
