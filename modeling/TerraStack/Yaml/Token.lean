namespace TerraStack.Yaml

/-- A token of a YAML text. Indentation is explicit: a block collection has a token where it starts
and one where it ends, and a key has a token before it even where the text shows a colon only after
it. Tags are bytes. -/
inductive Token where
  | versionDirective (major minor : Nat)
  | tagDirective (handle : String) (start : List UInt8)
  | documentStart
  | documentEnd
  | blockSequenceStart
  | blockMappingStart
  | blockEnd
  | flowSequenceStart
  | flowSequenceEnd
  | flowMappingStart
  | flowMappingEnd
  | blockEntry
  | flowEntry
  | key
  | value
  | alias (name : String)
  | anchor (name : String)
  | tag (handle : String) (suffix : List UInt8)
  /-- The text of a scalar, and whether it is written without quotes and not as a block. -/
  | scalar (text : String) (isPlain : Bool)
  | streamEnd
  deriving Repr, DecidableEq, Inhabited

end TerraStack.Yaml
