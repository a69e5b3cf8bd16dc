namespace TerraStack.Yaml

/-- Why a text is no YAML document that can be read. -/
inductive Error where
  /-- A control character stands in the text. -/
  | forbiddenCharacter
  /-- No token can start or go on here. -/
  | unexpectedCharacter
  /-- A quoted scalar is not closed, or a document marker stands in it. -/
  | openQuote
  /-- An escape sequence in double quotes is not one. -/
  | badEscape
  /-- A tab stands where the indentation is. -/
  | tabIndentation
  /-- The header of a block scalar is wrong. -/
  | badBlockHeader
  /-- A directive is unknown, wrong or repeated. -/
  | badDirective
  /-- A tag or the name of an anchor is malformed. -/
  | badProperty
  /-- A key has no colon, or is too long for a key without a question mark. -/
  | missingColon
  /-- A block entry, key or value may not start here. -/
  | misplacedIndicator
  /-- The tokens are not those of a document. -/
  | unexpectedToken
  /-- The handle of a tag is not declared. -/
  | undeclaredHandle
  /-- An alias names no anchor before it. -/
  | unknownAlias
  /-- Collections are nested too deeply, or an alias stands in what it names. -/
  | tooDeep
  /-- Aliases are followed too often. -/
  | tooManyAliases
  /-- A mapping has the same key twice. -/
  | duplicateKey
  /-- An integer does not fit into 64 bits. -/
  | integerRange
  /-- The text of a scalar does not fit its tag. -/
  | tagMismatch
  /-- The text holds more than one document. -/
  | severalDocuments
  deriving Repr, DecidableEq

/-- The text of an error for the operator. -/
def Error.message : Error → String
  | .forbiddenCharacter => "control characters are not allowed"
  | .unexpectedCharacter => "found a character that cannot stand here"
  | .openQuote => "a quoted scalar is not closed"
  | .badEscape => "found an unknown escape"
  | .tabIndentation => "found a tab in the indentation"
  | .badBlockHeader => "found a wrong header of a block scalar"
  | .badDirective => "found a wrong directive"
  | .badProperty => "found a wrong anchor or tag"
  | .missingColon => "could not find the colon of a key"
  | .misplacedIndicator => "an entry, key or value is not allowed here"
  | .unexpectedToken => "did not find what was expected"
  | .undeclaredHandle => "found an undeclared tag handle"
  | .unknownAlias => "unknown anchor"
  | .tooDeep => "recursion limit exceeded"
  | .tooManyAliases => "repetition limit exceeded"
  | .duplicateKey => "duplicate entry in a mapping"
  | .integerRange => "an integer is out of range"
  | .tagMismatch => "a value does not fit its tag"
  | .severalDocuments => "more than one document is not supported"

end TerraStack.Yaml
