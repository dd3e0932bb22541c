import SqlMetrics.Yaml.Cursor

/-!
# Tokens of YAML

The tokens that a YAML text consists of, and the faults that a text may have.  Indentation is made
of tokens too: a block collection starts and ends with one.
-/

namespace SqlMetrics.Yaml

/-- How a scalar is written. -/
inductive ScalarStyle where
  | plain
  | singleQuoted
  | doubleQuoted
  | literal
  | folded
deriving DecidableEq, Repr

/-- A tag as it is written: a handle, which may be empty, and what follows it. -/
structure TagToken where
  handle : String
  suffix : String
deriving DecidableEq, Repr

/-- A token. -/
inductive Token where
  | streamEnd
  | version (major minor : Nat)
  | tagDirective (handle tagPrefix : String)
  | documentStart
  | documentEnd
  | blockSequenceStart
  | blockMappingStart
  | blockEnd
  | flowSequenceStart
  | flowSequenceEnd
  | flowMappingStart
  | flowMappingEnd
  | blockEntry
  | flowEntry
  | key
  | value
  | alias (name : String)
  | anchor (name : String)
  | tag (t : TagToken)
  | scalar (style : ScalarStyle) (text : String)
deriving DecidableEq, Repr

/-- What is wrong with a YAML text. -/
inductive YamlError where
  /-- A character that may not stand in a YAML text. -/
  | controlCharacter
  /-- A character that starts no token. -/
  | strayCharacter
  /-- A key without its colon. -/
  | missingColon
  /-- An entry, key or value where none may stand. -/
  | notAllowedHere
  | badDirective
  | badAnchor
  | badTag
  /-- The header or the indentation of a block scalar. -/
  | badBlockScalar
  | unterminatedScalar
  | badEscape
  /-- A colon or a tab inside a plain scalar. -/
  | badPlainScalar
  /-- Tokens that make no node or document. -/
  | unexpectedToken
  | undefinedTagHandle
  | unknownAnchor
  | severalDocuments
  | nestedTooDeep
  | tooManyAliases
  /-- A node of the wrong kind for what it stands for. -/
  | wrongKind
  /-- A field that is given twice. -/
  | duplicateField (name : String)
deriving DecidableEq, Repr

/-- What is wrong, in short and without the place. -/
def YamlError.message : YamlError → String
  | .controlCharacter => "control characters are not allowed"
  | .strayCharacter => "found character that cannot start any token"
  | .missingColon => "could not find expected ':'"
  | .notAllowedHere => "block collections are not allowed in this context"
  | .badDirective => "found unknown or malformed directive"
  | .badAnchor => "did not find expected alphabetic or numeric character"
  | .badTag => "did not find expected tag"
  | .badBlockScalar => "malformed block scalar"
  | .unterminatedScalar => "found unexpected end of stream"
  | .badEscape => "found unknown escape character"
  | .badPlainScalar => "malformed plain scalar"
  | .unexpectedToken => "did not find expected node content"
  | .undefinedTagHandle => "found undefined tag handle"
  | .unknownAnchor => "unknown anchor"
  | .severalDocuments => "deserializing from YAML containing more than one document"
  | .nestedTooDeep => "recursion limit exceeded"
  | .tooManyAliases => "repetition limit exceeded"
  | .wrongKind => "invalid type"
  | .duplicateField name => "duplicate field " ++ name

end SqlMetrics.Yaml
