/-!
# Errors of YAML documents

A document fails for a character that no document may hold, for a part that cannot be read, or for
parts that do not fit together. `YamlError.message` is the text of each.
-/

namespace EntityForge.Yaml

/-- Why a text is not one YAML document. -/
inductive YamlError where
  /-- The text holds a control character. -/
  | forbiddenCharacter (c : Char)
  /-- No part of a document starts with this character. -/
  | unexpectedCharacter (c : Char)
  | directive
  | repeatedDirective
  | unsupportedVersion
  /-- A name after `&` or `*` is empty or runs into something else. -/
  | anchorName
  | tag
  | undefinedTagHandle (handle : String)
  /-- A tab stands where the line is indented. -/
  | tabIndentation
  | blockHeader
  | flowColon
  | escapeSequence
  | openQuote
  | blockEntryPlace
  | keyPlace
  | valuePlace
  /-- A key that has to be one has no colon on its line. -/
  | missingColon
  | unexpectedToken
  | unknownAnchor (name : String)
  | severalDocuments
deriving DecidableEq, Repr

/-- The text of the error. -/
def YamlError.message : YamlError → String
  | forbiddenCharacter _ => "control characters are not allowed"
  | unexpectedCharacter _ => "found character that cannot start any token"
  | directive => "found an invalid directive"
  | repeatedDirective => "found duplicate directive"
  | unsupportedVersion => "found incompatible YAML document"
  | anchorName => "did not find expected alphabetic or numeric character"
  | tag => "found an invalid tag"
  | undefinedTagHandle _ => "found undefined tag handle"
  | tabIndentation => "found a tab character where an indentation space is expected"
  | blockHeader => "found an invalid block scalar header"
  | flowColon => "found unexpected ':'"
  | escapeSequence => "found unknown escape character"
  | openQuote => "found unexpected end of quoted scalar"
  | blockEntryPlace => "block sequence entries are not allowed in this context"
  | keyPlace => "mapping keys are not allowed in this context"
  | valuePlace => "mapping values are not allowed in this context"
  | missingColon => "could not find expected ':'"
  | unexpectedToken => "did not find expected node content"
  | unknownAnchor _ => "unknown anchor"
  | severalDocuments => "more than one document"

end EntityForge.Yaml
