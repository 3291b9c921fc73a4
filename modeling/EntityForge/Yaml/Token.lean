/-!
# Tokens of YAML documents

Indentation has become tokens of its own: a block collection starts with `blockSequence` or
`blockMapping` and ends with `blockEnd`. A key that is written without a question mark has a `key`
token before it all the same.
-/

namespace EntityForge.Yaml

/-- A text node: what it says, and whether it is written without quotes and not as a block. -/
structure Scalar where
  text : String
  isPlain : Bool
deriving DecidableEq, Repr

/-- A part of a YAML document. -/
inductive Token where
  | versionDirective (major minor : Nat)
  | tagDirective (handle : String)
  | documentStart
  | documentEnd
  | blockSequence
  | blockMapping
  | blockEnd
  | flowSequence
  | flowSequenceEnd
  | flowMapping
  | flowMappingEnd
  | blockEntry
  | flowEntry
  | key
  | value
  /-- The name of the node that follows. -/
  | anchor (name : String)
  /-- A node that stands for a named one. -/
  | reference (name : String)
  /-- The type of the node that follows; only the handle matters here. -/
  | tag (handle : String)
  | scalar (scalar : Scalar)
deriving DecidableEq, Repr

end EntityForge.Yaml
