import EntityForge.Yaml.Scalar.Gap

/-!
# Plain scalars

A plain scalar has no quotes. It ends before a colon and a gap, before a comment, before the marks
of an enclosing flow collection, at a line that is not indented enough, and where the document ends.
-/

namespace EntityForge.Yaml

/-- Where a plain scalar stands: inside a flow collection or not, and how far its lines have to be
indented. -/
structure PlainPlace where
  inFlow : Bool
  indent : Nat

/-- A plain scalar that was read: its text, whether it ends with a gap that has a line break, and
the text after the gap. -/
structure PlainScalar where
  text : String
  endsLine : Bool
  rest : List PlacedChar

/-- A word that would start after a gap with this character does not belong to the scalar. -/
def PlainPlace.endsBefore (p : PlainPlace) (g : PlacedChar) (rest : List PlacedChar) : Bool :=
  g.char == '#' || (!p.inFlow && g.column < p.indent) || atDocumentMark (g :: rest)

/-- The character ends a word and the scalar. -/
def PlainPlace.isEnd (p : PlainPlace) (g : PlacedChar) (rest : List PlacedChar) : Bool :=
  (g.char == ':' && atGap rest) || (p.inFlow && [',', '[', ']', '\x7b', '\x7d'].contains g.char)

/-- A colon in a flow collection cannot stand before one of the marks of the collection. -/
def PlainPlace.isBadColon (p : PlainPlace) (g : PlacedChar) (rest : List PlacedChar) : Bool :=
  p.inFlow && g.char == ':' && atOneOf [',', '?', '[', ']', '\x7b', '\x7d'] rest

/-- Reads on after the characters `read`, held last first, and a gap. -/
def readPlainAfter (p : PlainPlace) (read : List Char) (gap : Gap) :
    List PlacedChar → Except YamlError PlainScalar
  | [] => .ok ⟨String.ofList read.reverse, gap.isBroken, []⟩
  | g :: rest =>
    if isBlank g.char || isBreak g.char then
      if gap.isBroken && g.char == '\t' && g.column < p.indent then .error .tabIndentation
      else readPlainAfter p read (gap.push g.char) rest
    else if gap != .empty && p.endsBefore g rest then
      .ok ⟨String.ofList read.reverse, gap.isBroken, g :: rest⟩
    else if p.isBadColon g rest then .error .flowColon
    else if p.isEnd g rest then .ok ⟨String.ofList read.reverse, gap.isBroken, g :: rest⟩
    else readPlainAfter p (g.char :: (gap.folded ++ read)) .empty rest

/-- Reads a plain scalar. -/
def readPlain (p : PlainPlace) (cs : List PlacedChar) : Except YamlError PlainScalar :=
  readPlainAfter p [] .empty cs

end EntityForge.Yaml
