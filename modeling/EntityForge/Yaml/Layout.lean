import EntityForge.Yaml.Property
import EntityForge.Yaml.Scalar.Block
import EntityForge.Yaml.Scalar.Plain
import EntityForge.Yaml.Scalar.Quoted

/-!
# Layout

`tokens` reads the tokens of a document. A block collection starts where a line is indented farther
than the block around it, and ends where a line is indented less. What may turn out to be a key is
remembered with the number of tokens before it: when its colon comes, the tokens that make it a key
are put in there. A key has to stand on one line and within 1024 bytes of its colon.
-/

namespace EntityForge.Yaml

/-- A place where a key may have started. -/
structure PossibleKey where
  /-- How many tokens stand before it. -/
  tokenCount : Nat
  /-- Nothing but a key can stand there. -/
  isRequired : Bool
  line : Nat
  column : Nat
  /-- How many bytes stand before it on its line. -/
  offset : Nat

/-- How many bytes a key may be away from its colon. -/
def keyReach : Nat := 1024

/-- The colon of the key cannot stand at `g` or after it. -/
def PossibleKey.isStale (k : PossibleKey) (g : PlacedChar) : Bool :=
  k.line < g.line || k.offset + keyReach < g.offset

/-- What is known while the tokens of a document are read. -/
structure Layout where
  tokens : Array Token := #[]
  /-- The columns of the block collections that are open, the innermost first. -/
  blocks : List Nat := []
  /-- A key may start here. -/
  keyAllowed : Bool := true
  /-- The place where a key of the innermost collection may have started. -/
  possibleKey : Option PossibleKey := none
  /-- The same for the collections around each flow collection that is open. -/
  outerKeys : List (Option PossibleKey) := []

namespace Layout

/-- A flow collection is open. -/
def inFlow (l : Layout) : Bool :=
  !l.outerKeys.isEmpty

/-- Adds a token at the end. -/
def push (t : Token) (l : Layout) : Layout :=
  { l with tokens := l.tokens.push t }

/-- Adds a token after the first `n`. -/
def insertAt (n : Nat) (t : Token) (l : Layout) : Layout :=
  { l with tokens := l.tokens.insertIdxIfInBounds n t }

/-! ## Blocks -/

/-- The line at hand is indented farther than the innermost block. -/
def isDeeper (column : Nat) (l : Layout) : Bool :=
  match l.blocks with
  | [] => true
  | b :: _ => b < column

/-- Opens a block at the column, with its token after the first `n`, if the line is indented
farther. -/
def openBlockAt (n column : Nat) (t : Token) (l : Layout) : Layout :=
  if !l.inFlow && l.isDeeper column then
    { l.insertAt n t with blocks := column :: l.blocks }
  else l

/-- Opens a block here, if the line is indented farther. -/
def openBlock (column : Nat) (t : Token) (l : Layout) : Layout :=
  l.openBlockAt l.tokens.size column t

/-- Closes the blocks that satisfy `p`, from the innermost one on. -/
def closeBlocks (p : Nat → Bool) (l : Layout) : Layout :=
  if l.inFlow then l
  else
    let closed := l.blocks.takeWhile p
    { l with
      blocks := l.blocks.dropWhile p
      tokens := closed.foldl (fun tokens _ => tokens.push .blockEnd) l.tokens }

/-! ## Keys -/

/-- No key has started here; an error if one had to. -/
def dropKey (l : Layout) : Except YamlError Layout :=
  match l.possibleKey with
  | some k => if k.isRequired then .error .missingColon else .ok { l with possibleKey := none }
  | none => .ok l

/-- Forgets the keys whose colon can no longer come; an error if one of them had to be a key. -/
def dropStaleKeys (g : PlacedChar) (l : Layout) : Except YamlError Layout :=
  let stale (k : Option PossibleKey) : Bool := k.any fun k => k.isStale g
  if (l.possibleKey :: l.outerKeys).any fun k => k.any fun k => k.isStale g && k.isRequired then
    .error .missingColon
  else
    .ok
      { l with
        possibleKey := if stale l.possibleKey then none else l.possibleKey
        outerKeys := l.outerKeys.map fun k => if stale k then none else k }

/-- Remembers that a key may start at `g`, if one may. -/
def noteKey (g : PlacedChar) (l : Layout) : Except YamlError Layout :=
  if l.keyAllowed then do
    let required := !l.inFlow && l.blocks.head? == some g.column
    let l ← l.dropKey
    .ok { l with possibleKey := some ⟨l.tokens.size, required, g.line, g.column, g.offset⟩ }
  else .ok l

/-- Says whether a key may start after this. -/
def allowKey (allowed : Bool) (l : Layout) : Layout :=
  { l with keyAllowed := allowed }

/-! ## Tokens -/

/-- A line that belongs to no block: all blocks end. -/
def startOuterLine (l : Layout) : Except YamlError Layout := do
  let l ← (l.closeBlocks fun _ => true).dropKey
  .ok (l.allowKey false)

/-- Opens a flow collection at `g`. -/
def openFlow (g : PlacedChar) (t : Token) (l : Layout) : Except YamlError Layout := do
  let l ← l.noteKey g
  .ok ({ l with
    possibleKey := none, keyAllowed := true, outerKeys := l.possibleKey :: l.outerKeys }.push t)

/-- Closes a flow collection. -/
def closeFlow (t : Token) (l : Layout) : Except YamlError Layout := do
  let l ← l.dropKey
  let l :=
    match l.outerKeys with
    | k :: outer => { l with possibleKey := k, outerKeys := outer }
    | [] => l
  .ok ((l.allowKey false).push t)

/-- Starts the next part of a flow collection. -/
def addFlowEntry (l : Layout) : Except YamlError Layout := do
  let l ← l.dropKey
  .ok ((l.allowKey true).push .flowEntry)

/-- Starts an entry of a block sequence at `g`. -/
def addBlockEntry (g : PlacedChar) (l : Layout) : Except YamlError Layout := do
  if !l.inFlow && !l.keyAllowed then .error .blockEntryPlace
  else
    let l ← (l.openBlock g.column .blockSequence).dropKey
    .ok ((l.allowKey true).push .blockEntry)

/-- Starts a key with a question mark at `g`. -/
def addKey (g : PlacedChar) (l : Layout) : Except YamlError Layout := do
  if !l.inFlow && !l.keyAllowed then .error .keyPlace
  else
    let l ← (l.openBlock g.column .blockMapping).dropKey
    .ok ((l.allowKey !l.inFlow).push .key)

/-- Starts a value at `g`. If a key may have started, it has. -/
def addValue (g : PlacedChar) (l : Layout) : Except YamlError Layout :=
  match l.possibleKey with
  | some k =>
    let l := (l.insertAt k.tokenCount .key).openBlockAt k.tokenCount k.column .blockMapping
    .ok (({ l with possibleKey := none }.allowKey false).push .value)
  | none =>
    if !l.inFlow && !l.keyAllowed then .error .valuePlace
    else .ok (((l.openBlock g.column .blockMapping).allowKey !l.inFlow).push .value)

/-- Adds a token that starts at `g` and may be the start of a key or a key. -/
def addContent (g : PlacedChar) (t : Token) (l : Layout) : Except YamlError Layout := do
  let l ← l.noteKey g
  .ok ((l.allowKey false).push t)

/-- Adds a block scalar, which cannot be a key. -/
def addBlockScalar (text : String) (l : Layout) : Except YamlError Layout := do
  let l ← l.dropKey
  .ok ((l.allowKey true).push (.scalar ⟨text, false⟩))

/-- Adds a plain scalar that starts at `g`. A key may start after it only on a line of its own. -/
def addPlain (g : PlacedChar) (p : PlainScalar) (l : Layout) : Except YamlError Layout := do
  let l ← l.addContent g (.scalar ⟨p.text, true⟩)
  .ok (l.allowKey p.endsLine)

/-- How far the lines of a plain scalar have to be indented. -/
def plainPlace (l : Layout) : PlainPlace :=
  ⟨l.inFlow, l.blocks.head?.elim 0 (· + 1)⟩

/-- Reads one token, or the tokens of one sign, that start with `g`. -/
def readToken (g : PlacedChar) (rest : List PlacedChar) (l : Layout) :
    Except YamlError (Layout × List PlacedChar) := do
  if g.column = 0 ∧ g.char = '%' then
    let l ← l.startOuterLine
    let (t, rest) ← readDirective rest
    .ok (l.push t, rest)
  else if atTriple '-' (g :: rest) then
    let l ← l.startOuterLine
    .ok (l.push .documentStart, rest.drop 2)
  else if atTriple '.' (g :: rest) then
    let l ← l.startOuterLine
    .ok (l.push .documentEnd, rest.drop 2)
  else if g.char = '[' then .ok (← l.openFlow g .flowSequence, rest)
  else if g.char = '\x7b' then .ok (← l.openFlow g .flowMapping, rest)
  else if g.char = ']' then .ok (← l.closeFlow .flowSequenceEnd, rest)
  else if g.char = '\x7d' then .ok (← l.closeFlow .flowMappingEnd, rest)
  else if g.char = ',' then .ok (← l.addFlowEntry, rest)
  else if g.char = '-' ∧ atGap rest then .ok (← l.addBlockEntry g, rest)
  else if g.char = '?' ∧ (l.inFlow || atGap rest) then .ok (← l.addKey g, rest)
  else if g.char = ':' ∧ (l.inFlow || atGap rest) then .ok (← l.addValue g, rest)
  else if g.char = '*' then
    let (name, rest) ← readAnchorName rest
    .ok (← l.addContent g (.reference name), rest)
  else if g.char = '&' then
    let (name, rest) ← readAnchorName rest
    .ok (← l.addContent g (.anchor name), rest)
  else if g.char = '!' then
    let (handle, rest) ← readTag l.inFlow (g :: rest)
    .ok (← l.addContent g (.tag handle), rest)
  else if (g.char = '|' ∨ g.char = '>') ∧ !l.inFlow then
    let (text, rest) ← readBlock (g.char == '>') l.blocks.head? rest
    .ok (← l.addBlockScalar text, rest)
  else if g.char = '\'' ∨ g.char = '"' then
    let (text, rest) ← readQuoted g.char rest
    .ok (← l.addContent g (.scalar ⟨text, false⟩), rest)
  else if isBlank g.char || ['#', '|', '>', '%', '@', '\x60'].contains g.char then
    .error (.unexpectedCharacter g.char)
  else
    let p ← readPlain l.plainPlace (g :: rest)
    .ok (← l.addPlain g p, p.rest)

end Layout

/-- The byte order mark, which may stand at the start of a line. -/
def byteOrderMark : Char := '\ufeff'

/-- Skips blanks, comments and line breaks. A tab is no blank where a key may start, and outside flow
collections a key may start on every new line; the result says whether one may. -/
def skipToToken (inFlow keyAllowed inComment : Bool) :
    List PlacedChar → Bool × List PlacedChar
  | [] => (keyAllowed, [])
  | g :: rest =>
    if isBreak g.char then skipToToken inFlow (keyAllowed || !inFlow) false rest
    else if inComment then skipToToken inFlow keyAllowed true rest
    else if g.column = 0 ∧ g.char = byteOrderMark then skipToToken inFlow keyAllowed false rest
    else if g.char = ' ' ∨ (g.char = '\t' ∧ (inFlow || !keyAllowed)) then
      skipToToken inFlow keyAllowed false rest
    else if g.char = '#' then skipToToken inFlow keyAllowed true rest
    else (keyAllowed, g :: rest)

/-- Reads tokens to the end of the text, with at most `steps` calls of `readToken`. -/
def tokensAfter (l : Layout) (cs : List PlacedChar) (steps : Nat) : Except YamlError (List Token) :=
  let (keyAllowed, cs) := skipToToken l.inFlow l.keyAllowed false cs
  match cs with
  | [] => do
    let l ← (l.closeBlocks fun _ => true).dropKey
    .ok l.tokens.toList
  | g :: rest =>
    match steps with
    | 0 => .error .unexpectedToken
    | steps + 1 => do
      let l ← (l.allowKey keyAllowed).dropStaleKeys g
      let (l, rest) ← (l.closeBlocks fun column => g.column < column).readToken g rest
      tokensAfter l rest steps

/-- The tokens of a document. Every call of `readToken` reads a character, so there are no more calls
than characters. -/
def tokens (text : String) : Except YamlError (List Token) := do
  let cs ← placed text
  tokensAfter {} cs cs.length

end EntityForge.Yaml
