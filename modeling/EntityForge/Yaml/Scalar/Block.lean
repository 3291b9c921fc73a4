import EntityForge.Yaml.Character

/-!
# Block scalars

A block scalar is a header and lines that are indented. A literal block keeps its line breaks; a
folded one joins lines that do not start with a blank. The header may say how far the lines are
indented and what becomes of the line breaks at the end.
-/

namespace EntityForge.Yaml

/-- What becomes of the line breaks at the end of a block scalar. -/
inductive Chomping where
  | strip
  | clip
  | keep
deriving DecidableEq, Repr

/-- What the header of a block scalar says. -/
structure BlockHeader where
  isFolded : Bool
  chomping : Chomping := .clip
  /-- How much farther than the enclosing block the lines are indented, if that is said. -/
  increment : Option Nat := none
deriving DecidableEq, Repr

/-- The chomping that a character stands for. -/
def chomping? (c : Char) : Option Chomping :=
  match c with
  | '+' => some .keep
  | '-' => some .strip
  | _ => none

/-- Reads a sign of chomping, if there is one. -/
def readChomping (cs : List PlacedChar) : Option Chomping × List PlacedChar :=
  match cs with
  | [] => (none, [])
  | g :: rest =>
    match chomping? g.char with
    | some c => (some c, rest)
    | none => (none, g :: rest)

/-- Reads a digit for the indentation, if there is one; zero is an error. -/
def readIncrement (cs : List PlacedChar) : Except YamlError (Option Nat × List PlacedChar) :=
  match cs with
  | [] => .ok (none, [])
  | g :: rest =>
    if g.char = '0' then .error .blockHeader
    else if g.char.isDigit then .ok (some (g.char.toNat - '0'.toNat), rest)
    else .ok (none, g :: rest)

/-- Reads the header after the sign of the block: a sign of chomping and a digit in any order, and a
comment. What is left starts on the next line. -/
def readBlockHeader (isFolded : Bool) (cs : List PlacedChar) :
    Except YamlError (BlockHeader × List PlacedChar) := do
  let (before, cs) := readChomping cs
  let (increment, cs) ← readIncrement cs
  let (after, cs) := if before.isNone && increment.isSome then readChomping cs else (none, cs)
  match skipLineTail? cs with
  | none => .error .blockHeader
  | some cs => .ok (⟨isFolded, (before <|> after).getD .clip, increment⟩, cs.tail)

/-- The greatest column that the spaces before the first text reach, on its line or on one before. -/
def widestIndent (widest : Nat) : List PlacedChar → Except YamlError Nat
  | [] => .ok widest
  | g :: rest =>
    if g.char = ' ' then widestIndent (max widest (g.column + 1)) rest
    else if g.char = '\t' then .error .tabIndentation
    else if isBreak g.char then widestIndent widest rest
    else .ok widest

/-- What is known while the lines of a block scalar are read. -/
structure BlockText where
  /-- The text so far, last character first. -/
  read : List Char := []
  /-- The line break after the last line of text. -/
  lineBreak : Option Char := none
  /-- The line breaks of empty lines after it, last first. -/
  emptyLines : List Char := []
  /-- The last line of text starts with a blank. -/
  startsBlank : Bool := false
  inLine : Bool := false

namespace BlockText

/-- A line of text starts with `c`. In a folded block a line feed between two lines that do not start
with a blank counts as a space, or as nothing if empty lines follow it. -/
def startLine (isFolded : Bool) (c : Char) (t : BlockText) : BlockText :=
  let joins := isFolded && t.lineBreak == some '\n' && !t.startsBlank && !isBlank c
  let join :=
    if joins then (if t.emptyLines.isEmpty then [' '] else [])
    else t.lineBreak.toList
  ⟨c :: (t.emptyLines ++ (join ++ t.read)), none, [], isBlank c, true⟩

/-- The line of text ends with the line break `c`. -/
def endLine (c : Char) (t : BlockText) : BlockText :=
  { t with lineBreak := some c, emptyLines := [], inLine := false }

/-- The whole text, with the line breaks at its end treated as the header says. -/
def finish (chomping : Chomping) (t : BlockText) : String :=
  let last := if chomping = .strip then [] else t.lineBreak.toList
  let empty := if chomping = .keep then t.emptyLines else []
  String.ofList (empty ++ (last ++ t.read)).reverse

end BlockText

/-- Reads lines that are indented to the column `indent`. -/
def readBlockLines (isFolded : Bool) (indent : Nat) (t : BlockText) :
    List PlacedChar → Except YamlError (BlockText × List PlacedChar)
  | [] => .ok (t, [])
  | g :: rest =>
    if t.inLine then
      if isBreak g.char then readBlockLines isFolded indent (t.endLine g.char) rest
      else readBlockLines isFolded indent { t with read := g.char :: t.read } rest
    else if g.column < indent && g.char == ' ' then readBlockLines isFolded indent t rest
    else if g.column < indent && g.char == '\t' then .error .tabIndentation
    else if isBreak g.char then
      readBlockLines isFolded indent { t with emptyLines := g.char :: t.emptyLines } rest
    else if g.column = indent then
      readBlockLines isFolded indent (t.startLine isFolded g.char) rest
    else .ok (t, g :: rest)

/-- Reads a block scalar after its sign. The enclosing block, if there is one, is indented to the
column `outer?`. -/
def readBlock (isFolded : Bool) (outer? : Option Nat) (cs : List PlacedChar) :
    Except YamlError (String × List PlacedChar) := do
  let (header, cs) ← readBlockHeader isFolded cs
  let indent ←
    match header.increment with
    | some n => Except.ok (outer?.getD 0 + n)
    | none => (widestIndent 0 cs).map fun widest => max widest (max (outer?.elim 0 (· + 1)) 1)
  let (text, cs) ← readBlockLines isFolded indent {} cs
  .ok (text.finish header.chomping, cs)

end EntityForge.Yaml
