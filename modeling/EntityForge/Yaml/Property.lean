import EntityForge.Yaml.Character
import EntityForge.Yaml.Token

/-!
# Anchors, tags and directives

An anchor or a tag stands before a node and says something about it; a directive stands on a line of
its own before a document. Of tags only the handle is kept, because it has to be known.
-/

namespace EntityForge.Yaml

/-- The longest start of the text whose characters satisfy `p`, and the rest. -/
def readWhile (p : Char → Bool) : List PlacedChar → List Char × List PlacedChar
  | [] => ([], [])
  | g :: rest =>
    if p g.char then
      let (read, rest) := readWhile p rest
      (g.char :: read, rest)
    else ([], g :: rest)

/-! ## Anchors -/

/-- Reads the name of an anchor, after its sign. -/
def readAnchorName (cs : List PlacedChar) : Except YamlError (String × List PlacedChar) :=
  let (name, rest) := readWhile isWordChar cs
  let ends := atGap rest || atOneOf ['?', ':', ',', ']', '\x7d', '%', '@', '\x60'] rest
  if name.isEmpty || !ends then .error .anchorName else .ok (String.ofList name, rest)

/-! ## Tags -/

/-- The character can stand in a tag. -/
def isTagChar (c : Char) : Bool :=
  isWordChar c ||
    [';', '/', '?', ':', '@', '&', '=', '+', '$', '.', '%', '!', '~', '*', '\'', '(', ')'].contains c

/-- The character can stand in a tag between angle brackets, or in the meaning of a handle. -/
def isVerbatimTagChar (c : Char) : Bool :=
  isTagChar c || [',', '[', ']'].contains c

/-- How many bytes of a character follow its first byte. -/
def bytesAfter? (b : Nat) : Option Nat :=
  if b < 0x80 then some 0
  else if 0xC0 ≤ b ∧ b < 0xE0 then some 1
  else if 0xE0 ≤ b ∧ b < 0xF0 then some 2
  else if 0xF0 ≤ b ∧ b < 0xF8 then some 3
  else none

/-- The bytes that are written with percent signs make whole characters; `missing` more are to come. -/
def escapesComplete (missing : Nat) : List Char → Bool
  | [] => missing == 0
  | '%' :: a :: b :: rest =>
    match hexDigit? a, hexDigit? b with
    | some high, some low =>
      let byte := high * 16 + low
      match missing with
      | 0 =>
        match bytesAfter? byte with
        | some n => escapesComplete n rest
        | none => false
      | missing + 1 => 0x80 ≤ byte && byte < 0xC0 && escapesComplete missing rest
    | _, _ => false
  | '%' :: _ => false
  | _ :: rest => missing == 0 && escapesComplete 0 rest

/-- Reads the characters of a tag. -/
def readTagText (p : Char → Bool) (cs : List PlacedChar) :
    Except YamlError (List Char × List PlacedChar) :=
  let (read, rest) := readWhile p cs
  if escapesComplete 0 read then .ok (read, rest) else .error .tag

/-- Reads a handle: an exclamation mark, a word, and perhaps another exclamation mark. The result
says whether the second mark is there. -/
def readTagHandle (cs : List PlacedChar) :
    Except YamlError (List Char × Bool × List PlacedChar) :=
  match cs with
  | [] => .error .tag
  | g :: rest =>
    if g.char ≠ '!' then .error .tag
    else
      let (word, rest) := readWhile isWordChar rest
      match rest with
      | h :: after =>
        if h.char = '!' then .ok ('!' :: (word ++ ['!']), true, after)
        else .ok ('!' :: word, false, rest)
      | [] => .ok ('!' :: word, false, [])

/-- Reads a tag and gives its handle. A tag between angle brackets has no handle; one that has no
second exclamation mark has the handle `!`, unless that is all of it. -/
def readTagForm (cs : List PlacedChar) : Except YamlError (String × List PlacedChar) := do
  match cs with
  | a :: b :: rest =>
    if b.char = '<' then
      let (text, rest) ← readTagText isVerbatimTagChar rest
      if text.isEmpty || !atOneOf ['>'] rest then .error .tag else .ok ("", rest.tail)
    else
      let (handle, isNamed, rest) ← readTagHandle (a :: b :: rest)
      let (text, rest) ← readTagText isTagChar rest
      if isNamed then
        if text.isEmpty then .error .tag else .ok (String.ofList handle, rest)
      else .ok (if handle.length ≤ 1 && text.isEmpty then "" else "!", rest)
  | cs =>
    let (_, _, rest) ← readTagHandle cs
    .ok ("", rest)

/-- Reads a tag. In a flow collection a comma may follow it. -/
def readTag (inFlow : Bool) (cs : List PlacedChar) :
    Except YamlError (String × List PlacedChar) := do
  let (handle, rest) ← readTagForm cs
  if atGap rest || (inFlow && atOneOf [','] rest) then .ok (handle, rest) else .error .tag

/-! ## Directives -/

/-- Reads a number of one to nine digits. -/
def readVersionNumber (cs : List PlacedChar) : Except YamlError (Nat × List PlacedChar) :=
  let (digits, rest) := readWhile Char.isDigit cs
  if digits.isEmpty || 9 < digits.length then .error .directive
  else .ok (digits.foldl (fun n d => n * 10 + (d.toNat - '0'.toNat)) 0, rest)

/-- Reads two numbers with a point between them. -/
def readVersion (cs : List PlacedChar) : Except YamlError (Token × List PlacedChar) := do
  let (major, rest) ← readVersionNumber (skipBlanks cs)
  if !atOneOf ['.'] rest then .error .directive
  else
    let (minor, rest) ← readVersionNumber rest.tail
    .ok (.versionDirective major minor, rest)

/-- Reads a handle and what it means. -/
def readTagMeaning (cs : List PlacedChar) : Except YamlError (Token × List PlacedChar) := do
  let (handle, isNamed, rest) ← readTagHandle (skipBlanks cs)
  if !isNamed && handle ≠ ['!'] then .error .directive
  else if atLineEnd rest || !atGap rest then .error .directive
  else
    let (text, rest) ← readTagText isVerbatimTagChar (skipBlanks rest)
    if text.isEmpty || !atGap rest then .error .directive
    else .ok (.tagDirective (String.ofList handle), rest)

/-- Reads a directive after its percent sign, up to the start of the next line. -/
def readDirective (cs : List PlacedChar) : Except YamlError (Token × List PlacedChar) := do
  let (name, rest) := readWhile isWordChar cs
  let (token, rest) ←
    if !atGap rest then Except.error YamlError.directive
    else if name = ['Y', 'A', 'M', 'L'] then readVersion rest
    else if name = ['T', 'A', 'G'] then readTagMeaning rest
    else .error .directive
  match skipLineTail? rest with
  | some rest => .ok (token, rest.tail)
  | none => .error .directive

end EntityForge.Yaml
