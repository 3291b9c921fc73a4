import EntityForge.Yaml.Error

/-!
# Characters with their places

A document is read as a list of characters, each with its line and column, so that a reader knows
from the character at hand how far the line is indented. `placed` makes the list: it refuses control
characters and writes every ordinary line break as a line feed.
-/

namespace EntityForge.Yaml

/-- A character of a document with its place, counted from zero. -/
structure PlacedChar where
  char : Char
  line : Nat
  column : Nat
  /-- How many bytes of UTF-8 stand before it on its line. -/
  offset : Nat
deriving DecidableEq, Repr

/-! ## Classes of characters -/

/-- Tab, line breaks, and everything that is neither a control nor reserved. -/
def isAllowed (c : Char) : Bool :=
  let n := c.toNat
  n == 0x09 || n == 0x0A || n == 0x0D || (0x20 ≤ n && n ≤ 0x7E) || n == 0x85
    || (0xA0 ≤ n && n ≤ 0xD7FF) || (0xE000 ≤ n && n ≤ 0xFFFD) || 0x10000 ≤ n

/-- A space or a tab. -/
def isBlank (c : Char) : Bool :=
  c == ' ' || c == '\t'

/-- A line feed, a line separator or a paragraph separator. -/
def isBreak (c : Char) : Bool :=
  c == '\n' || c == '\u2028' || c == '\u2029'

/-- A letter, a digit, a low line or a hyphen. -/
def isWordChar (c : Char) : Bool :=
  c.isAlphanum || c == '_' || c == '-'

/-- The value of a hexadecimal digit. -/
def hexDigit? (c : Char) : Option Nat :=
  if c.isDigit then some (c.toNat - '0'.toNat)
  else if 'a' ≤ c ∧ c ≤ 'f' then some (c.toNat - 'a'.toNat + 10)
  else if 'A' ≤ c ∧ c ≤ 'F' then some (c.toNat - 'A'.toNat + 10)
  else none

/-! ## Places -/

/-- The text with a line feed for each carriage return, each pair of both, and each next line
character. -/
def unifyBreaks : List Char → List Char
  | '\r' :: '\n' :: rest => '\n' :: unifyBreaks rest
  | '\r' :: rest => '\n' :: unifyBreaks rest
  | '\u0085' :: rest => '\n' :: unifyBreaks rest
  | c :: rest => c :: unifyBreaks rest
  | [] => []

/-- Gives each character its place; the first one stands at the given place. -/
def placedFrom (line column offset : Nat) : List Char → List PlacedChar
  | [] => []
  | c :: rest =>
    ⟨c, line, column, offset⟩ ::
      (if isBreak c then placedFrom (line + 1) 0 0 rest
      else placedFrom line (column + 1) (offset + c.utf8Size) rest)

/-- The characters of a document with their places. -/
def placed (text : String) : Except YamlError (List PlacedChar) :=
  match text.toList.find? fun c => !isAllowed c with
  | some c => .error (.forbiddenCharacter c)
  | none => .ok (placedFrom 0 0 0 (unifyBreaks text.toList))

/-! ## Looking ahead -/

/-- The text goes on with a blank or a line break, or ends. -/
def atGap : List PlacedChar → Bool
  | [] => true
  | g :: _ => isBlank g.char || isBreak g.char

/-- The text goes on with a line break, or ends. -/
def atLineEnd : List PlacedChar → Bool
  | [] => true
  | g :: _ => isBreak g.char

/-- The text goes on with one of the characters. -/
def atOneOf (chars : List Char) : List PlacedChar → Bool
  | [] => false
  | g :: _ => chars.contains g.char

/-- A line that starts with `mark` three times and then ends or goes on with a blank. -/
def atTriple (mark : Char) : List PlacedChar → Bool
  | a :: b :: c :: rest =>
    a.column == 0 && a.char == mark && b.char == mark && c.char == mark && atGap rest
  | _ => false

/-- A line that starts or ends a document. -/
def atDocumentMark (cs : List PlacedChar) : Bool :=
  atTriple '-' cs || atTriple '.' cs

/-- The text after its blanks. -/
def skipBlanks : List PlacedChar → List PlacedChar
  | [] => []
  | g :: rest => if isBlank g.char then skipBlanks rest else g :: rest

/-- The text from the end of the line on. -/
def skipLine : List PlacedChar → List PlacedChar
  | [] => []
  | g :: rest => if isBreak g.char then g :: rest else skipLine rest

/-- The text after blanks and a comment, up to the end of the line; none if something else stands
there. -/
def skipLineTail? (cs : List PlacedChar) : Option (List PlacedChar) :=
  let cs := skipBlanks cs
  let cs := if atOneOf ['#'] cs then skipLine cs else cs
  if atLineEnd cs then some cs else none

end EntityForge.Yaml
