import EntityForge.Text.Split
import EntityForge.Unicode.RangeSet

/-!
# Blank characters

`isBlank` is the property White_Space of Unicode. `trimStart`, `trimEnd` and `trim` drop blanks at
the ends of a text, and `splitBlank` cuts a text into its words.
-/

namespace EntityForge.Unicode

/-- Characters with the property White_Space. -/
def blankRanges : RangeSet := [
  (0x0009, 0x000D), (0x0020, 0x0020), (0x0085, 0x0085), (0x00A0, 0x00A0), (0x1680, 0x1680),
  (0x2000, 0x200A), (0x2028, 0x2029), (0x202F, 0x202F), (0x205F, 0x205F), (0x3000, 0x3000)]

/-- The character has the property White_Space. -/
def isBlank (c : Char) : Bool :=
  blankRanges.contains c

/-- The text without the blanks it starts with. -/
def trimStart (cs : List Char) : List Char :=
  cs.dropWhile isBlank

/-- The text without the blanks it ends with. -/
def trimEnd (cs : List Char) : List Char :=
  (cs.reverse.dropWhile isBlank).reverse

/-- The text without the blanks at its two ends. -/
def trim (cs : List Char) : List Char :=
  trimEnd (trimStart cs)

/-- The words of a text: its maximal pieces without blanks. -/
def splitBlank (cs : List Char) : List (List Char) :=
  Text.piecesBy isBlank cs

end EntityForge.Unicode
