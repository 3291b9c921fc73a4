import EntityForge.Yaml.Character

/-!
# Gaps between words

Between two words of a scalar stand blanks and line breaks. A gap on one line is kept as it is. Of a
gap with line breaks the blanks are dropped, and a single line feed counts as a space: `folded`.
-/

namespace EntityForge.Yaml

/-- What stands after the last word of a scalar; characters are held last first. -/
inductive Gap where
  /-- Blanks on the line of the word. -/
  | blanks (read : List Char)
  /-- Line breaks: the first, unless it was escaped, and those after it. -/
  | breaks (first : Option Char) (read : List Char)
deriving DecidableEq, Repr

namespace Gap

/-- No gap. -/
def empty : Gap := .blanks []

/-- The gap has a line break. -/
def isBroken : Gap → Bool
  | blanks _ => false
  | breaks _ _ => true

/-- The gap with one more blank or line break. -/
def push (c : Char) : Gap → Gap
  | blanks read => if isBreak c then breaks (some c) [] else blanks (c :: read)
  | breaks first read => if isBreak c then breaks first (c :: read) else breaks first read

/-- The characters that the gap stands for, last first. -/
def folded : Gap → List Char
  | blanks read => read
  | breaks (some '\n') [] => [' ']
  | breaks (some '\n') read => read
  | breaks (some c) read => read ++ [c]
  | breaks none read => read

end Gap

end EntityForge.Yaml
