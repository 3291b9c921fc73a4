import EntityForge.Text.Search
import EntityForge.Unicode.Blank

/-!
# Fenced documents

A schema document may stand inside other text, between a line of three backticks with the word
`dbml` and one of three backticks. `unfence` finds the first such document.
-/

namespace EntityForge.Dbml

/-- What opens a fenced document. -/
def fenceStart : List Char := "\x60\x60\x60dbml".toList

/-- What closes a fenced document. -/
def fenceEnd : List Char := "\x60\x60\x60".toList

/-- The characters of the first fenced document without blanks around them, if one is closed. -/
def fencedBody? (cs : List Char) : Option (List Char) := do
  let (_, body) ← Text.cutAtFirst fenceStart cs
  let (body, _) ← Text.cutAtFirst fenceEnd body
  some (Unicode.trim body)

/-- The first fenced document of a text, or the text itself if no fence is closed. -/
def unfence (raw : String) : String :=
  match fencedBody? raw.toList with
  | some body => String.ofList body
  | none => raw

end EntityForge.Dbml
