import EntityForge.Change
import EntityForge.Dbml.Fence
import EntityForge.Dbml.Parser.Document
import EntityForge.Json.Encode
import EntityForge.Project

/-!
# Texts in, texts out

Entry points for a program that embeds the library and shares only texts with it: documents come in
as texts, results go out as JSON on one line, and an error is its message.
-/

namespace EntityForge.Embedding

/-- The tree of the project of a schema document with default settings. -/
def previewProject (source : String) (project : Option String) : Except String String :=
  match Dbml.parse (Dbml.unfence source) with
  | .error e => .error e.message
  | .ok db =>
    let settings : Settings := {}
    match settings.projectTree db (project.getD settings.projectName) with
    | .error e => .error e.message
    | .ok tree => .ok tree.toJson.compact

/-- The changes of fields between two sources. -/
def compareSources (old new : String) : Except String String :=
  match changesOfSources old new with
  | .error e => .error e.message
  | .ok changes => .ok (Json.arr (changes.map (·.toJson))).compact

end EntityForge.Embedding
