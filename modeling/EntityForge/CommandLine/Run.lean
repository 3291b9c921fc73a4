import EntityForge.CommandLine.Arguments
import EntityForge.CommandLine.Files
import EntityForge.Dbml.Fence
import EntityForge.Dbml.Parser.Document
import EntityForge.Json.Encode
import EntityForge.Project
import EntityForge.Settings.Document

/-!
# Runs

A run reads its files in order, does what the command says, and either shows a text or fails with a
message. `Report` is what the caller of the program sees.
-/

namespace EntityForge.CommandLine

/-- Why a run fails. -/
inductive RunError where
  | configFile (error : FileError)
  | file (error : FileError)
  | settings (error : SettingsError)
  | parse (error : Dbml.ParseError)
  | project (error : ProjectError)
  | source (error : Java.SourceError)

/-- The text of the error. -/
def RunError.message : RunError → String
  | configFile e => "Failed to read config: " ++ e.message
  | file e => "I/O error: " ++ e.message
  | settings e => e.message
  | parse e => "Parse error: " ++ e.message
  | project e => e.message
  | source e => "Source error: " ++ e.message

/-- A result with errors of another kind. -/
def failingAs {ε α : Type} (wrap : ε → RunError) : Except ε α → Except RunError α
  | .ok a => .ok a
  | .error e => .error (wrap e)

/-- A value as it is shown: over several lines, with a line break at the end. -/
def shown (j : Json) : String :=
  j.pretty ++ "\n"

section

variable {m : Type → Type} [Monad m] (files : Files m)

/-- The settings in the file, or the defaults if there is no file. -/
def readSettings (path? : Option String) : ExceptT RunError m Settings :=
  match path? with
  | none => return {}
  | some path => do
    let text ← ExceptT.mk (failingAs .configFile <$> files.readText path)
    ExceptT.mk (pure (failingAs .settings (Settings.ofYaml text)))

/-- The database that the file declares. -/
def readSchema (path : String) : ExceptT RunError m Database := do
  let text ← ExceptT.mk (failingAs .file <$> files.readText path)
  ExceptT.mk (pure (failingAs .parse (Dbml.parse (Dbml.unfence text))))

/-- Does what the command says and gives the text to show. -/
def perform (s : Settings) : Command → ExceptT RunError m String
  | .generate schema output => do
    let db ← readSchema files schema
    let bytes ← ExceptT.mk (pure (failingAs .project (s.projectArchive db)))
    ExceptT.mk (failingAs .file <$> files.write output bytes)
    return ""
  | .preview schema project viaArchive => do
    let db ← readSchema files schema
    let project := project.getD s.projectName
    let tree := if viaArchive then s.projectArchiveTree db project else s.projectTree db project
    let tree ← ExceptT.mk (pure (failingAs .project tree))
    return shown tree.toJson
  | .tree archive project => do
    let bytes ← ExceptT.mk (failingAs .file <$> files.read archive)
    let tree ←
      ExceptT.mk (pure (failingAs .project (treeOfArchive bytes (project.getD s.projectName))))
    return shown tree.toJson
  | .models schema => do
    let db ← readSchema files schema
    let entities ← ExceptT.mk (pure (failingAs .project (s.entities db)))
    return shown (.arr (entities.map (·.toJson)))
  | .diff old new => do
    let old ← ExceptT.mk (failingAs .file <$> files.readText old)
    let new ← ExceptT.mk (failingAs .file <$> files.readText new)
    let changes ← ExceptT.mk (pure (failingAs .source (changesOfSources old new)))
    return shown (.arr (changes.map (·.toJson)))

/-- Reads the settings and performs the command. -/
def invoke (i : Invocation) : ExceptT RunError m String := do
  let s ← readSettings files i.config
  perform files s i.command

end

/-- What the caller of the program sees. -/
structure Report where
  exitCode : Nat
  output : String := ""
  errors : String := ""
deriving DecidableEq, Repr

/-- The name and version of the program. -/
def versionText : String := "dbscaffold 0.1.0\n"

/-- How the program is called. -/
def usageText : String :=
  "Usage: dbscaffold [-c <CONFIG>] <COMMAND>\n\nCommands:\n"
    ++ "  generate <SCHEMA> -o <OUTPUT>\n"
    ++ "  preview <SCHEMA> [-p <PROJECT>] [--via-archive]\n"
    ++ "  tree <ARCHIVE> [-p <PROJECT>]\n"
    ++ "  models <SCHEMA>\n"
    ++ "  diff <OLD> <NEW>\n"

/-- Wrong arguments end with the exit code 2; help and version are shown. -/
def UsageError.report : UsageError → Report
  | .helpWanted => ⟨0, usageText, ""⟩
  | .versionWanted => ⟨0, versionText, ""⟩
  | _ => ⟨2, "", usageText⟩

/-- Runs the program with these arguments. -/
def run {m : Type → Type} [Monad m] (files : Files m) (arguments : List String) : m Report := do
  match Invocation.ofArguments arguments with
  | .error e => return e.report
  | .ok i =>
    match ← (invoke files i).run with
    | .ok text => return ⟨0, text, ""⟩
    | .error e => return ⟨1, "", e.message ++ "\n"⟩

end EntityForge.CommandLine
