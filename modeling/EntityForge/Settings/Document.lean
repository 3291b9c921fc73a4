import EntityForge.Settings.Basic
import EntityForge.Yaml.Document

/-!
# Settings as a document

Settings are written as a YAML mapping. A setting that is not given has its default, and keys that
are no settings are ignored. A text is taken as it is written, so `5` and `null` are names like any
other.
-/

namespace EntityForge

/-- The settings that a document gives. -/
structure GivenSettings where
  packageName : Option String := none
  schema : Option String := none
  projectName : Option String := none
  typeOverrides : Option (List (String × String)) := none

namespace GivenSettings

/-- The settings, with defaults for those that are not given. -/
def complete (g : GivenSettings) : Settings :=
  let defaults : Settings := {}
  { packageName := g.packageName.getD defaults.packageName
    schema := g.schema.getD defaults.schema
    projectName := g.projectName.getD defaults.projectName
    typeOverrides := g.typeOverrides.getD defaults.typeOverrides }

end GivenSettings

namespace Settings

open Yaml (Document Node)

/-- The text of a scalar. -/
def textOf (d : Document) (part : String) (node : Node) : Except SettingsError String :=
  match d.scalar? node with
  | some s => .ok s.text
  | none => .error (.shape part)

/-- The overrides of a mapping between texts. -/
def overridesOfNode (d : Document) (part : String) (node : Node) :
    Except SettingsError (List (String × String)) :=
  match d.entries? node with
  | none => .error (.shape part)
  | some entries => do
    let texts ← entries.mapM fun (key, value) => do
      .ok ((← textOf d part key), (← textOf d part value))
    .ok (overridesOf texts)

/-- A setting that can be given once. -/
def once {α : Type} (key : String) (given : Option α) (value : Except SettingsError α) :
    Except SettingsError (Option α) :=
  if given.isSome then .error (.repeatedKey key) else value.map some

/-- Adds an entry of the document to the settings. -/
def addEntry (d : Document) (g : GivenSettings) (entry : Node × Node) :
    Except SettingsError GivenSettings := do
  let key ← textOf d "a key" entry.1
  if key = "package_name" then
    .ok { g with packageName := ← once key g.packageName (textOf d key entry.2) }
  else if key = "schema" then
    .ok { g with schema := ← once key g.schema (textOf d key entry.2) }
  else if key = "project_name" then
    .ok { g with projectName := ← once key g.projectName (textOf d key entry.2) }
  else if key = "type_overrides" then
    .ok { g with typeOverrides := ← once key g.typeOverrides (overridesOfNode d key entry.2) }
  else .ok g

/-- The settings of a document. A document without content gives none. -/
def ofDocument (d : Document) : Except SettingsError Settings :=
  match d.root with
  | none => .ok {}
  | some root =>
    match d.entries? root with
    | none => .error (.shape "the document")
    | some entries => (entries.foldlM (addEntry d) {}).map (·.complete)

/-- Reads settings that can be used. -/
def ofYaml (text : String) : Except SettingsError Settings := do
  match Document.ofText text with
  | .error e => .error (.document e)
  | .ok d =>
    let s ← ofDocument d
    s.validate
    .ok s

end Settings

end EntityForge
