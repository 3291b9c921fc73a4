import EntityForge.Entity.Compile
import EntityForge.Unicode.Blank
import EntityForge.Yaml.Error

/-!
# Settings of a project

Settings say in which package classes are generated, from which schema, what the project is called
and which column types have a type of their own.
-/

namespace EntityForge

/-- The name of a project if none is given. -/
def defaultProjectName : String := "PreviewProject"

/-- Where the sources of a project are. -/
def sourceRoot : String := "src/main/java/"

/-- Why settings cannot be used. -/
inductive SettingsError where
  /-- The settings are not written as one YAML document. -/
  | document (error : Yaml.YamlError)
  /-- A part of the document is not what stands in settings. -/
  | shape (part : String)
  /-- A setting is given twice. -/
  | repeatedKey (key : String)
  | unknownTarget (error : UnknownTarget)
  | emptyPackage
deriving DecidableEq, Repr

/-- The text of the error. -/
def SettingsError.message : SettingsError → String
  | document e => "Invalid config: " ++ e.message
  | shape part => "Invalid config: invalid type of " ++ part
  | repeatedKey key => "Invalid config: duplicate field " ++ key
  | unknownTarget e => e.message
  | emptyPackage => "package_name must not be empty"

/-- The settings of a project. -/
structure Settings where
  packageName : String := defaultPackage
  schema : String := defaultSchema
  projectName : String := defaultProjectName
  /-- Names of target types by column type, sorted by column type. -/
  typeOverrides : List (String × String) := []
deriving DecidableEq, Repr

namespace Settings

/-- Puts a name under a key of a sorted list: in the place of the one that is there, or in order. -/
def putOverride (key name : String) : List (String × String) → List (String × String)
  | [] => [(key, name)]
  | (k, n) :: rest =>
    if key < k then (key, name) :: (k, n) :: rest
    else if k == key then (k, name) :: rest
    else (k, n) :: putOverride key name rest

/-- The sorted overrides of a list in which the last entry of a key counts. -/
def overridesOf (entries : List (String × String)) : List (String × String) :=
  entries.foldl (fun done e => putOverride e.1 e.2 done) []

/-- The map of types with the overrides, in the order of their keys. -/
def typeMap (s : Settings) : Except SettingsError TypeMap :=
  match TypeMap.addAll {} s.typeOverrides with
  | .ok m => .ok m
  | .error e => .error (.unknownTarget e)

/-- The settings can be used: the package has a name and every override a known target. -/
def validate (s : Settings) : Except SettingsError Unit :=
  if (Unicode.trim s.packageName.toList).isEmpty then .error .emptyPackage
  else
    match s.typeMap with
    | .ok _ => .ok ()
    | .error e => .error e

/-- The compiler with these settings. -/
def compiler (s : Settings) : Except SettingsError Compiler :=
  match s.typeMap with
  | .ok m => .ok ⟨s.packageName, m⟩
  | .error e => .error e

/-- The folder of the package, with a slash at its end. -/
def basePath (s : Settings) : String :=
  sourceRoot
    ++ String.ofList (s.packageName.toList.map fun c => if c = '.' then '/' else c) ++ "/"

end Settings

end EntityForge
