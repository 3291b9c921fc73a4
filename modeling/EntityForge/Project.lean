import EntityForge.Archive.Zip.Open
import EntityForge.Archive.Zip.Write
import EntityForge.Entity.Render
import EntityForge.FileTree.Build
import EntityForge.Settings.Basic

/-!
# Generated projects

A project is the files of all entities of a schema. It can be packed into an archive, shown as a
tree of files, or packed and shown as the tree of what the archive holds.
-/

namespace EntityForge

/-- Why no project can be made or shown. -/
inductive ProjectError where
  | settings (error : SettingsError)
  | compile (error : CompileError)
  | archive (error : Archive.ArchiveError)
  | tree (error : TreeError)
  /-- The archive to be shown as a tree cannot be read. -/
  | treeArchive (error : Archive.ArchiveError)
deriving DecidableEq, Repr

/-- The text of the error. -/
def ProjectError.message : ProjectError → String
  | settings e => e.message
  | compile e => "Compile error: " ++ e.message
  | archive e => "Archive error: " ++ e.message
  | tree e => "Tree error: " ++ e.message
  | treeArchive e => "Tree error: " ++ e.message

namespace Archive

/-- The archive of generated files, each stored under `root` and its path. -/
def ofFiles (files : List GeneratedFile) (root : String) : Except ArchiveError ByteArray :=
  match Zip.write (files.map fun f => (root ++ f.path, f.content.toUTF8)) with
  | .ok bytes => .ok bytes
  | .error e => .error (.zip e)

end Archive

/-- The tree of the files of an archive. -/
def treeOfArchive (bytes : ByteArray) (project : String) : Except ProjectError FileNode :=
  match Archive.textsOfBytes bytes with
  | .error e => .error (.treeArchive e)
  | .ok texts =>
    match FileNode.build (texts.map fun t => FileNode.ofFile t.1 t.2) project with
    | .error e => .error (.tree e)
    | .ok root => .ok root

namespace Settings

/-- The entities of the schema. -/
def entities (s : Settings) (db : Database) : Except ProjectError (List Entity) :=
  match s.compiler with
  | .error e => .error (.settings e)
  | .ok c =>
    match c.compileSchema db s.schema with
    | .error e => .error (.compile e)
    | .ok entities => .ok entities

/-- The files of the entities of the schema, each under the folder of the package. -/
def sourceFiles (s : Settings) (db : Database) : Except ProjectError (List GeneratedFile) :=
  match s.entities db with
  | .error e => .error e
  | .ok entities =>
    .ok ((entities.flatMap (·.files)).map fun f => { f with path := s.basePath ++ f.path })

/-- The archive of the project. -/
def projectArchive (s : Settings) (db : Database) : Except ProjectError ByteArray :=
  match s.sourceFiles db with
  | .error e => .error e
  | .ok files =>
    match Archive.ofFiles files "" with
    | .error e => .error (.archive e)
    | .ok bytes => .ok bytes

/-- The tree of the project. -/
def projectTree (s : Settings) (db : Database) (project : String) :
    Except ProjectError FileNode :=
  match s.sourceFiles db with
  | .error e => .error e
  | .ok files =>
    match FileNode.build (files.map fun f => FileNode.ofFile f.path f.content) project with
    | .error e => .error (.tree e)
    | .ok root => .ok root

/-- The tree of what the archive of the project holds. -/
def projectArchiveTree (s : Settings) (db : Database) (project : String) :
    Except ProjectError FileNode :=
  match s.projectArchive db with
  | .error e => .error e
  | .ok bytes => treeOfArchive bytes project

end Settings

end EntityForge
