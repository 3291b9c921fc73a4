import EntityForge.FileTree.Basic

/-!
# Building a tree from files

`FileNode.insert` adds a file below a folder along the segments of its path, and creates the folders
that are missing on the way. It gives the tree as it then is, whether the file found a place or not.
`FileNode.build` inserts a list of files and stops at the first that finds none.
-/

namespace EntityForge

/-- Why a file has no place in a tree. -/
inductive TreeError where
  /-- The path passes through a file. -/
  | fileAsFolder (path : String)
  /-- The path is that of a folder. -/
  | folderAsFile (path : String)
  | duplicateFile (path : String)
  /-- The node to be placed is a folder. -/
  | notAFile (path : String)
  /-- The path has no segments. -/
  | emptyPath
deriving DecidableEq, Repr

/-- The text of the error. -/
def TreeError.message : TreeError → String
  | fileAsFolder p => "'" ++ p ++ "' is a file but is used as a folder"
  | folderAsFile p => "'" ++ p ++ "' is a folder but is supplied as a file"
  | duplicateFile p => "duplicate file '" ++ p ++ "'"
  | notAFile p => "'" ++ p ++ "' is not a file node"
  | emptyPath => "file path has no segments"

namespace FileNode

/-- Puts a node under a key: in the place of the child that is there, or at the end. -/
def setChild (key : String) (node : FileNode) : List (String × FileNode) → List (String × FileNode)
  | [] => [(key, node)]
  | (k, n) :: rest => if k == key then (k, node) :: rest else (k, n) :: setChild key node rest

/-- Adds a node to the children of the folder at `base`, under the last of the segments and below
folders named by the others. -/
def place (node : FileNode) (base : String) :
    List String → List (String × FileNode) → Except TreeError Unit × List (String × FileNode)
  | [], cs => (.error .emptyPath, cs)
  | [key], cs =>
    match cs.lookup key with
    | some (.folder ..) => (.error (.folderAsFile (base ++ "/" ++ key)), cs)
    | some (.file ..) => (.error (.duplicateFile (base ++ "/" ++ key)), cs)
    | none => (.ok (), cs ++ [(key, node)])
  | key :: more :: rest, cs =>
    let path := base ++ "/" ++ key
    match (cs.lookup key).getD (.folder key path []) with
    | .file .. => (.error (.fileAsFolder path), cs)
    | .folder n p below =>
      let (result, below) := place node path (more :: rest) below
      (result, setChild key (.folder n p below) cs)

/-- Adds a file below a folder. -/
def insert (root node : FileNode) : Except TreeError Unit × FileNode :=
  match node with
  | .folder _ path _ => (.error (.notAFile path), root)
  | .file _ path _ _ =>
    match root with
    | .file .. => (.error (.fileAsFolder root.path), root)
    | .folder n p cs =>
      let (result, cs) := place node p (segments path) cs
      (result, .folder n p cs)

/-- Adds files below a folder, in order. -/
def insertAll (root : FileNode) : List FileNode → Except TreeError FileNode
  | [] => .ok root
  | node :: rest =>
    match root.insert node with
    | (.ok (), root) => insertAll root rest
    | (.error e, _) => .error e

/-- The tree of a project with these files. -/
def build (nodes : List FileNode) (project : String) : Except TreeError FileNode :=
  insertAll (.folder project project []) nodes

end FileNode

end EntityForge
