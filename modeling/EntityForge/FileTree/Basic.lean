import EntityForge.FileTree.Language
import EntityForge.Text.Split

/-!
# File trees

A node is a file or a folder, and both have a name and a path. A folder keeps its children under
keys, in the order in which they were added; a key is the path segment under which a child was
added.
-/

namespace EntityForge

/-- A file, or a folder with its children and their keys. -/
inductive FileNode where
  | file (name path content : String) (language : Language)
  | folder (name path : String) (children : List (String × FileNode))

namespace FileNode

/-- The parts of a path between slashes, the empty ones left out. -/
def segments (path : String) : List String :=
  (Text.piecesBy (· == '/') path.toList).map String.ofList

/-- What follows the last slash of a path. -/
def baseName (path : String) : String :=
  String.ofList ((Text.splitBy (· == '/') path.toList).getLastD [])

/-- The file at a path, named after what follows the last slash. -/
def ofFile (path content : String) : FileNode :=
  file (baseName path) path content (Language.ofFileName (baseName path))

/-- The node's own name. -/
def name : FileNode → String
  | file n _ _ _ => n
  | folder n _ _ => n

/-- The node's path. -/
def path : FileNode → String
  | file _ p _ _ => p
  | folder _ p _ => p

/-- The node is a folder. -/
def isFolder : FileNode → Bool
  | file .. => false
  | folder .. => true

/-- The children of a folder with their keys; a file has none. -/
def children : FileNode → List (String × FileNode)
  | file .. => []
  | folder _ _ cs => cs

/-- The child under that key. -/
def child? (n : FileNode) (key : String) : Option FileNode :=
  n.children.lookup key

/-- The node that a list of keys leads to. -/
def walk? (n : FileNode) : List String → Option FileNode
  | [] => some n
  | key :: rest => (n.child? key).bind (·.walk? rest)

mutual

/-- The files below a node, depth first. -/
def files : FileNode → List FileNode
  | file .. => []
  | folder _ _ cs => filesAmong cs

/-- The files among and below the children, depth first. -/
def filesAmong : List (String × FileNode) → List FileNode
  | [] => []
  | (_, file n p c l) :: rest => file n p c l :: filesAmong rest
  | (_, folder n p cs) :: rest => files (folder n p cs) ++ filesAmong rest

end

mutual

/-- The folders below a node, each before those inside it. -/
def folders : FileNode → List FileNode
  | file .. => []
  | folder _ _ cs => foldersAmong cs

/-- The folders among and below the children, each before those inside it. -/
def foldersAmong : List (String × FileNode) → List FileNode
  | [] => []
  | (_, file ..) :: rest => foldersAmong rest
  | (_, folder n p cs) :: rest => folder n p cs :: (folders (folder n p cs) ++ foldersAmong rest)

end

end FileNode

end EntityForge
