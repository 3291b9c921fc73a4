import EntityForge.Archive.Bytes
import EntityForge.Text.Split

/-!
# Files

A run reads and writes files through `Files`, whatever stands behind it. `Folder` is a folder that
is a plain value: files by path, and the folders on the way to them.
-/

namespace EntityForge.CommandLine

/-- Why a file cannot be read or written. -/
inductive FileError where
  | notFound
  | notAFolder
  | isAFolder
  | nameTooLong
  /-- The bytes of the file are no text. -/
  | notText
  /-- Another reason, in the words of the system. -/
  | other (message : String)
deriving DecidableEq, Repr

/-- The text of the error. -/
def FileError.message : FileError → String
  | notFound => "No such file or directory (os error 2)"
  | notAFolder => "Not a directory (os error 20)"
  | isAFolder => "Is a directory (os error 21)"
  | nameTooLong => "File name too long (os error 36)"
  | notText => "stream did not contain valid UTF-8"
  | other m => m

/-- How files are read and written. -/
structure Files (m : Type → Type) where
  read : String → m (Except FileError ByteArray)
  write : String → ByteArray → m (Except FileError Unit)

/-- Reads a file as a text. -/
def Files.readText {m : Type → Type} [Monad m] (files : Files m) (path : String) :
    m (Except FileError String) := do
  match ← files.read path with
  | .error e => return .error e
  | .ok bytes =>
    match String.fromUTF8? bytes with
    | some text => return .ok text
    | none => return .error .notText

/-- A folder: the segments of the path of each file, and its bytes. -/
abbrev Folder := List (List String × ByteArray)

namespace Folder

/-- What stands at a path. -/
inductive Place where
  | file (bytes : ByteArray)
  | folder
  | nothing
  /-- No file can have such a name. -/
  | nameTooLong

/-- The longest name of a file, in bytes. -/
def maxNameSize : Nat := 255

/-- The longest path, in bytes. -/
def maxPathSize : Nat := 4095

/-- What stands at the path with these segments. -/
def at_ (f : Folder) (segments : List String) : Place :=
  match f.find? fun e => e.1 == segments with
  | some e => .file e.2
  | none =>
    if segments.isEmpty || f.any fun e => segments.isPrefixOf e.1 then .folder
    else if segments.getLast?.any fun name => maxNameSize < name.utf8ByteSize then .nameTooLong
    else .nothing

/-- The parts of a path between slashes. -/
def partsOf (path : String) : List String :=
  (Text.splitBy (· == '/') path.toList).map String.ofList

/-- Why a path that leads out of the folder names no file: it stays at a folder above this one, or
it goes on to something unknown. -/
def outside (parts : List String) : FileError :=
  match parts.find? fun part => part ≠ "" && part ≠ "." && part ≠ ".." with
  | none => .isAFolder
  | some name => if maxNameSize < name.utf8ByteSize then .nameTooLong else .notFound

/-- Follows the parts of a path from a folder. An empty part and `.` stay where they are, `..` goes
up, and all parts but the last have to name folders. -/
def walk (f : Folder) (here : List String) : List String → Except FileError (List String)
  | [] => .ok here
  | part :: rest =>
    match f.at_ here with
    | .file _ => .error .notAFolder
    | .nothing => .error .notFound
    | .nameTooLong => .error .nameTooLong
    | .folder =>
      if part = "" || part = "." then walk f here rest
      else if part = ".." then
        if here.isEmpty then .error (outside rest) else walk f here.dropLast rest
      else walk f (here ++ [part]) rest

/-- The segments of the file at a path; a path that starts with a slash leads out of the folder, and
the empty path leads nowhere. -/
def locate (f : Folder) (path : String) : Except FileError (List String) :=
  if path = "" then .error .notFound
  else if maxPathSize < path.utf8ByteSize then .error .nameTooLong
  else if path.startsWith "/" then .error (outside (partsOf path))
  else f.walk [] (partsOf path)

/-- The bytes of the file at a path. -/
def read (f : Folder) (path : String) : Except FileError ByteArray := do
  match f.at_ (← f.locate path) with
  | .file bytes => .ok bytes
  | .folder => .error .isAFolder
  | .nothing => .error .notFound
  | .nameTooLong => .error .nameTooLong

/-- The path without the slashes at its end; a slash that it starts with stays. -/
def withoutEndSlashes (path : String) : String :=
  match path.toList with
  | [] => ""
  | c :: rest => String.ofList (c :: (rest.reverse.dropWhile (· == '/')).reverse)

/-- The folder with a file of these bytes at the path. A path that ends in a slash names a folder,
whether there is one or not. -/
def write (f : Folder) (path : String) (bytes : ByteArray) : Except FileError Folder := do
  if maxPathSize < path.utf8ByteSize then .error .nameTooLong
  let segments ← f.locate (withoutEndSlashes path)
  if path.endsWith "/" then .error .isAFolder
  else
    match f.at_ segments with
    | .folder => .error .isAFolder
    | .nothing => .ok (f ++ [(segments, bytes)])
    | .nameTooLong => .error .nameTooLong
    | .file _ => .ok (f.map fun e => if e.1 == segments then (segments, bytes) else e)

/-- Reading and writing in a folder that is carried along. -/
def files : Files (StateM Folder) where
  read path := do return (← get).read path
  write path bytes := do
    match (← get).write path bytes with
    | .error e => return .error e
    | .ok f =>
      set f
      return .ok ()

end Folder

end EntityForge.CommandLine
