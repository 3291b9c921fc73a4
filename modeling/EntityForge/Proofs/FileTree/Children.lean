import EntityForge.FileTree.Build
import EntityForge.Proofs.Keyed

/-!
# Children and their keys

The children of a folder are found by key (`lookup_setChild`). To set a child leaves those before
and after it as they are (`exists_setChild`), or adds it at the end (`setChild_of_lookup_none`), so
that keys stay in the order in which they first came (`map_fst_setChild`). The files and folders
below a folder are those of its children, one child after the other (`files_folder`,
`folders_folder`).
-/

namespace EntityForge.FileNode

open Keyed

@[simp] theorem path_ofFile (p content : String) : (ofFile p content).path = p := rfl

@[simp] theorem isFolder_ofFile (p content : String) : (ofFile p content).isFolder = false := rfl

/-! ## Children by key -/

theorem setChild_eq_put (key : String) (node : FileNode) (cs : List (String × FileNode)) :
    setChild key node cs = put key node cs := by
  induction cs with
  | nil => rfl
  | cons c cs ih => rw [setChild, put, ih]

theorem lookup_setChild (key : String) (node : FileNode) (cs : List (String × FileNode))
    (k : String) :
    (setChild key node cs).lookup k = if k = key then some node else cs.lookup k := by
  rw [setChild_eq_put, lookup_put]

section
variable {cs : List (String × FileNode)} {key : String}

/-- A child that is set under a new key comes last. -/
theorem setChild_of_lookup_none (h : cs.lookup key = none) (node : FileNode) :
    setChild key node cs = cs ++ [(key, node)] := by
  rw [setChild_eq_put, put_of_lookup_none h]

/-- A child that is set under a used key takes the place of the one that was there. -/
theorem exists_setChild {old : FileNode} (h : cs.lookup key = some old) (node : FileNode) :
    ∃ before after, cs = before ++ (key, old) :: after ∧
      setChild key node cs = before ++ (key, node) :: after := by
  rw [setChild_eq_put]
  exact exists_put h node

theorem map_fst_setChild (key : String) (node : FileNode) (cs : List (String × FileNode)) :
    (setChild key node cs).map (·.1) =
      if key ∈ cs.map (·.1) then cs.map (·.1) else cs.map (·.1) ++ [key] := by
  rw [setChild_eq_put, map_fst_put]

end

/-! ## Files and folders below -/

/-- The node if it is a file, and otherwise the files below it. -/
def filesFrom (n : FileNode) : List FileNode :=
  if n.isFolder then n.files else [n]

/-- The node, if it is a folder, and the folders below it. -/
def foldersFrom (n : FileNode) : List FileNode :=
  if n.isFolder then n :: n.folders else []

theorem files_folder (name path : String) (cs : List (String × FileNode)) :
    (folder name path cs).files = cs.flatMap fun c => c.2.filesFrom := by
  rw [files]
  induction cs with
  | nil => rfl
  | cons c cs ih =>
    obtain ⟨key, n⟩ := c
    rw [List.flatMap_cons, ← ih]
    cases n <;> rfl

theorem filesFrom_folder (name path : String) (cs : List (String × FileNode)) :
    (folder name path cs).filesFrom = cs.flatMap fun c => c.2.filesFrom :=
  files_folder name path cs

theorem folders_folder (name path : String) (cs : List (String × FileNode)) :
    (folder name path cs).folders = cs.flatMap fun c => c.2.foldersFrom := by
  rw [folders]
  induction cs with
  | nil => rfl
  | cons c cs ih =>
    obtain ⟨key, n⟩ := c
    rw [List.flatMap_cons, ← ih]
    cases n <;> rfl

theorem foldersFrom_folder (name path : String) (cs : List (String × FileNode)) :
    (folder name path cs).foldersFrom =
      folder name path cs :: (folder name path cs).folders := rfl

end EntityForge.FileNode
