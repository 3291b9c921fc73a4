import EntityForge.Proofs.FileTree.Children

/-!
# Insertions that fail

An insertion creates the folders that are missing on the way to a file before it is known whether
the file has a place. Below a created folder nothing is in the way (`place_of_empty`), so that no
error follows a creation, and the errors are told by what is left as it is: an insertion fails
exactly if the tree is the same after it, whatever nodes it is made of (`insert_eq_self_iff`).
-/

namespace EntityForge.FileNode

section
variable {key : String} {node : FileNode} {cs : List (String × FileNode)}

/-- To set a child changes nothing exactly if it is there already. -/
theorem setChild_eq_self_iff : setChild key node cs = cs ↔ cs.lookup key = some node := by
  constructor
  · intro h
    have hset := lookup_setChild key node cs key
    rwa [h, if_pos rfl] at hset
  · intro h
    obtain ⟨before, after, hcs, hset⟩ := exists_setChild h node
    exact hset.trans hcs.symm

end

/-- A file finds a place below an empty folder. -/
theorem place_of_empty (node : FileNode) (base : String) {keys : List String} (h : keys ≠ []) :
    (place node base keys []).1 = .ok () := by
  induction keys generalizing base with
  | nil => exact absurd rfl h
  | cons key keys ih =>
    cases keys with
    | nil => rfl
    | cons more rest => exact ih (base ++ "/" ++ key) (List.cons_ne_nil more rest)

/-- A file finds no place among children exactly if they stay as they are. -/
theorem place_eq_self_iff (node : FileNode) (base : String) (keys : List String)
    (cs : List (String × FileNode)) :
    (place node base keys cs).2 = cs ↔ ∃ e, (place node base keys cs).1 = .error e := by
  induction keys generalizing base cs with
  | nil => exact iff_of_true rfl ⟨_, rfl⟩
  | cons key keys ih =>
    cases keys with
    | nil =>
      cases hkey : cs.lookup key with
      | none => simp [place, hkey]
      | some n => cases n <;> simp [place, hkey]
    | cons more rest =>
      cases hkey : cs.lookup key with
      | none =>
        -- the folder is created, and the file has a place below it
        have hok := place_of_empty node (base ++ "/" ++ key) (List.cons_ne_nil more rest)
        simp [place, hkey, hok, setChild_eq_self_iff]
      | some n =>
        cases n with
        | file => simp [place, hkey]
        | folder n p below =>
          -- the folder is set again, with what the rest of the walk makes of its children
          simp only [place, hkey, Option.getD_some, setChild_eq_self_iff, Option.some.injEq,
            folder.injEq, true_and]
          rw [eq_comm]
          exact ih (base ++ "/" ++ key) below

/-- An insertion fails exactly if the tree is the same after it: no error leaves a folder behind,
and no success goes without a change. -/
theorem insert_eq_self_iff (root node : FileNode) :
    (root.insert node).2 = root ↔ ∃ e, (root.insert node).1 = .error e := by
  cases node with
  | folder name path cs => exact iff_of_true rfl ⟨_, rfl⟩
  | file name path content language =>
    cases root with
    | file n p c l => exact iff_of_true rfl ⟨_, rfl⟩
    | folder n p cs =>
      simpa [insert] using place_eq_self_iff (.file name path content language) p (segments path) cs

/-- The path passes through a file below folders that stand already: none of the folders after it
is created. -/
example : (folder "p" "p" [("a", folder "a" "p/a" [("b", file "b" "a/b" "" .text)])]).insert
      (ofFile "a/b/c/d" "") =
    (.error (.fileAsFolder "p/a/b"),
      folder "p" "p" [("a", folder "a" "p/a" [("b", file "b" "a/b" "" .text)])]) := by rfl

end EntityForge.FileNode
