import EntityForge.Proofs.FileTree.Placed

/-!
# The files of a tree

The files of a tree that is built are those it was built from, each once and unchanged. A file comes
to stand among them after all that are placed in the same folder (`MadeOf.addedAmong_place`), so
that the files of one folder keep their order (`build_files_stable`).
-/

namespace EntityForge.FileNode

open Keyed

/-- The keys of the folder that a file is placed in. -/
def folderKeys (n : FileNode) : List String := (segments n.path).dropLast

/-! ## Placing one file -/

/-- A file is added somewhere among those below a folder, and those that follow it stand in other
folders. -/
def AddedAmong (routes : List Route) (keys : List String) (node : FileNode)
    (old new : List FileNode) : Prop :=
  ∃ before after, old = before ++ after ∧ new = before ++ node :: after ∧
    ∀ f ∈ after, ∃ other, (other, f) ∈ routes ∧ other.dropLast ≠ keys.dropLast

theorem AddedAmong.last (routes : List Route) (keys : List String) (node : FileNode)
    (old : List FileNode) : AddedAmong routes keys node old (old ++ [node]) :=
  ⟨old, [], (List.append_nil old).symm, rfl, fun _ hf => absurd hf List.not_mem_nil⟩

namespace MadeOf

section
variable {name path key : String} {routes : List Route} {cs : List (String × FileNode)}
  {node : FileNode}

/-- A file that is added below a child is added below the folder. The files of later children
stand in other folders. -/
theorem addedAmong_setChild (h : MadeOf name path routes (.folder name path cs))
    {keys : List String} (hkeys : keys ≠ []) {old new : FileNode} (hold : cs.lookup key = some old)
    (holdFolder : old.isFolder = true)
    (hadded : AddedAmong (routesAfter [key] routes) keys node old.filesFrom new.filesFrom) :
    AddedAmong routes (key :: keys) node (cs.flatMap fun c => c.2.filesFrom)
      ((setChild key new cs).flatMap fun c => c.2.filesFrom) := by
  have hdropLast : (key :: keys).dropLast = key :: keys.dropLast :=
    List.dropLast_cons_of_ne_nil hkeys
  have hnodup := h.nodup_keys
  have hbelow := h.of_lookup hold
  obtain ⟨before, after, hcs, hset⟩ := exists_setChild hold new
  obtain ⟨first, last, hfirst, hnew, hlast⟩ := hadded
  refine ⟨before.flatMap (fun c => c.2.filesFrom) ++ first,
    last ++ after.flatMap (fun c => c.2.filesFrom), ?_, ?_, fun f hf => ?_⟩
  · rw [hcs, List.flatMap_append, List.flatMap_cons, hfirst]
    simp only [List.append_assoc]
  · rw [hset, List.flatMap_append, List.flatMap_cons, hnew]
    simp only [List.append_assoc, List.cons_append]
  · rw [hdropLast]
    rcases List.mem_append.1 hf with hf | hf
    · -- a file below the same child
      obtain ⟨other, hmem, hne⟩ := hlast f hf
      refine ⟨key :: other, mem_routesAfter.1 hmem, ?_⟩
      cases old with
      | file => cases holdFolder
      | folder n p below =>
        obtain ⟨rfl, rfl⟩ := hbelow.name_eq_and_path_eq
        rw [List.dropLast_cons_of_ne_nil (hbelow.ne_nil _ hmem)]
        exact fun heq => hne (List.cons.inj heq).2
    · -- a file below a child with another key
      obtain ⟨⟨k, child⟩, hc, hf⟩ := List.mem_flatMap.1 hf
      have hmemCs : (k, child) ∈ cs := hcs ▸ List.mem_append_right _ (.tail _ hc)
      obtain ⟨rest, hmem⟩ :=
        (h.of_lookup (lookup_of_mem hnodup hmemCs)).exists_mem_of_mem_filesFrom hf
      have hk : k ≠ key := by
        rw [hcs, List.map_append, List.map_cons] at hnodup
        have hnotMem := (List.nodup_cons.1 (List.nodup_append.1 hnodup).2.1).1
        have hmemKeys : k ∈ after.map (·.1) := List.mem_map_of_mem (f := Prod.fst) hc
        exact fun heq => hnotMem (heq ▸ hmemKeys)
      refine ⟨k :: rest, mem_routesAfter.1 hmem, fun heq => ?_⟩
      cases rest with
      | nil => cases heq
      | cons r rest => exact hk (List.cons.inj heq).1

/-- A file that finds a place is added among the files below the folder, behind those of its own
folder. -/
theorem addedAmong_place (hfile : node.isFolder = false) {keys : List String}
    (h : MadeOf name path routes (.folder name path cs))
    (hok : (FileNode.place node path keys cs).1 = .ok ()) :
    AddedAmong routes keys node (cs.flatMap fun c => c.2.filesFrom)
      ((FileNode.place node path keys cs).2.flatMap fun c => c.2.filesFrom) := by
  have hself : node.filesFrom = [node] := by rw [filesFrom, hfile]; rfl
  induction keys generalizing name path routes cs with
  | nil => cases hok
  | cons key keys ih =>
    cases keys with
    | nil =>
      cases hkey : cs.lookup key with
      | none =>
        simp only [FileNode.place, hkey, List.flatMap_append, List.flatMap_singleton, hself]
        exact .last routes [key] node _
      | some n => cases n <;> simp [FileNode.place, hkey] at hok
    | cons more keys =>
      cases hkey : cs.lookup key with
      | none =>
        -- a new folder comes last, and the file is all there is below it
        simp only [FileNode.place, hkey, Option.getD_none] at hok ⊢
        obtain ⟨first, last, hnil, hnew, -⟩ := ih (.empty key _) hok
        obtain ⟨rfl, rfl⟩ := List.append_eq_nil_iff.1 hnil.symm
        rw [setChild_of_lookup_none hkey, List.flatMap_append, List.flatMap_singleton,
          filesFrom_folder, hnew]
        exact .last routes _ node _
      | some n =>
        cases n with
        | file => simp [FileNode.place, hkey] at hok
        | folder n p below =>
          have hbelow := h.of_lookup hkey
          obtain ⟨rfl, rfl⟩ := hbelow.name_eq_and_path_eq
          simp only [FileNode.place, hkey, Option.getD_some] at hok ⊢
          refine h.addedAmong_setChild (List.cons_ne_nil _ _) hkey rfl ?_
          rw [filesFrom_folder, filesFrom_folder]
          exact ih hbelow hok

end

end MadeOf

/-! ## All files -/

section
variable {project : String} {before nodes : List FileNode} {root : FileNode}

theorem files_insert (h : BuiltFrom project before root) {node root' : FileNode}
    (hinsert : root.insert node = (.ok (), root')) :
    AddedAmong (routesOf before) (segments node.path) node root.files root'.files := by
  obtain ⟨cs, rfl, hmade⟩ := h
  cases hfile : node.isFolder with
  | true =>
    cases node with
    | file => cases hfile
    | folder => cases hinsert
  | false =>
    rw [insert_eq_place cs hfile] at hinsert
    obtain ⟨hok, rfl⟩ := Prod.mk.inj hinsert
    rw [files_folder, files_folder]
    exact hmade.addedAmong_place hfile hok

/-- A file added among others takes its place behind those of its folder. -/
theorem AddedAmong.filter {keys : List String} {node : FileNode} {old new : List FileNode}
    (h : AddedAmong (routesOf before) (segments node.path) node old new) :
    new.filter (folderKeys · = keys) = old.filter (folderKeys · = keys) ++
      [node].filter (folderKeys · = keys) := by
  obtain ⟨first, last, rfl, rfl, hlast⟩ := h
  by_cases hnode : folderKeys node = keys
  · have hnone : last.filter (folderKeys · = keys) = [] := by
      refine List.filter_eq_nil_iff.2 fun f hf heq => ?_
      obtain ⟨other, hmem, hne⟩ := hlast f hf
      obtain ⟨-, rfl⟩ := mem_routesOf.1 hmem
      exact hne ((of_decide_eq_true heq).trans hnode.symm)
    simp [hnode, hnone]
  · simp [hnode]

theorem files_insertAll (h : BuiltFrom project before root) (hfree : CollisionFree before)
    {root' : FileNode} (hok : root.insertAll nodes = .ok root') :
    root'.files.Perm (root.files ++ nodes) ∧ ∀ keys, root'.files.filter (folderKeys · = keys) =
      root.files.filter (folderKeys · = keys) ++ nodes.filter (folderKeys · = keys) := by
  induction nodes generalizing before root with
  | nil =>
    obtain rfl := Except.ok.inj hok
    simp
  | cons node nodes ih =>
    rcases h.insert hfree node with ⟨mid, hinsert, hmid, hfree'⟩ | ⟨e, mid, hinsert, -⟩
    · rw [insertAll, hinsert] at hok
      have hadded := files_insert h hinsert
      obtain ⟨hperm, hfilter⟩ := ih hmid hfree' hok
      constructor
      · obtain ⟨first, last, hold, hnew, -⟩ := hadded
        rw [hnew] at hperm
        rw [hold]
        exact hperm.trans ((List.perm_middle.append_right nodes).trans List.perm_middle.symm)
      · intro keys
        rw [hfilter keys, hadded.filter, List.append_assoc, ← List.filter_append]
        rfl
    · rw [insertAll, hinsert] at hok
      cases hok

theorem perm_files_of_build (h : build nodes project = .ok root) : root.files.Perm nodes :=
  (files_insertAll (builtFrom_empty project) collisionFree_nil h).1

end

/-- The files of a tree are those it was built from, and the files of one folder stand in their
order. -/
theorem build_files_stable {nodes : List FileNode} {project : String} {root : FileNode}
    (h : build nodes project = .ok root) : root.files.Perm nodes ∧
      ∀ keys, root.files.filter (folderKeys · = keys) = nodes.filter (folderKeys · = keys) := by
  refine ⟨perm_files_of_build h, fun keys => ?_⟩
  exact (files_insertAll (builtFrom_empty project) collisionFree_nil h).2 keys

/-- Files of one folder, with one of another between them. -/
theorem build_files_stable_interleaved : ∃ root,
    build [ofFile "src/A.java" "1", ofFile "pom.xml" "2", ofFile "src/B.java" "3"] "p" = .ok root ∧
      root.files.Perm [ofFile "src/A.java" "1", ofFile "pom.xml" "2", ofFile "src/B.java" "3"] ∧
      root.files.filter (folderKeys · = ["src"]) =
        [ofFile "src/A.java" "1", ofFile "src/B.java" "3"] := by
  obtain ⟨root, hroot⟩ : ∃ root, build [ofFile "src/A.java" "1", ofFile "pom.xml" "2",
      ofFile "src/B.java" "3"] "p" = .ok root := ⟨_, rfl⟩
  obtain ⟨hperm, horder⟩ := build_files_stable hroot
  refine ⟨root, hroot, hperm, (horder ["src"]).trans ?_⟩
  have hsrc : folderKeys (ofFile "src/A.java" "1") = ["src"] ∧
      folderKeys (ofFile "pom.xml" "2") = [] ∧
      folderKeys (ofFile "src/B.java" "3") = ["src"] := by
    decide +kernel
  simp [hsrc]

end EntityForge.FileNode
