import EntityForge.Proofs.FileTree.Flattened
import EntityForge.Proofs.FileTree.PrefixTree
import EntityForge.Proofs.Text.Pieces

/-!
# Paths of the nodes of a tree

Folders take their paths from the project, and files keep those they came with. So the folders of a
tree have different paths, the root included, because keys can be read off a path (`pathUnder_inj`);
and its files have different paths because they have different segments. A file has the path of a
folder only if it came with that path (`build_paths_nodup_iff`).
-/

namespace EntityForge.FileNode

open Keyed

/-! ## Paths under a folder -/

theorem slash_not_mem_of_mem_segments {path key : String} (h : key ∈ segments path) :
    '/' ∉ key.toList := by
  obtain ⟨piece, hpiece, rfl⟩ := List.mem_map.1 h
  rw [String.toList_ofList]
  intro hslash
  have hfalse := Text.eq_false_of_mem_splitBy (List.mem_filter.1 hpiece).1 '/' hslash
  exact absurd hfalse (by decide)

theorem pathUnder_eq_append (base : String) (keys : List String) :
    pathUnder base keys = base ++ pathUnder "" keys := by
  induction keys generalizing base with
  | nil => exact (String.append_empty).symm
  | cons key keys ih =>
    rw [pathUnder_cons, pathUnder_cons, ih (base ++ "/" ++ key), ih ("" ++ "/" ++ key)]
    simp only [String.append_assoc, String.empty_append]

/-- The path of a node tells the keys that lead to it. -/
theorem pathUnder_inj {base : String} {keys other : List String}
    (hkeys : ∀ key ∈ keys, '/' ∉ key.toList) (hother : ∀ key ∈ other, '/' ∉ key.toList)
    (h : pathUnder base keys = pathUnder base other) : keys = other := by
  have hsplit : ∀ {ks : List String}, (∀ key ∈ ks, '/' ∉ key.toList) →
      (pathUnder "" ks).toList.splitOn '/' = [] :: ks.map String.toList := by
    intro ks hks
    rw [pathUnder, String.toList_intercalate]
    refine List.splitOn_intercalate '/' ?_ (List.cons_ne_nil _ _)
    intro w hw
    rcases List.mem_cons.1 hw with rfl | hw
    · exact List.not_mem_nil
    · obtain ⟨key, hkey, rfl⟩ := List.mem_map.1 hw
      exact hks key hkey
  rw [pathUnder_eq_append base keys, pathUnder_eq_append base other] at h
  have hsame : pathUnder "" keys = pathUnder "" other :=
    String.toList_inj.1 (by simpa using congrArg String.toList h)
  have hmaps := hsplit hkeys
  rw [hsame, hsplit hother] at hmaps
  exact (List.map_injective_iff.2 (fun _ _ => String.toList_inj.1) (List.cons.inj hmaps).2).symm

/-! ## Folders -/

theorem mem_foldersFrom_of_walk? {n m : FileNode} {keys : List String}
    (hm : n.walk? keys = some m) (hfolder : m.isFolder = true) : m ∈ n.foldersFrom := by
  induction keys generalizing n with
  | nil =>
    obtain rfl := Option.some.inj hm
    rw [foldersFrom, if_pos hfolder]
    exact .head _
  | cons key keys ih =>
    cases n with
    | file => cases hm
    | folder name path cs =>
      rw [walk?_folder_cons] at hm
      obtain ⟨child, hchild, hm⟩ := Option.bind_eq_some_iff.1 hm
      rw [foldersFrom_folder, folders_folder]
      exact .tail _ (List.mem_flatMap.2 ⟨_, mem_of_lookup hchild, ih hm⟩)

namespace MadeOf

variable {name path : String} {routes : List Route} {n m : FileNode}

theorem path_of_walk? (h : MadeOf name path routes n) {keys : List String}
    (hm : n.walk? keys = some m) (hfolder : m.isFolder = true) : m.path = pathUnder path keys := by
  obtain ⟨cs, rfl⟩ := (h.walk? hm).exists_folder hfolder
  rfl

/-- The path of a folder below a child begins with the key of the child. -/
theorem path_below_child {cs : List (String × FileNode)}
    (h : MadeOf name path routes (.folder name path cs)) {key : String} {child : FileNode}
    (hchild : cs.lookup key = some child) (hm : m ∈ child.foldersFrom) :
    ∃ keys, m.path = pathUnder path (key :: keys) ∧ ∃ r ∈ routes, key :: keys <+: r.1 := by
  obtain ⟨keys, hwalk, hfolder⟩ := (h.of_lookup hchild).walk?_of_mem_foldersFrom hm
  have hwalk' : (FileNode.folder name path cs).walk? (key :: keys) = some m := by
    rw [walk?_folder_cons, hchild]
    exact hwalk
  refine ⟨keys, ?_, (h.isSome_walk?_iff.1 (by rw [hwalk']; rfl)).resolve_left
    (List.cons_ne_nil _ _)⟩
  exact h.path_of_walk? hwalk' hfolder

/-- Folders have different paths if the keys of the routes are without slashes. -/
theorem nodup_map_path_foldersFrom (h : MadeOf name path routes n)
    (hslash : ∀ r ∈ routes, ∀ key ∈ r.1, '/' ∉ key.toList) :
    (n.foldersFrom.map (·.path)).Nodup := by
  induction h with
  | file => exact .nil
  | @folder name path routes cs hne hkeys hchild ih =>
    have hmade : MadeOf name path routes (.folder name path cs) := .folder hne hkeys hchild
    have hnodup := hmade.nodup_keys
    -- where a path below a child comes from, and that it can be read
    have hbelow : ∀ c ∈ cs, ∀ p ∈ c.2.foldersFrom.map (·.path), ∃ keys,
        p = pathUnder path (c.1 :: keys) ∧ ∀ key ∈ c.1 :: keys, '/' ∉ key.toList := by
      intro c hc p hp
      obtain ⟨m, hm, rfl⟩ := List.mem_map.1 hp
      obtain ⟨keys, hpath, r, hr, hbegins⟩ :=
        hmade.path_below_child (lookup_of_mem hnodup hc) hm
      exact ⟨keys, hpath, fun key hkey => hslash r hr key (hbegins.subset hkey)⟩
    rw [foldersFrom_folder, folders_folder, List.map_cons, List.map_flatMap, List.nodup_cons,
      List.nodup_flatMap]
    refine ⟨fun hmem => ?_, fun c hc => ?_, (List.pairwise_map.1 hnodup).imp_of_mem ?_⟩
    · obtain ⟨c, hc, hp⟩ := List.mem_flatMap.1 hmem
      obtain ⟨keys, hpath, hfree⟩ := hbelow c hc _ hp
      exact List.cons_ne_nil _ _ (pathUnder_inj hfree (fun _ hkey => nomatch hkey) hpath.symm)
    · refine ih c.1 c.2 (lookup_of_mem hnodup hc) fun r hr key hkey => ?_
      exact hslash _ (mem_routesAfter.1 hr) key (.tail _ hkey)
    · intro c d hc hd hcd p hp hq
      obtain ⟨keys, hpath, hfree⟩ := hbelow c hc p hp
      obtain ⟨other, hpath', hfree'⟩ := hbelow d hd p hq
      exact hcd (List.cons.inj (pathUnder_inj hfree hfree' (hpath.symm.trans hpath'))).1

end MadeOf

namespace BuiltFrom

variable {project : String} {nodes : List FileNode} {root : FileNode}

theorem foldersFrom_root (h : BuiltFrom project nodes root) :
    root.foldersFrom = root :: root.folders := by
  obtain ⟨cs, rfl, -⟩ := h
  exact foldersFrom_folder _ _ _

theorem nodup_map_path_folders (h : BuiltFrom project nodes root) :
    ((root :: root.folders).map (·.path)).Nodup := by
  rw [← h.foldersFrom_root]
  refine h.madeOf.nodup_map_path_foldersFrom fun r hr key hkey => ?_
  obtain ⟨n, -, rfl⟩ := List.mem_map.1 hr
  exact slash_not_mem_of_mem_segments hkey

/-- The paths of folders are those under the project for the keys on the way to a file. -/
theorem mem_map_path_folders_iff (h : BuiltFrom project nodes root) (hfree : CollisionFree nodes)
    (hne : nodes ≠ []) {p : String} : p ∈ (root :: root.folders).map (·.path) ↔
      ∃ n ∈ nodes, ∃ keys, keys <+: segments n.path ∧ keys ≠ segments n.path ∧
        p = pathUnder project keys := by
  rw [← h.foldersFrom_root, List.mem_map]
  constructor
  · rintro ⟨m, hm, rfl⟩
    obtain ⟨keys, hwalk, hfolder⟩ := h.madeOf.walk?_of_mem_foldersFrom hm
    have hpath := h.madeOf.path_of_walk? hwalk hfolder
    obtain ⟨n, hn, hbegins⟩ : ∃ n ∈ nodes, keys <+: segments n.path := by
      by_cases hkeys : keys = []
      · obtain ⟨n, hn⟩ := List.exists_mem_of_ne_nil nodes hne
        exact ⟨n, hn, hkeys ▸ List.nil_prefix⟩
      · exact (h.isSome_walk?_iff hkeys).1 (by rw [hwalk]; rfl)
    refine ⟨n, hn, keys, hbegins, fun heq => ?_, hpath⟩
    -- at the end of its segments stands the file
    rw [heq, h.walk?_segments hn] at hwalk
    obtain rfl := Option.some.inj hwalk
    rw [hfree.isFile n hn] at hfolder
    cases hfolder
  · rintro ⟨n, hn, keys, hbegins, hkeys, rfl⟩
    obtain ⟨cs, hwalk⟩ := h.walk?_part hn hbegins hkeys
    exact ⟨_, mem_foldersFrom_of_walk? hwalk rfl, rfl⟩

end BuiltFrom

/-! ## All nodes -/

/-- Files with different segments have different paths. -/
theorem CollisionFree.nodup_map_path {nodes : List FileNode} (h : CollisionFree nodes) :
    (nodes.map (·.path)).Nodup := by
  refine List.pairwise_map.2 (h.apart.imp fun hapart heq => hapart.1 ?_)
  exact congrArg segments heq ▸ List.prefix_rfl

/-- The folders of a tree have different paths, the root included, and so have its files. No two
nodes have one path exactly if no file came with the path of a folder. -/
theorem build_paths_nodup_iff {nodes : List FileNode} {project : String} {root : FileNode}
    (h : build nodes project = .ok root) :
    ((root :: root.folders).map (·.path)).Nodup ∧ (root.files.map (·.path)).Nodup ∧
    (((root :: (root.folders ++ root.files)).map (·.path)).Nodup ↔
      ∀ n ∈ nodes, ∀ m ∈ nodes, ∀ keys, keys <+: segments m.path → keys ≠ segments m.path →
        n.path ≠ pathUnder project keys) := by
  obtain ⟨hbuilt, hfree⟩ := builtFrom_of_build h
  have hperm := perm_files_of_build h
  have hfolders := hbuilt.nodup_map_path_folders
  have hfiles : (root.files.map (·.path)).Nodup :=
    (hperm.map _).nodup_iff.2 hfree.nodup_map_path
  refine ⟨hfolders, hfiles, ?_⟩
  rw [← List.cons_append, List.map_append, List.nodup_append]
  constructor
  · rintro ⟨-, -, hdisjoint⟩ n hn m hm keys hbegins hkeys heq
    have hfolder := (hbuilt.mem_map_path_folders_iff hfree (List.ne_nil_of_mem hm)).2
      ⟨m, hm, keys, hbegins, hkeys, rfl⟩
    exact hdisjoint _ hfolder _ (List.mem_map_of_mem (hperm.mem_iff.2 hn)) heq.symm
  · intro hpaths
    refine ⟨hfolders, hfiles, fun p hp q hq heq => ?_⟩
    obtain ⟨n, hn, rfl⟩ := List.mem_map.1 hq
    have hn := hperm.mem_iff.1 hn
    obtain ⟨m, hm, keys, hbegins, hkeys, hpath⟩ :=
      (hbuilt.mem_map_path_folders_iff hfree (List.ne_nil_of_mem hn)).1 hp
    exact hpaths n hn m hm keys hbegins hkeys (heq.symm.trans hpath)

/-- Files that came with paths outside the project. -/
theorem build_paths_nodup_outside : ∃ root,
    build [ofFile "src/A.java" "1", ofFile "src/sql/b.sql" "2"] "p" = .ok root ∧
      ((root :: (root.folders ++ root.files)).map (·.path)).Nodup := by
  obtain ⟨root, hroot⟩ : ∃ root,
      build [ofFile "src/A.java" "1", ofFile "src/sql/b.sql" "2"] "p" = .ok root := ⟨_, rfl⟩
  refine ⟨root, hroot, (build_paths_nodup_iff hroot).2.2.2 fun n hn _ _ keys _ _ heq => ?_⟩
  rw [pathUnder_eq_append] at heq
  have hfirst := congrArg (fun s : String => s.toList.head?) heq
  simp only [List.mem_cons, List.not_mem_nil, or_false] at hn
  rcases hn with rfl | rfl <;> simp at hfirst

/-- A file with the path of the root, and one with the path of another folder. -/
theorem build_paths_clash :
    (∃ root, build [ofFile "p" "x"] "p" = .ok root ∧
      ¬ ((root :: (root.folders ++ root.files)).map (·.path)).Nodup) ∧
    ∃ root, build [ofFile "a/b" "1", ofFile "p/a" "2"] "p" = .ok root ∧
      ¬ ((root :: (root.folders ++ root.files)).map (·.path)).Nodup :=
  ⟨⟨_, rfl, by decide⟩, _, rfl, by decide⟩

end EntityForge.FileNode
