import EntityForge.Proofs.FileTree.Placed

/-!
# Trees of prefixes

The tree that is built from files is the prefix tree of their segments, in order. Keys lead to a
node exactly if the segments of a file begin with them: to the file itself at their end, and before
it to a folder named for the last key. The children of a folder stand in the order in which the
files pass through it first (`build_isPrefixTree`).
-/

namespace EntityForge.FileNode

open Keyed

/-- The key after the given ones on the way to a node, if its segments begin with these and go
on. -/
def nextKey? (keys : List String) (n : FileNode) : Option String :=
  ((segments n.path).dropPrefix? keys).bind List.head?

/-- The root is the prefix tree of the nodes, in order, in a folder for the project. -/
structure IsPrefixTree (project : String) (nodes : List FileNode) (root : FileNode) : Prop where
  root_eq : ∃ cs, root = .folder project project cs
  /-- Keys lead to a node if segments begin with them. -/
  isSome_walk?_iff : ∀ keys, keys ≠ [] →
    ((root.walk? keys).isSome ↔ ∃ n ∈ nodes, keys <+: segments n.path)
  /-- All segments of a node lead to the node, as it was given. -/
  walk?_segments : ∀ n ∈ nodes, root.walk? (segments n.path) = some n
  /-- A part of them leads to a folder with the last key as its name. -/
  walk?_part : ∀ n ∈ nodes, ∀ keys key, keys ++ [key] <+: segments n.path →
    keys ++ [key] ≠ segments n.path → ∃ cs, root.walk? (keys ++ [key]) =
      some (.folder key (pathUnder project (keys ++ [key])) cs)
  /-- No folder below the root is empty. -/
  children_ne_nil : ∀ m ∈ root.folders, m.children ≠ []
  /-- The keys of children stand as they first occur among the nodes that pass through. -/
  keys_children : ∀ keys m, root.walk? keys = some m → m.isFolder = true →
    m.children.map (·.1) = (nodes.filterMap (nextKey? keys)).eraseDups

theorem firstKeys_routesAfter (keys : List String) (nodes : List FileNode) :
    firstKeys (routesAfter keys (routesOf nodes)) =
      (nodes.filterMap (nextKey? keys)).eraseDups := by
  simp only [firstKeys, routesAfter, routesOf, List.filterMap_filterMap, List.filterMap_map]
  congr 1
  refine List.filterMap_congr fun n _ => ?_
  exact Option.bind_map

namespace BuiltFrom

variable {project : String} {nodes : List FileNode} {root : FileNode}

theorem madeOf (h : BuiltFrom project nodes root) :
    MadeOf project project (routesOf nodes) root := by
  obtain ⟨cs, rfl, hmade⟩ := h
  exact hmade

theorem isSome_walk?_iff (h : BuiltFrom project nodes root) {keys : List String}
    (hkeys : keys ≠ []) : (root.walk? keys).isSome ↔ ∃ n ∈ nodes, keys <+: segments n.path := by
  rw [h.madeOf.isSome_walk?_iff, or_iff_right hkeys]
  simp [routesOf]

/-- Keys with which the segments of a node begin lead to a node made of the routes that go on. -/
theorem exists_walk? (h : BuiltFrom project nodes root) {n : FileNode} (hn : n ∈ nodes)
    {keys rest : List String} (hrest : keys ++ rest = segments n.path) :
    ∃ m, root.walk? keys = some m ∧ (rest, n) ∈ routesAfter keys (routesOf nodes) ∧
      MadeOf (keys.getLastD project) (pathUnder project keys) (routesAfter keys (routesOf nodes))
        m := by
  have hmem : (keys ++ rest, n) ∈ routesOf nodes := mem_routesOf.2 ⟨hn, hrest.symm⟩
  obtain ⟨m, hm⟩ := Option.isSome_iff_exists.1 (h.madeOf.isSome_walk?_iff.2
    (.inr ⟨_, hmem, List.prefix_append keys rest⟩))
  exact ⟨m, hm, mem_routesAfter.2 hmem, h.madeOf.walk? hm⟩

theorem walk?_segments (h : BuiltFrom project nodes root) {n : FileNode} (hn : n ∈ nodes) :
    root.walk? (segments n.path) = some n := by
  obtain ⟨m, hm, hmem, hmade⟩ := h.exists_walk? hn (List.append_nil _)
  rw [hm, hmade.eq_of_nil_mem hmem]

theorem walk?_part (h : BuiltFrom project nodes root) {n : FileNode} (hn : n ∈ nodes)
    {keys : List String} (hbegins : keys <+: segments n.path) (hne : keys ≠ segments n.path) :
    ∃ cs, root.walk? keys =
      some (.folder (keys.getLastD project) (pathUnder project keys) cs) := by
  obtain ⟨rest, hrest⟩ := hbegins
  obtain ⟨m, hm, hmem, hmade⟩ := h.exists_walk? hn hrest
  have hrest_ne : rest ≠ [] := by
    rintro rfl
    exact hne (by rw [← hrest, List.append_nil])
  obtain ⟨cs, rfl⟩ := hmade.exists_folder_of_mem hmem hrest_ne
  exact ⟨cs, hm⟩

theorem map_fst_children (h : BuiltFrom project nodes root) {keys : List String} {m : FileNode}
    (hm : root.walk? keys = some m) (hfolder : m.isFolder = true) :
    m.children.map (·.1) = (nodes.filterMap (nextKey? keys)).eraseDups := by
  have hmade := h.madeOf.walk? hm
  obtain ⟨cs, rfl⟩ := hmade.exists_folder hfolder
  rw [← firstKeys_routesAfter]
  exact hmade.map_fst

/-- A folder below the root stands under keys. -/
theorem walk?_of_mem_folders (h : BuiltFrom project nodes root) {m : FileNode}
    (hm : m ∈ root.folders) :
    ∃ keys, keys ≠ [] ∧ root.walk? keys = some m ∧ m.isFolder = true := by
  obtain ⟨cs, rfl, hmade⟩ := h
  rw [folders_folder] at hm
  obtain ⟨⟨key, child⟩, hc, hm⟩ := List.mem_flatMap.1 hm
  have hlookup := lookup_of_mem hmade.nodup_keys hc
  obtain ⟨keys, hwalk, hfolder⟩ := (hmade.of_lookup hlookup).walk?_of_mem_foldersFrom hm
  refine ⟨key :: keys, List.cons_ne_nil _ _, ?_, hfolder⟩
  rw [walk?_folder_cons, hlookup]
  exact hwalk

theorem children_ne_nil (h : BuiltFrom project nodes root) {m : FileNode} (hm : m ∈ root.folders) :
    m.children ≠ [] := by
  obtain ⟨keys, hkeys, hwalk, hfolder⟩ := h.walk?_of_mem_folders hm
  obtain ⟨n, hn, rest, hrest⟩ := (h.isSome_walk?_iff hkeys).1 (by rw [hwalk]; rfl)
  obtain ⟨m', hm', hmem, hmade⟩ := h.exists_walk? hn hrest
  rw [hwalk] at hm'
  obtain rfl := Option.some.inj hm'
  obtain ⟨cs, rfl⟩ := hmade.exists_folder hfolder
  -- the route to the file goes on from the folder
  obtain ⟨key, tail, rfl⟩ := List.exists_cons_of_ne_nil (hmade.ne_nil _ hmem)
  have hkey : key ∈ cs.map (·.1) := by
    rw [hmade.map_fst, mem_firstKeys]
    exact List.ne_nil_of_mem (mem_routesAfter.2 hmem)
  obtain ⟨c, hc, -⟩ := List.mem_map.1 hkey
  exact List.ne_nil_of_mem hc

end BuiltFrom

/-- The tree built from files is the prefix tree of their segments, in order. -/
theorem build_isPrefixTree {nodes : List FileNode} {project : String} {root : FileNode}
    (h : build nodes project = .ok root) : IsPrefixTree project nodes root := by
  have hbuilt := (builtFrom_of_build h).1
  refine ⟨?_, fun keys hkeys => hbuilt.isSome_walk?_iff hkeys, fun n hn => hbuilt.walk?_segments hn,
    fun n hn keys key hbegins hne => ?_, fun m hm => hbuilt.children_ne_nil hm,
    fun keys m hm hfolder => hbuilt.map_fst_children hm hfolder⟩
  · obtain ⟨cs, hroot, -⟩ := hbuilt
    exact ⟨cs, hroot⟩
  · obtain ⟨cs, hcs⟩ := hbuilt.walk?_part hn hbegins hne
    rw [List.getLastD_concat] at hcs
    exact ⟨cs, hcs⟩

/-- Files that share folders: the folders of one are not made again for the next. -/
theorem build_isPrefixTree_shared : ∃ root,
    build [ofFile "src/entity/Book.java" "1", ofFile "src/repository/BookRepository.java" "2",
      ofFile "src/entity/Author.java" "3"] "lib" = .ok root ∧
    root.walk? ["src", "entity", "Author.java"] = some (ofFile "src/entity/Author.java" "3") ∧
    (root.walk? ["src"]).map (fun m => m.children.map (·.1)) = some ["entity", "repository"] := by
  obtain ⟨root, hroot⟩ : ∃ root, build [ofFile "src/entity/Book.java" "1",
      ofFile "src/repository/BookRepository.java" "2", ofFile "src/entity/Author.java" "3"] "lib" =
        .ok root := ⟨_, rfl⟩
  have htree := build_isPrefixTree hroot
  have hsegments : segments "src/entity/Author.java" = ["src", "entity", "Author.java"] := by
    decide +kernel
  refine ⟨root, hroot, ?_, ?_⟩
  · rw [← hsegments]
    exact htree.walk?_segments (ofFile "src/entity/Author.java" "3") (by simp)
  · obtain ⟨cs, hcs⟩ := htree.walk?_part (ofFile "src/entity/Author.java" "3") (by simp) [] "src"
      (by rw [path_ofFile, hsegments]; exact List.prefix_append ["src"] _)
      (by rw [path_ofFile, hsegments]; decide)
    have hkeys := htree.keys_children ["src"] _ hcs rfl
    have hnext : ([ofFile "src/entity/Book.java" "1",
        ofFile "src/repository/BookRepository.java" "2",
        ofFile "src/entity/Author.java" "3"].filterMap (nextKey? ["src"])).eraseDups =
          ["entity", "repository"] := by
      decide +kernel
    rw [hnext] at hkeys
    have hsrc : root.walk? ["src"] = some _ := hcs
    rw [hsrc, Option.map_some, hkeys]

end EntityForge.FileNode
