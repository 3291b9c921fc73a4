import EntityForge.Proofs.FileTree.Children

/-!
# Trees made of routes

A route is a file with the keys that lead to it. `MadeOf name path routes n`: the node `n`, of that
name and path, is the tree that the routes make. Each folder has one child for every first key of
its routes, in the order in which these keys first occur, and the child is made of the routes that
go on from there.

* `MadeOf.update`: the tree after one more route, which begins with the key of one child.
* `MadeOf.walk?`: every node of the tree is itself made of the routes that pass through it, and has
  the path of the keys that lead to it.
* `MadeOf.isSome_walk?_iff`: the nodes of the tree stand where a route passes.
-/

namespace EntityForge.FileNode

open Keyed

/-- The path of what the keys lead to, from a folder with path `base`. -/
def pathUnder (base : String) (keys : List String) : String :=
  "/".intercalate (base :: keys)

theorem pathUnder_cons (base key : String) (keys : List String) :
    pathUnder base (key :: keys) = pathUnder (base ++ "/" ++ key) keys := rfl

/-- The keys that lead to a file, and the file. -/
abbrev Route := List String × FileNode

/-- The routes that begin with the keys, as they go on from there. -/
def routesAfter (keys : List String) (routes : List Route) : List Route :=
  routes.filterMap fun r => (r.1.dropPrefix? keys).map fun rest => (rest, r.2)

/-- The keys with which routes begin, each once, in the order in which they first occur. -/
def firstKeys (routes : List Route) : List String :=
  (routes.filterMap fun r => r.1.head?).eraseDups

/-- The node that routes make, under a name and a path: a file, or a folder with a child for each
first key. -/
inductive MadeOf : String → String → List Route → FileNode → Prop where
  | file {name path n p c : String} {l : Language} :
      MadeOf name path [([], .file n p c l)] (.file n p c l)
  | folder {name path : String} {routes : List Route} {cs : List (String × FileNode)}
      (hne : ∀ r ∈ routes, r.1 ≠ [])
      (hkeys : cs.map (·.1) = firstKeys routes)
      (hchild : ∀ key child, cs.lookup key = some child →
        MadeOf key (path ++ "/" ++ key) (routesAfter [key] routes) child) :
      MadeOf name path routes (.folder name path cs)

/-! ## Routes after keys -/

section
variable {keys rest : List String} {routes : List Route} {f : FileNode}

theorem dropPrefix?_eq_some {whole : List String} :
    whole.dropPrefix? keys = some rest ↔ whole = keys ++ rest := by
  rw [List.dropPrefix?_eq_some_iff]
  simp

theorem mem_routesAfter : (rest, f) ∈ routesAfter keys routes ↔ (keys ++ rest, f) ∈ routes := by
  simp only [routesAfter, List.mem_filterMap, Option.map_eq_some_iff, dropPrefix?_eq_some]
  constructor
  · rintro ⟨⟨whole, g⟩, hr, left, rfl, heq⟩
    obtain ⟨rfl, rfl⟩ := Prod.mk.inj heq
    exact hr
  · intro hr
    exact ⟨_, hr, rest, rfl, rfl⟩

/-- A route that passes through the keys goes on from the first of them through the others. -/
theorem exists_prefix_cons_iff {key : String} : (∃ r ∈ routes, key :: keys <+: r.1) ↔
    ∃ r ∈ routesAfter [key] routes, keys <+: r.1 := by
  constructor
  · rintro ⟨⟨whole, f⟩, hr, left, rfl⟩
    exact ⟨(keys ++ left, f), mem_routesAfter.2 hr, List.prefix_append keys left⟩
  · rintro ⟨⟨rest, f⟩, hr, hbegins⟩
    exact ⟨(key :: rest, f), mem_routesAfter.1 hr, List.cons_prefix_cons.2 ⟨rfl, hbegins⟩⟩

theorem routesAfter_nil (routes : List Route) : routesAfter [] routes = routes := by
  simp [routesAfter]

theorem routesAfter_cons (key : String) (keys : List String) (routes : List Route) :
    routesAfter (key :: keys) routes = routesAfter keys (routesAfter [key] routes) := by
  simp only [routesAfter, List.filterMap_filterMap]
  refine List.filterMap_congr fun r _ => ?_
  cases r.1 with
  | nil => rfl
  | cons k whole =>
    simp only [List.dropPrefix?]
    split <;> simp

theorem routesAfter_concat (routes : List Route) (key : String) (rest : List String)
    (node : FileNode) (k : String) : routesAfter [k] (routes ++ [(key :: rest, node)]) =
      routesAfter [k] routes ++ if k = key then [(rest, node)] else [] := by
  simp only [routesAfter, List.filterMap_append]
  congr 1
  by_cases hk : k = key
  · simp [List.dropPrefix?, hk]
  · simp [List.dropPrefix?, hk, Ne.symm hk]

theorem mem_firstKeys {key : String} : key ∈ firstKeys routes ↔ routesAfter [key] routes ≠ [] := by
  rw [firstKeys, List.mem_eraseDups, List.mem_filterMap]
  constructor
  · rintro ⟨⟨whole, f⟩, hr, hhead⟩
    obtain ⟨rest, rfl⟩ := List.head?_eq_some_iff.1 hhead
    exact List.ne_nil_of_mem (mem_routesAfter.2 hr)
  · intro hne
    obtain ⟨⟨rest, f⟩, hr⟩ := List.exists_mem_of_ne_nil _ hne
    exact ⟨_, mem_routesAfter.1 hr, rfl⟩

theorem nodup_firstKeys (routes : List Route) : (firstKeys routes).Nodup := nodup_eraseDups _

theorem firstKeys_concat (routes : List Route) (key : String) (rest : List String)
    (node : FileNode) : firstKeys (routes ++ [(key :: rest, node)]) =
      if key ∈ firstKeys routes then firstKeys routes else firstKeys routes ++ [key] := by
  have hnew : [(key :: rest, node)].filterMap (fun r : Route => r.1.head?) = [key] := rfl
  rw [firstKeys, List.filterMap_append, hnew, eraseDups_concat]
  simp only [firstKeys, List.mem_eraseDups]

end

theorem walk?_folder_cons (name path : String) (cs : List (String × FileNode)) (key : String)
    (keys : List String) : (folder name path cs).walk? (key :: keys) =
      (cs.lookup key).bind (·.walk? keys) := rfl

/-! ## One more route -/

namespace MadeOf

section
variable {name path : String} {routes : List Route} {cs : List (String × FileNode)}

theorem empty (name path : String) : MadeOf name path [] (.folder name path []) :=
  .folder (fun _ hr => absurd hr List.not_mem_nil) rfl fun _ _ h => nomatch h

/-- A file stands where a route ends. -/
theorem nil_mem_of_file {n p c : String} {l : Language}
    (h : MadeOf name path routes (.file n p c l)) : ([], .file n p c l) ∈ routes := by
  cases h
  exact .head _

theorem name_eq_and_path_eq {n p : String} (h : MadeOf name path routes (.folder n p cs)) :
    n = name ∧ p = path := by
  cases h
  exact ⟨rfl, rfl⟩

theorem ne_nil (h : MadeOf name path routes (.folder name path cs)) : ∀ r ∈ routes, r.1 ≠ [] := by
  cases h with
  | folder hne => exact hne

theorem map_fst (h : MadeOf name path routes (.folder name path cs)) :
    cs.map (·.1) = firstKeys routes := by
  cases h with
  | folder _ hkeys => exact hkeys

theorem lookup_isSome_iff (h : MadeOf name path routes (.folder name path cs)) {key : String} :
    (cs.lookup key).isSome ↔ routesAfter [key] routes ≠ [] := by
  rw [← mem_firstKeys, ← h.map_fst, Option.isSome_iff_ne_none, ne_eq, lookup_eq_none_iff, not_not]

theorem routesAfter_eq_nil (h : MadeOf name path routes (.folder name path cs)) {key : String}
    (hkey : cs.lookup key = none) : routesAfter [key] routes = [] := by
  by_contra hne
  have hsome := h.lookup_isSome_iff.2 hne
  rw [hkey] at hsome
  cases hsome

theorem of_lookup (h : MadeOf name path routes (.folder name path cs)) {key : String}
    {n : FileNode} (hn : cs.lookup key = some n) :
    MadeOf key (path ++ "/" ++ key) (routesAfter [key] routes) n := by
  cases h with
  | folder _ _ hchild => exact hchild key n hn

/-- What stands under a key, or the new folder if nothing does, is made of the routes that begin
with the key. -/
theorem child (h : MadeOf name path routes (.folder name path cs)) (key : String) :
    MadeOf key (path ++ "/" ++ key) (routesAfter [key] routes)
      ((cs.lookup key).getD (.folder key (path ++ "/" ++ key) [])) := by
  cases hkey : cs.lookup key with
  | none =>
    rw [h.routesAfter_eq_nil hkey]
    exact .empty key _
  | some n => exact h.of_lookup hkey

/-- One child that takes up one more route. -/
theorem update (h : MadeOf name path routes (.folder name path cs)) {key : String}
    {rest : List String} {node child : FileNode}
    (hchild : MadeOf key (path ++ "/" ++ key) (routesAfter [key] routes ++ [(rest, node)]) child) :
    MadeOf name path (routes ++ [(key :: rest, node)])
      (.folder name path (setChild key child cs)) := by
  refine .folder (fun r hr => ?_) ?_ fun k n hk => ?_
  · rcases List.mem_append.1 hr with hr | hr
    · exact h.ne_nil r hr
    · obtain rfl := List.mem_singleton.1 hr
      exact List.cons_ne_nil _ _
  · rw [map_fst_setChild, h.map_fst, firstKeys_concat]
  · rw [routesAfter_concat]
    rw [lookup_setChild] at hk
    split at hk
    · rename_i heq
      obtain rfl := Option.some.inj hk
      rw [heq, if_pos rfl]
      exact hchild
    · rename_i hne
      rw [if_neg hne, List.append_nil]
      exact h.of_lookup hk

end

/-! ## The nodes of a tree -/

section
variable {name path : String} {routes : List Route} {n : FileNode}

/-- The node that keys lead to is made of the routes that go on from there. -/
theorem walk? (h : MadeOf name path routes n) {keys : List String} {m : FileNode}
    (hm : n.walk? keys = some m) :
    MadeOf (keys.getLastD name) (pathUnder path keys) (routesAfter keys routes) m := by
  induction keys generalizing n name path routes with
  | nil =>
    obtain rfl := Option.some.inj hm
    rw [routesAfter_nil]
    exact h
  | cons key keys ih =>
    rw [List.getLastD_cons, pathUnder_cons, routesAfter_cons]
    cases h with
    | file => cases hm
    | folder _ _ hchild =>
      rw [walk?_folder_cons] at hm
      obtain ⟨c, hc, hm⟩ := Option.bind_eq_some_iff.1 hm
      exact ih (hchild key c hc) hm

theorem isSome_walk?_iff (h : MadeOf name path routes n) {keys : List String} :
    (n.walk? keys).isSome ↔ keys = [] ∨ ∃ r ∈ routes, keys <+: r.1 := by
  induction keys generalizing n name path routes with
  | nil => simp [FileNode.walk?]
  | cons key keys ih =>
    cases n with
    | file =>
      cases h
      simp [FileNode.walk?, child?, children]
    | folder nm p cs =>
      obtain ⟨rfl, rfl⟩ := h.name_eq_and_path_eq
      rw [walk?_folder_cons, exists_prefix_cons_iff, or_iff_right (List.cons_ne_nil _ _)]
      cases hkey : cs.lookup key with
      | none => simp [h.routesAfter_eq_nil hkey]
      | some c =>
        have hsome : routesAfter [key] routes ≠ [] := h.lookup_isSome_iff.1 (by rw [hkey]; rfl)
        rw [Option.bind_some, ih (h.of_lookup hkey)]
        -- some route passes through the child, also if the keys end there
        refine or_iff_right_of_imp fun hnil => ?_
        obtain ⟨r, hr⟩ := List.exists_mem_of_ne_nil _ hsome
        exact ⟨r, hr, hnil ▸ List.nil_prefix⟩

/-- A folder of the tree has the name and the path of its place. -/
theorem exists_folder (h : MadeOf name path routes n) (hfolder : n.isFolder = true) :
    ∃ cs, n = .folder name path cs := by
  cases h with
  | file => cases hfolder
  | folder => exact ⟨_, rfl⟩

/-- Where a route ends stands its file. -/
theorem eq_of_nil_mem (h : MadeOf name path routes n) {f : FileNode} (hf : ([], f) ∈ routes) :
    n = f := by
  cases h with
  | file => exact (Prod.mk.inj (List.mem_singleton.1 hf)).2.symm
  | folder hne => exact absurd rfl (hne _ hf)

/-- Where a route goes on stands a folder. -/
theorem exists_folder_of_mem (h : MadeOf name path routes n) {rest : List String} {f : FileNode}
    (hf : (rest, f) ∈ routes) (hrest : rest ≠ []) : ∃ cs, n = .folder name path cs := by
  cases h with
  | file => exact absurd (Prod.mk.inj (List.mem_singleton.1 hf)).1 hrest
  | folder => exact ⟨_, rfl⟩

/-- The children of a folder have different keys. -/
theorem nodup_keys {cs : List (String × FileNode)}
    (h : MadeOf name path routes (.folder name path cs)) : (cs.map (·.1)).Nodup := by
  rw [h.map_fst]
  exact nodup_firstKeys routes

/-- Folders from a node on stand under keys. -/
theorem walk?_of_mem_foldersFrom (h : MadeOf name path routes n) {m : FileNode}
    (hm : m ∈ n.foldersFrom) : ∃ keys, n.walk? keys = some m ∧ m.isFolder = true := by
  induction h with
  | file => cases hm
  | @folder name path routes cs _ hkeys _ ih =>
    rw [foldersFrom_folder, folders_folder] at hm
    rcases List.mem_cons.1 hm with rfl | hm
    · exact ⟨[], rfl, rfl⟩
    · obtain ⟨⟨key, child⟩, hc, hm⟩ := List.mem_flatMap.1 hm
      have hlookup := lookup_of_mem (hkeys ▸ nodup_firstKeys routes) hc
      obtain ⟨keys, hwalk, hfolder⟩ := ih key child hlookup hm
      refine ⟨key :: keys, ?_, hfolder⟩
      rw [walk?_folder_cons, hlookup]
      exact hwalk

/-- The files from a node on are files of routes. -/
theorem exists_mem_of_mem_filesFrom (h : MadeOf name path routes n) {f : FileNode}
    (hf : f ∈ n.filesFrom) : ∃ keys, (keys, f) ∈ routes := by
  induction h with
  | file => exact ⟨[], List.mem_singleton.1 hf ▸ .head _⟩
  | @folder name path routes cs _ hkeys _ ih =>
    have hf : f ∈ (FileNode.folder name path cs).files := hf
    rw [files_folder] at hf
    obtain ⟨⟨key, child⟩, hc, hf⟩ := List.mem_flatMap.1 hf
    obtain ⟨keys, hmem⟩ := ih key child (lookup_of_mem (hkeys ▸ nodup_firstKeys routes) hc) hf
    exact ⟨key :: keys, mem_routesAfter.1 hmem⟩

end

end MadeOf

end EntityForge.FileNode
