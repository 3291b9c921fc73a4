import EntityForge.Proofs.FileTree.Routes

/-!
# Where files are placed

A file finds a place below a folder if its keys neither pass through a file nor end where something
stands, and then the folder is the tree of one route more (`MadeOf.place`). `Refused` says which
keys are refused, and how. Whether a list of nodes becomes a tree is seen from the segments of their
paths: the tree is made of all of them, or one of them is refused after those before it
(`build_cases`).
-/

namespace EntityForge.FileNode

/-- Keys that have no place beside those taken already, below a folder with path `base`, and the
error that says so. -/
inductive Refused (base : String) (taken : List (List String)) :
    List String → TreeError → Prop where
  | emptyPath : Refused base taken [] .emptyPath
  /-- The keys pass through a file. -/
  | fileAsFolder {keys other : List String} (hmem : other ∈ taken) (hbegins : other <+: keys)
      (hne : other ≠ keys) : Refused base taken keys (.fileAsFolder (pathUnder base other))
  /-- The keys end at a folder. -/
  | folderAsFile {keys other : List String} (hkeys : keys ≠ []) (hmem : other ∈ taken)
      (hbegins : keys <+: other) (hne : keys ≠ other) :
      Refused base taken keys (.folderAsFile (pathUnder base keys))
  | duplicateFile {keys : List String} (hkeys : keys ≠ []) (hmem : keys ∈ taken) :
      Refused base taken keys (.duplicateFile (pathUnder base keys))

/-- The node has no place in the tree of a project after the others, and the error says why. -/
def Rejects (project : String) (before : List FileNode) : FileNode → TreeError → Prop
  | .folder _ path _, e => e = .notAFile path
  | .file _ path _ _, e => Refused project (before.map fun n => segments n.path) (segments path) e

/-- Neither of the two begins the other. -/
def Apart (keys other : List String) : Prop := ¬ keys <+: other ∧ ¬ other <+: keys

/-- The nodes are files that do not get in each other's way: the segments of one neither are those
of another nor begin them. -/
structure CollisionFree (nodes : List FileNode) : Prop where
  isFile : ∀ n ∈ nodes, n.isFolder = false
  segments_ne_nil : ∀ n ∈ nodes, segments n.path ≠ []
  apart : nodes.Pairwise fun m n => Apart (segments m.path) (segments n.path)

/-! ## Placing a file -/

theorem cons_mem_map_fst {routes : List Route} {key : String} {rest : List String}
    (h : rest ∈ (routesAfter [key] routes).map (·.1)) : key :: rest ∈ routes.map (·.1) := by
  obtain ⟨r, hr, rfl⟩ := List.mem_map.1 h
  exact List.mem_map_of_mem (f := Prod.fst) (mem_routesAfter.1 hr)

/-- Keys that are refused below a child are refused below the folder. -/
theorem Refused.cons {base key : String} {keys : List String} {routes : List Route} {e : TreeError}
    (h : Refused (base ++ "/" ++ key) ((routesAfter [key] routes).map (·.1)) keys e)
    (hkeys : keys ≠ []) : Refused base (routes.map (·.1)) (key :: keys) e := by
  cases h with
  | emptyPath => exact absurd rfl hkeys
  | fileAsFolder hmem hbegins hne =>
    exact .fileAsFolder (cons_mem_map_fst hmem) (List.cons_prefix_cons.2 ⟨rfl, hbegins⟩)
      fun heq => hne (List.cons.inj heq).2
  | folderAsFile _ hmem hbegins hne =>
    exact .folderAsFile (List.cons_ne_nil _ _) (cons_mem_map_fst hmem)
      (List.cons_prefix_cons.2 ⟨rfl, hbegins⟩) fun heq => hne (List.cons.inj heq).2
  | duplicateFile _ hmem => exact .duplicateFile (List.cons_ne_nil _ _) (cons_mem_map_fst hmem)

/-- Routes are apart from keys if those with the same first key are apart after it. -/
theorem apart_cons {routes : List Route} {key : String} {keys : List String}
    (hne : ∀ r ∈ routes, r.1 ≠ []) (h : ∀ r ∈ routesAfter [key] routes, Apart r.1 keys) :
    ∀ r ∈ routes, Apart r.1 (key :: keys) := by
  rintro ⟨whole, f⟩ hr
  cases whole with
  | nil => exact absurd rfl (hne _ hr)
  | cons k rest =>
    simp only [Apart, List.cons_prefix_cons]
    refine ⟨fun ⟨hk, hbegins⟩ => ?_, fun ⟨hk, hbegins⟩ => ?_⟩
    · exact (h (rest, f) (mem_routesAfter.2 (hk ▸ hr))).1 hbegins
    · exact (h (rest, f) (mem_routesAfter.2 (hk ▸ hr))).2 hbegins

/-- What becomes of a folder made of routes when a file is to be placed below it: the folder of one
route more, or an error for keys that are refused. -/
def PlaceResult (name path : String) (routes : List Route) (keys : List String) (node : FileNode)
    (result : Except TreeError Unit × List (String × FileNode)) : Prop :=
  (result.1 = .ok () ∧ MadeOf name path (routes ++ [(keys, node)]) (.folder name path result.2) ∧
    keys ≠ [] ∧ ∀ r ∈ routes, Apart r.1 keys) ∨
  ∃ e, result.1 = .error e ∧ Refused path (routes.map (·.1)) keys e

namespace MadeOf

section
variable {name path key : String} {routes : List Route} {cs : List (String × FileNode)}
  {node : FileNode}

/-- The last key of a file. -/
theorem place_last (h : MadeOf name path routes (.folder name path cs))
    (hfile : node.isFolder = false) :
    PlaceResult name path routes [key] node (FileNode.place node path [key] cs) := by
  cases hkey : cs.lookup key with
  | none =>
    left
    have hafter := h.routesAfter_eq_nil hkey
    have hnode : MadeOf key (path ++ "/" ++ key) [([], node)] node := by
      cases node with
      | file => exact .file
      | folder => cases hfile
    simp only [FileNode.place, hkey, ← setChild_of_lookup_none hkey]
    refine ⟨trivial, h.update (by rwa [hafter]), List.cons_ne_nil _ _, apart_cons h.ne_nil ?_⟩
    rw [hafter]
    exact fun _ hr => absurd hr List.not_mem_nil
  | some n =>
    right
    have hn := h.of_lookup hkey
    simp only [FileNode.place, hkey]
    cases n with
    | file n p c l =>
      exact ⟨_, rfl, .duplicateFile (List.cons_ne_nil _ _)
        (cons_mem_map_fst (List.mem_map_of_mem hn.nil_mem_of_file))⟩
    | folder n p below =>
      obtain ⟨rfl, rfl⟩ := hn.name_eq_and_path_eq
      -- some file is below the folder
      obtain ⟨⟨rest, f⟩, hr⟩ := List.exists_mem_of_ne_nil _
        (h.lookup_isSome_iff.1 (Option.isSome_iff_exists.2 ⟨_, hkey⟩))
      refine ⟨_, rfl, .folderAsFile (List.cons_ne_nil _ _)
        (cons_mem_map_fst (List.mem_map_of_mem hr)) (List.prefix_append [n] rest) fun heq => ?_⟩
      exact hn.ne_nil _ hr (List.cons.inj heq).2.symm

/-- A file that is placed makes the tree of one route more, unless its keys are refused. -/
theorem place (h : MadeOf name path routes (.folder name path cs)) (hfile : node.isFolder = false)
    (keys : List String) :
    PlaceResult name path routes keys node (FileNode.place node path keys cs) := by
  induction keys generalizing name path routes cs with
  | nil => exact .inr ⟨_, rfl, .emptyPath⟩
  | cons key keys ih =>
    cases keys with
    | nil => exact h.place_last hfile
    | cons more keys =>
      have hchild := h.child key
      cases hkey : (cs.lookup key).getD (.folder key (path ++ "/" ++ key) []) with
      | file n p c l =>
        right
        rw [hkey] at hchild
        simp only [FileNode.place, hkey]
        exact ⟨_, rfl, .fileAsFolder (cons_mem_map_fst (List.mem_map_of_mem hchild.nil_mem_of_file))
          (List.prefix_append [key] _) (by simp)⟩
      | folder n p below =>
        rw [hkey] at hchild
        obtain ⟨rfl, rfl⟩ := hchild.name_eq_and_path_eq
        simp only [FileNode.place, hkey]
        rcases ih hchild with ⟨hok, hmade, -, hapart⟩ | ⟨e, herror, hrefused⟩
        · exact .inl ⟨hok, h.update hmade, List.cons_ne_nil _ _, apart_cons h.ne_nil hapart⟩
        · exact .inr ⟨e, herror, hrefused.cons (List.cons_ne_nil _ _)⟩

end

end MadeOf

/-! ## Building a tree -/

/-- The routes of nodes from the root: the segments of their paths. -/
def routesOf (nodes : List FileNode) : List Route :=
  nodes.map fun n => (segments n.path, n)

theorem mem_routesOf {nodes : List FileNode} {keys : List String} {n : FileNode} :
    (keys, n) ∈ routesOf nodes ↔ n ∈ nodes ∧ segments n.path = keys := by
  simp only [routesOf, List.mem_map]
  constructor
  · rintro ⟨m, hm, heq⟩
    obtain ⟨hkeys, rfl⟩ := Prod.mk.inj heq
    exact ⟨hm, hkeys⟩
  · rintro ⟨hn, rfl⟩
    exact ⟨n, hn, rfl⟩

/-- The root is the folder of the project, made of the nodes. -/
def BuiltFrom (project : String) (nodes : List FileNode) (root : FileNode) : Prop :=
  ∃ cs, root = .folder project project cs ∧
    MadeOf project project (routesOf nodes) (.folder project project cs)

section
variable {project : String} {before nodes : List FileNode} {root : FileNode}

theorem CollisionFree.concat (h : CollisionFree before) (node : FileNode)
    (hfile : node.isFolder = false) (hkeys : segments node.path ≠ [])
    (hapart : ∀ n ∈ before, Apart (segments n.path) (segments node.path)) :
    CollisionFree (before ++ [node]) where
  isFile n hn := by
    rcases List.mem_append.1 hn with hn | hn
    · exact h.isFile n hn
    · exact List.mem_singleton.1 hn ▸ hfile
  segments_ne_nil n hn := by
    rcases List.mem_append.1 hn with hn | hn
    · exact h.segments_ne_nil n hn
    · exact List.mem_singleton.1 hn ▸ hkeys
  apart := by
    refine List.pairwise_append.2 ⟨h.apart, List.pairwise_singleton _ _, fun m hm n hn => ?_⟩
    exact List.mem_singleton.1 hn ▸ hapart m hm

theorem insert_eq_place (cs : List (String × FileNode)) {node : FileNode}
    (hfile : node.isFolder = false) : (folder project project cs).insert node =
      ((place node project (segments node.path) cs).1,
        folder project project (place node project (segments node.path) cs).2) := by
  cases node with
  | folder => cases hfile
  | file => rfl

theorem rejects_iff {node : FileNode} (hfile : node.isFolder = false) {e : TreeError} :
    Rejects project before node e ↔
      Refused project (before.map fun n => segments n.path) (segments node.path) e := by
  cases node with
  | folder => cases hfile
  | file => exact Iff.rfl

/-- A node is inserted into the tree of the nodes before it, or it is rejected. -/
theorem BuiltFrom.insert (h : BuiltFrom project before root) (hfree : CollisionFree before)
    (node : FileNode) :
    (∃ root', root.insert node = (.ok (), root') ∧ BuiltFrom project (before ++ [node]) root' ∧
      CollisionFree (before ++ [node])) ∨
    ∃ e root', root.insert node = (.error e, root') ∧ Rejects project before node e := by
  obtain ⟨cs, rfl, hmade⟩ := h
  by_cases hfile : node.isFolder = false
  · rw [insert_eq_place cs hfile]
    rcases hmade.place hfile (segments node.path) with
      ⟨hok, hmade', hkeys, hapart⟩ | ⟨e, herror, hrefused⟩
    · left
      have hbuilt : BuiltFrom project (before ++ [node])
          (folder project project (place node project (segments node.path) cs).2) := by
        refine ⟨_, rfl, ?_⟩
        rw [routesOf, List.map_append]
        exact hmade'
      have hfree' : CollisionFree (before ++ [node]) :=
        hfree.concat node hfile hkeys fun m hm => hapart _ (List.mem_map_of_mem hm)
      rw [hok]
      exact ⟨_, rfl, hbuilt, hfree'⟩
    · right
      rw [routesOf, List.map_map] at hrefused
      rw [herror]
      exact ⟨e, _, rfl, (rejects_iff hfile).2 hrefused⟩
  · right
    cases node with
    | file => exact absurd rfl hfile
    | folder n p below => exact ⟨.notAFile p, _, rfl, rfl⟩

/-- The nodes are inserted one after the other, up to the first that is rejected. -/
theorem BuiltFrom.insertAll (h : BuiltFrom project before root) (hfree : CollisionFree before)
    (nodes : List FileNode) :
    (∃ root', root.insertAll nodes = .ok root' ∧ BuiltFrom project (before ++ nodes) root' ∧
      CollisionFree (before ++ nodes)) ∨
    ∃ done node after e, nodes = done ++ node :: after ∧ root.insertAll nodes = .error e ∧
      CollisionFree (before ++ done) ∧ Rejects project (before ++ done) node e := by
  induction nodes generalizing before root with
  | nil =>
    left
    rw [List.append_nil]
    exact ⟨root, rfl, h, hfree⟩
  | cons node nodes ih =>
    rcases h.insert hfree node with ⟨root', hinsert, h', hfree'⟩ | ⟨e, root', hinsert, hrejects⟩
    · have hrun : root.insertAll (node :: nodes) = root'.insertAll nodes := by
        rw [FileNode.insertAll, hinsert]
      rw [hrun, List.append_cons]
      rcases ih h' hfree' with hok | ⟨done, n, after, e, rfl, herror, hdone, hrejects⟩
      · exact .inl hok
      · right
        rw [List.append_assoc] at hdone hrejects
        exact ⟨node :: done, n, after, e, rfl, herror, hdone, hrejects⟩
    · right
      refine ⟨[], node, nodes, e, rfl, ?_, by rwa [List.append_nil], by rwa [List.append_nil]⟩
      rw [FileNode.insertAll, hinsert]

theorem builtFrom_empty (project : String) : BuiltFrom project [] (.folder project project []) :=
  ⟨[], rfl, .empty project project⟩

theorem collisionFree_nil : CollisionFree [] :=
  ⟨fun _ h => absurd h List.not_mem_nil, fun _ h => absurd h List.not_mem_nil, .nil⟩

/-- A list of nodes becomes the tree made of them, or one of them is rejected after those before
it. -/
theorem build_cases (nodes : List FileNode) (project : String) :
    (∃ root, build nodes project = .ok root ∧ BuiltFrom project nodes root ∧
      CollisionFree nodes) ∨
    ∃ before node after e, nodes = before ++ node :: after ∧ build nodes project = .error e ∧
      CollisionFree before ∧ Rejects project before node e :=
  (builtFrom_empty project).insertAll collisionFree_nil nodes

theorem builtFrom_of_build (h : build nodes project = .ok root) :
    BuiltFrom project nodes root ∧ CollisionFree nodes := by
  rcases build_cases nodes project with ⟨root', hok, hbuilt⟩ | ⟨_, _, _, e, _, herror, _⟩
  · rw [h] at hok
    obtain rfl := Except.ok.inj hok
    exact hbuilt
  · rw [h] at herror
    cases herror

theorem Rejects.mem_of_duplicateFile {node : FileNode} {q : String}
    (h : Rejects project before node (.duplicateFile q)) :
    segments node.path ∈ before.map fun n => segments n.path := by
  cases hfile : node.isFolder with
  | true => cases node with
    | file => cases hfile
    | folder => cases h
  | false =>
    rw [rejects_iff hfile] at h
    generalize segments node.path = keys at h
    cases h with
    | duplicateFile _ hmem => exact hmem

/-- A tree refuses a file as a duplicate only if two of the files have the same segments. -/
theorem build_duplicateFile {q : String} (h : build nodes project = .error (.duplicateFile q)) :
    ¬ (nodes.map fun n => segments n.path).Nodup := by
  rcases build_cases nodes project with ⟨root', hok, -⟩ |
    ⟨before, node, after, e, rfl, herror, -, hrejects⟩
  · rw [h] at hok
    cases hok
  · rw [h] at herror
    obtain rfl := Except.error.inj herror
    have hmem := hrejects.mem_of_duplicateFile
    rw [List.map_append, List.map_cons]
    exact fun hnodup => (List.nodup_append.1 hnodup).2.2 _ hmem _ (.head _) rfl

end

end EntityForge.FileNode
