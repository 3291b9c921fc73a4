import EntityForge.Proofs.FileTree.Placed
import Mathlib.Data.List.Pairwise

/-!
# Which lists of files become trees

A list of nodes becomes a tree exactly if it is free of collisions, in whatever order its nodes
stand. If it is not, the first node that has no place after those before it is rejected, with one
error and no other (`Refused.unique`). Both are said of the segments of paths alone
(`build_ok_iff_collisionFree`).
-/

namespace EntityForge.FileNode

/-! ## Collisions -/

theorem Apart.symm {keys other : List String} (h : Apart keys other) : Apart other keys :=
  ⟨h.2, h.1⟩

namespace CollisionFree

variable {nodes : List FileNode}

theorem perm {others : List FileNode} (h : CollisionFree nodes) (hperm : others.Perm nodes) :
    CollisionFree others where
  isFile n hn := h.isFile n (hperm.mem_iff.1 hn)
  segments_ne_nil n hn := h.segments_ne_nil n (hperm.mem_iff.1 hn)
  apart := (hperm.pairwise_iff fun hapart => hapart.symm).2 h.apart

/-- If the segments of one of the nodes begin those of another, they are the same. -/
theorem eq_of_isPrefix (h : CollisionFree nodes) {keys other : List String}
    (hkeys : keys ∈ nodes.map fun n => segments n.path)
    (hother : other ∈ nodes.map fun n => segments n.path) (hbegins : keys <+: other) :
    keys = other := by
  have hle : (nodes.map fun n => segments n.path).Pairwise fun a b => a <+: b → a = b :=
    List.pairwise_map.2 (h.apart.imp fun hapart hab => absurd hab hapart.1)
  have hge : (nodes.map fun n => segments n.path).Pairwise (flip fun a b => a <+: b → a = b) :=
    List.pairwise_map.2 (h.apart.imp fun hapart hba => absurd hba hapart.2)
  exact hle.forall_of_forall_of_flip (fun _ _ _ => rfl) hge hkeys hother hbegins

theorem nil_not_mem (h : CollisionFree nodes) : [] ∉ nodes.map fun n => segments n.path := by
  intro hmem
  obtain ⟨n, hn, hnil⟩ := List.mem_map.1 hmem
  exact h.segments_ne_nil n hn hnil

end CollisionFree

/-! ## Rejected nodes -/

section
variable {project : String} {before after : List FileNode} {node : FileNode} {e e' : TreeError}

/-- Keys are refused with one error. -/
theorem Refused.unique {keys : List String} (hfree : CollisionFree before)
    (h : Refused project (before.map fun n => segments n.path) keys e)
    (h' : Refused project (before.map fun n => segments n.path) keys e') : e = e' := by
  -- keys between two nodes are those of both
  have hbetween : ∀ {a b}, a ∈ before.map (fun n => segments n.path) →
      b ∈ before.map (fun n => segments n.path) → a <+: keys → keys <+: b →
        a = keys ∧ keys = b := by
    intro a b ha hb hak hkb
    obtain rfl := hfree.eq_of_isPrefix ha hb (hak.trans hkb)
    have heq : a = keys := hak.eq_of_length_le hkb.length_le
    exact ⟨heq, heq.symm⟩
  have hnil : ∀ {a}, a ∈ before.map (fun n => segments n.path) → ¬ a <+: [] := fun ha hbegins =>
    hfree.nil_not_mem (List.prefix_nil.1 hbegins ▸ ha)
  cases h with
  | emptyPath =>
    cases h' with
    | emptyPath => rfl
    | fileAsFolder hmem hbegins => exact absurd hbegins (hnil hmem)
    | folderAsFile hkeys => exact absurd rfl hkeys
    | duplicateFile hkeys => exact absurd rfl hkeys
  | fileAsFolder hmem hbegins hne =>
    cases h' with
    | emptyPath => exact absurd hbegins (hnil hmem)
    | fileAsFolder hmem' hbegins' =>
      rcases List.prefix_or_prefix_of_prefix hbegins hbegins' with hle | hle
      · rw [hfree.eq_of_isPrefix hmem hmem' hle]
      · rw [hfree.eq_of_isPrefix hmem' hmem hle]
    | folderAsFile _ hmem' hbegins' => exact absurd (hbetween hmem hmem' hbegins hbegins').1 hne
    | duplicateFile _ hmem' => exact absurd (hfree.eq_of_isPrefix hmem hmem' hbegins) hne
  | folderAsFile hkeys hmem hbegins hne =>
    cases h' with
    | emptyPath => exact absurd rfl hkeys
    | fileAsFolder hmem' hbegins' => exact absurd (hbetween hmem' hmem hbegins' hbegins).2 hne
    | folderAsFile => rfl
    | duplicateFile _ hmem' => exact absurd (hfree.eq_of_isPrefix hmem' hmem hbegins) hne
  | duplicateFile hkeys hmem =>
    cases h' with
    | emptyPath => exact absurd rfl hkeys
    | fileAsFolder hmem' hbegins' hne' =>
      exact absurd (hfree.eq_of_isPrefix hmem' hmem hbegins') hne'
    | folderAsFile _ hmem' hbegins' hne' =>
      exact absurd (hfree.eq_of_isPrefix hmem hmem' hbegins') hne'
    | duplicateFile => rfl

theorem Rejects.unique (hfree : CollisionFree before) (h : Rejects project before node e)
    (h' : Rejects project before node e') : e = e' := by
  cases node with
  | folder => exact Eq.trans h (Eq.symm h')
  | file => exact Refused.unique hfree h h'

/-- A rejected node collides with one before it. -/
theorem Rejects.not_collisionFree (h : Rejects project before node e) :
    ¬ CollisionFree (before ++ node :: after) := by
  intro hfree
  have hnode : node ∈ before ++ node :: after := List.mem_append_right _ (.head _)
  rw [rejects_iff (hfree.isFile node hnode)] at h
  have hapart : ∀ other ∈ before.map (fun n => segments n.path),
      Apart other (segments node.path) := by
    intro other hother
    obtain ⟨m, hm, rfl⟩ := List.mem_map.1 hother
    exact (List.pairwise_append.1 hfree.apart).2.2 m hm node (.head _)
  have hne := hfree.segments_ne_nil node hnode
  generalize segments node.path = keys at h hapart hne
  cases h with
  | emptyPath => exact hne rfl
  | fileAsFolder hmem hbegins => exact (hapart _ hmem).1 hbegins
  | folderAsFile _ hmem hbegins => exact (hapart _ hmem).2 hbegins
  | duplicateFile _ hmem => exact (hapart _ hmem).1 List.prefix_rfl

end

/-! ## Trees and errors -/

section
variable {project : String} {nodes : List FileNode}

theorem insertAll_append {root mid : FileNode} {first : List FileNode}
    (h : root.insertAll first = .ok mid) (rest : List FileNode) :
    root.insertAll (first ++ rest) = mid.insertAll rest := by
  induction first generalizing root with
  | nil =>
    obtain rfl := Except.ok.inj h
    rfl
  | cons node first ih =>
    rw [List.cons_append]
    rw [insertAll] at h ⊢
    split at h
    · exact ih h
    · cases h

theorem build_isOk_iff : (∃ root, build nodes project = .ok root) ↔ CollisionFree nodes := by
  constructor
  · rintro ⟨root, hok⟩
    exact (builtFrom_of_build hok).2
  · intro hfree
    rcases build_cases nodes project with ⟨root, hok, -⟩ |
      ⟨before, node, after, e, rfl, -, -, hrejects⟩
    · exact ⟨root, hok⟩
    · exact absurd hfree hrejects.not_collisionFree

theorem build_eq_error_iff {e : TreeError} : build nodes project = .error e ↔
    ∃ before node after, nodes = before ++ node :: after ∧ CollisionFree before ∧
      Rejects project before node e := by
  constructor
  · intro herror
    rcases build_cases nodes project with ⟨root, hok, -⟩ |
      ⟨before, node, after, e', hnodes, herror', hfree, hrejects⟩
    · rw [herror] at hok
      cases hok
    · rw [herror] at herror'
      obtain rfl := Except.error.inj herror'
      exact ⟨before, node, after, hnodes, hfree, hrejects⟩
  · rintro ⟨before, node, after, rfl, hfree, hrejects⟩
    obtain ⟨root, hok⟩ := build_isOk_iff.2 hfree
    have hrun : build (before ++ node :: after) project = root.insertAll (node :: after) :=
      insertAll_append hok _
    rcases (builtFrom_of_build hok).1.insert hfree node with ⟨root', -, -, hfree'⟩ |
      ⟨e', root', hinsert, hrejects'⟩
    · exact absurd hfree' hrejects.not_collisionFree
    · rw [hrun, insertAll, hinsert, hrejects.unique hfree hrejects']

/-- A list of nodes becomes a tree exactly if it is free of collisions, and so it does in any other
order. Otherwise the error is that of the first node without a place after those before it. -/
theorem build_ok_iff_collisionFree (nodes : List FileNode) (project : String) :
    ((∃ root, build nodes project = .ok root) ↔ CollisionFree nodes) ∧
    (∀ others, others.Perm nodes →
      ((∃ root, build others project = .ok root) ↔ ∃ root, build nodes project = .ok root)) ∧
    ∀ e, build nodes project = .error e ↔
      ∃ before node after, nodes = before ++ node :: after ∧ CollisionFree before ∧
        Rejects project before node e := by
  refine ⟨build_isOk_iff, fun others hperm => ?_, fun e => build_eq_error_iff⟩
  rw [build_isOk_iff, build_isOk_iff]
  exact ⟨fun hfree => hfree.perm hperm.symm, fun hfree => hfree.perm hperm⟩

/-- Two files in one folder, in both orders, and a third that has no place after them. -/
theorem build_ok_iff_collisionFree_two :
    [ofFile "a//c.txt" "2", ofFile "/a/b.txt" "1"].Perm
      [ofFile "/a/b.txt" "1", ofFile "a//c.txt" "2"] ∧
    (∃ root, build [ofFile "/a/b.txt" "1", ofFile "a//c.txt" "2"] "p" = .ok root) ∧
    (∃ root, build [ofFile "a//c.txt" "2", ofFile "/a/b.txt" "1"] "p" = .ok root) ∧
    build [ofFile "/a/b.txt" "1", ofFile "a//c.txt" "2", ofFile "a/b.txt/d" "3"] "p" =
      .error (.fileAsFolder "p/a/b.txt") := by
  have hb : segments "/a/b.txt" = ["a", "b.txt"] := by decide +kernel
  have hc : segments "a//c.txt" = ["a", "c.txt"] := by decide +kernel
  have hd : segments "a/b.txt/d" = ["a", "b.txt", "d"] := by decide +kernel
  have hfree : CollisionFree [ofFile "/a/b.txt" "1", ofFile "a//c.txt" "2"] :=
    ⟨by simp, by simp [hb, hc], by simp [hb, hc, Apart, List.cons_prefix_cons]⟩
  have hperm : [ofFile "a//c.txt" "2", ofFile "/a/b.txt" "1"].Perm
      [ofFile "/a/b.txt" "1", ofFile "a//c.txt" "2"] := .swap _ _ []
  obtain ⟨hok, horder, -⟩ :=
    build_ok_iff_collisionFree [ofFile "/a/b.txt" "1", ofFile "a//c.txt" "2"] "p"
  obtain ⟨-, -, herror⟩ := build_ok_iff_collisionFree
    [ofFile "/a/b.txt" "1", ofFile "a//c.txt" "2", ofFile "a/b.txt/d" "3"] "p"
  have hrefused : Refused "p" [["a", "b.txt"], ["a", "c.txt"]] ["a", "b.txt", "d"]
      (.fileAsFolder (pathUnder "p" ["a", "b.txt"])) :=
    .fileAsFolder (.head _) (List.prefix_append ["a", "b.txt"] ["d"]) (by decide)
  have hpath : pathUnder "p" ["a", "b.txt"] = "p/a/b.txt" := by decide +kernel
  refine ⟨hperm, hok.2 hfree, (horder _ hperm).2 (hok.2 hfree), (herror _).2
    ⟨[_, _], _, [], rfl, hfree, (rejects_iff (isFolder_ofFile _ _)).2 ?_⟩⟩
  simpa [hb, hc, hd, hpath] using hrefused

end

end EntityForge.FileNode
