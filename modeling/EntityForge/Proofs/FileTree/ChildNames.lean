import EntityForge.Proofs.FileTree.PrefixTree
import EntityForge.Proofs.Text.Pieces

/-!
# Names and keys

A file is named after what follows the last slash of its path, and it stands under the last segment
of its path. These are the same unless a slash ends the path (`baseName_eq_empty_iff`,
`getLast?_segments`). The nodes of a tree carry their keys as names, and files have the languages of
their keys, but for files with a slash at the end: these have no name (`build_isNamed`).
-/

namespace EntityForge.FileNode

open Keyed

/-! ## Names of files -/

/-- The node is a file, and a slash ends its path. -/
def HasTrailingSlash : FileNode → Prop
  | file _ path _ _ => path.toList.getLast? = some '/'
  | folder .. => False

/-- A node goes by a name: it has the name and, if it is a file, the language of that name. -/
structure IsNamed (name : String) (n : FileNode) : Prop where
  name_eq : n.name = name
  language_eq : ∀ nm path content language, n = .file nm path content language →
    language = Language.ofFileName name

theorem isNamed_ofFile (path content : String) :
    IsNamed (baseName path) (ofFile path content) where
  name_eq := rfl
  language_eq := by
    intro _ _ _ _ h
    cases h
    rfl

theorem isNamed_folder (name path : String) (cs : List (String × FileNode)) :
    IsNamed name (folder name path cs) where
  name_eq := rfl
  language_eq := fun _ _ _ _ h => nomatch h

/-- Nothing follows the last slash of a path exactly if the slash ends it. -/
theorem baseName_eq_empty_iff {path : String} (h : segments path ≠ []) :
    baseName path = "" ↔ path.toList.getLast? = some '/' := by
  have hne : path.toList ≠ [] := by
    intro hnil
    rw [segments, hnil] at h
    exact h rfl
  rw [baseName, String.ofList_eq_empty_iff, Text.getLastD_splitBy_eq_nil_iff,
    List.getLast?_eq_getLast_of_ne_nil hne]
  simp

/-- What follows the last slash of a path, if anything does, is its last segment. -/
theorem getLast?_segments {path : String} (h : baseName path ≠ "") :
    (segments path).getLast? = some (baseName path) := by
  rw [baseName, ne_eq, String.ofList_eq_empty_iff] at h
  rw [segments, List.getLast?_map, Text.getLast?_piecesBy h]
  rfl

/-- A file goes by its last segment, but it goes by no name if a slash ends its path. -/
theorem isNamed_ofFile_cases {path content : String} {keys : List String} {key : String}
    (h : segments path = keys ++ [key]) :
    ((ofFile path content).HasTrailingSlash → IsNamed "" (ofFile path content)) ∧
    (¬ (ofFile path content).HasTrailingSlash → IsNamed key (ofFile path content)) := by
  have hnamed := isNamed_ofFile path content
  have hempty : baseName path = "" ↔ (ofFile path content).HasTrailingSlash :=
    baseName_eq_empty_iff (by simp [h])
  constructor
  · intro hslash
    rwa [hempty.2 hslash] at hnamed
  · intro hslash
    have hlast := getLast?_segments (mt hempty.1 hslash)
    rw [h, List.getLast?_concat] at hlast
    rwa [← Option.some.inj hlast] at hnamed

/-! ## Children of a tree -/

namespace BuiltFrom

variable {project : String} {nodes : List FileNode} {root : FileNode}

/-- A child is a folder that is named after its key, or a file whose last segment the key is. -/
theorem child_cases (h : BuiltFrom project nodes root) {m : FileNode} (hm : m ∈ root.foldersFrom)
    {key : String} {n : FileNode} (hn : (key, n) ∈ m.children) :
    (∃ path cs, n = .folder key path cs) ∨ n ∈ nodes ∧ ∃ keys, segments n.path = keys ++ [key] := by
  obtain ⟨keys, hwalk, hfolder⟩ := h.madeOf.walk?_of_mem_foldersFrom hm
  have hmade := h.madeOf.walk? hwalk
  obtain ⟨cs, rfl⟩ := hmade.exists_folder hfolder
  have hchild := hmade.of_lookup (lookup_of_mem hmade.nodup_keys hn)
  cases n with
  | folder name path below =>
    obtain ⟨rfl, rfl⟩ := hchild.name_eq_and_path_eq
    exact .inl ⟨_, _, rfl⟩
  | file name path content language =>
    have hroute := mem_routesAfter.1 (mem_routesAfter.1 hchild.nil_mem_of_file)
    obtain ⟨hmem, hsegments⟩ := mem_routesOf.1 hroute
    exact .inr ⟨hmem, keys, hsegments⟩

end BuiltFrom

/-- The children of the folders of a tree go by their keys, but for files with a slash at the end
of their paths: these have no name, and the language of a file without name. -/
theorem build_isNamed {files : List (String × String)} {project : String} {root : FileNode}
    (h : build (files.map fun f => ofFile f.1 f.2) project = .ok root) :
    ∀ m ∈ root :: root.folders, ∀ c ∈ m.children,
      (c.2.HasTrailingSlash → IsNamed "" c.2) ∧ (¬ c.2.HasTrailingSlash → IsNamed c.1 c.2) := by
  have hbuilt := (builtFrom_of_build h).1
  have hroot : root :: root.folders = root.foldersFrom := by
    obtain ⟨cs, rfl, -⟩ := hbuilt
    rfl
  rintro m hm ⟨key, n⟩ hn
  rw [hroot] at hm
  rcases hbuilt.child_cases hm hn with ⟨path, cs, rfl⟩ | ⟨hmem, keys, hsegments⟩
  · exact ⟨False.elim, fun _ => isNamed_folder key path cs⟩
  · obtain ⟨f, -, rfl⟩ := List.mem_map.1 hmem
    exact isNamed_ofFile_cases hsegments

/-- Slashes at the start of a path and repeated ones are of no account, only those at the end. -/
theorem build_isNamed_slashes :
    build ([("/src//Book.java", "1"), ("notes.xml/", "2")].map fun f => ofFile f.1 f.2) "lib" =
      .ok (folder "lib" "lib" [
        ("src", folder "src" "lib/src" [("Book.java", ofFile "/src//Book.java" "1")]),
        ("notes.xml", ofFile "notes.xml/" "2")]) ∧
    IsNamed "Book.java" (ofFile "/src//Book.java" "1") ∧ IsNamed "" (ofFile "notes.xml/" "2") := by
  have hroot : build ([("/src//Book.java", "1"), ("notes.xml/", "2")].map
      fun f => ofFile f.1 f.2) "lib" = .ok (folder "lib" "lib" [
        ("src", folder "src" "lib/src" [("Book.java", ofFile "/src//Book.java" "1")]),
        ("notes.xml", ofFile "notes.xml/" "2")]) := rfl
  have hnamed := build_isNamed hroot
  have hbook : ¬ (ofFile "/src//Book.java" "1").HasTrailingSlash := by
    show ¬ "/src//Book.java".toList.getLast? = some '/'
    decide
  have hnotes : (ofFile "notes.xml/" "2").HasTrailingSlash := by
    show "notes.xml/".toList.getLast? = some '/'
    decide
  refine ⟨hroot, ?_, ?_⟩
  · exact (hnamed _ (.tail _ (.head _)) ("Book.java", _) (.head _)).2 hbook
  · exact (hnamed _ (.head _) ("notes.xml", _) (.tail _ (.head _))).1 hnotes

/-- A file with a slash at the end of its path has neither the name nor the language of its key. -/
theorem build_trailingSlash :
    build ([("a.java/", "x")].map fun f => ofFile f.1 f.2) "p" =
      .ok (folder "p" "p" [("a.java", ofFile "a.java/" "x")]) ∧
    ¬ IsNamed "a.java" (ofFile "a.java/" "x") ∧
    ofFile "a.java/" "x" = file "" "a.java/" "x" .text ∧ Language.ofFileName "a.java" = .java := by
  have hname : baseName "a.java/" = "" := by decide +kernel
  have htext : Language.ofFileName "" = .text := by decide +kernel
  have hfile : ofFile "a.java/" "x" = file "" "a.java/" "x" .text := by
    rw [ofFile, hname, htext]
  refine ⟨rfl, fun hnamed => ?_, hfile, by decide +kernel⟩
  have hkey : "" = "a.java" := by
    rw [hfile] at hnamed
    exact hnamed.name_eq
  exact absurd hkey (by decide)

end EntityForge.FileNode
