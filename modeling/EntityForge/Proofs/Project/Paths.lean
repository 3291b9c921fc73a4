import EntityForge.Project
import EntityForge.Proofs.Archive.Written
import EntityForge.Proofs.Entity.Columns
import EntityForge.Proofs.FileTree.Placed
import EntityForge.Proofs.Text.Pieces

/-!
# Paths of generated files

The path of a generated file tells its kind and the class (`FileKind.path_inj`), so the files of a
project have different paths exactly if the classes of the schema have different names. The archive
of such a project is not refused for a repeated name (`ofFiles_duplicateName`), and a tree
compares the segments of paths (`FileNode.build_duplicateFile`), which tell the same unless names
have slashes (`sourceFiles_paths_nodup_iff`).
-/

namespace EntityForge

open Dbml

/-! ## Kinds of files -/

/-- A kind of file that an entity has: its folder and what follows the class name. -/
structure FileKind where
  folder : String
  ending : String
deriving DecidableEq

namespace FileKind

/-- The four kinds of files, in the order in which they are generated. -/
def all : List FileKind :=
  [⟨"entity", ".java"⟩, ⟨"repository", "Repository.java"⟩, ⟨"service", "Service.java"⟩,
    ⟨"controller", "Controller.java"⟩]

/-- The path of the file of that kind from the root of the package. -/
def path (k : FileKind) (cls : String) : String :=
  k.folder ++ "/" ++ cls ++ k.ending

theorem toList_path (k : FileKind) (cls : String) :
    (k.path cls).toList = k.folder.toList ++ '/' :: (cls.toList ++ k.ending.toList) := by
  simp [path]

/-- Folders and endings are names without slashes, and kinds have different folders. -/
theorem noSlash_of_mem_all {k : FileKind} (hk : k ∈ all) :
    (∀ c ∈ k.folder.toList, (c == '/') = false) ∧ k.folder.toList ≠ [] ∧
      (∀ c ∈ k.ending.toList, (c == '/') = false) ∧ k.ending.toList ≠ [] := by
  have hall : ∀ k ∈ all, '/' ∉ k.folder.toList ∧ k.folder.toList ≠ [] ∧
      '/' ∉ k.ending.toList ∧ k.ending.toList ≠ [] := by decide
  obtain ⟨hfolder, hfolder', hending, hending'⟩ := hall k hk
  have hne : ∀ {w : List Char}, '/' ∉ w → ∀ c ∈ w, (c == '/') = false := fun hw c hc =>
    beq_eq_false_iff_ne.2 (ne_of_mem_of_not_mem hc hw)
  exact ⟨hne hfolder, hfolder', hne hending, hending'⟩

theorem eq_of_folder_eq {k l : FileKind} (hk : k ∈ all) (hl : l ∈ all)
    (h : k.folder = l.folder) : k = l := by
  have hall : (all.map (·.folder)).Nodup := by decide
  exact List.inj_on_of_nodup_map hall hk hl h

/-- A path tells the kind of the file and the class. -/
theorem path_inj {k l : FileKind} (hk : k ∈ all) (hl : l ∈ all) {c d : String}
    (h : k.path c = l.path d) : k = l ∧ c = d := by
  have htext := congrArg String.toList h
  rw [toList_path, toList_path] at htext
  have hpieces := congrArg (Text.splitBy (· == '/')) htext
  rw [Text.splitBy_append (noSlash_of_mem_all hk).1 (by decide),
    Text.splitBy_append (noSlash_of_mem_all hl).1 (by decide)] at hpieces
  obtain rfl := eq_of_folder_eq hk hl (String.toList_inj.1 (List.cons.inj hpieces).1)
  exact ⟨rfl, String.toList_inj.1 (by simpa using htext)⟩

/-- The segments of a path tell the kind of the file, and those of the class name with an ending. -/
theorem segments_path_inj {k l : FileKind} (hk : k ∈ all) (hl : l ∈ all) {c d : String}
    (h : FileNode.segments (k.path c) = FileNode.segments (l.path d)) :
    k = l ∧ FileNode.segments (c ++ ".java") = FileNode.segments (d ++ ".java") := by
  have hinj : Function.Injective String.ofList := fun _ _ => String.ofList_inj.1
  have hpieces := List.map_injective_iff.2 hinj h
  rw [toList_path, toList_path,
    Text.piecesBy_append (noSlash_of_mem_all hk).1 (noSlash_of_mem_all hk).2.1 (by decide),
    Text.piecesBy_append (noSlash_of_mem_all hl).1 (noSlash_of_mem_all hl).2.1 (by decide)]
    at hpieces
  obtain ⟨hfolder, hrest⟩ := List.cons.inj hpieces
  obtain rfl := eq_of_folder_eq hk hl (String.toList_inj.1 hfolder)
  refine ⟨rfl, congrArg (List.map String.ofList) ?_⟩
  rw [String.toList_append, String.toList_append]
  have hjava := noSlash_of_mem_all (k := ⟨"entity", ".java"⟩) (.head _)
  exact (Text.piecesBy_append_right_iff (noSlash_of_mem_all hk).2.2.1 hjava.2.2.1
    (noSlash_of_mem_all hk).2.2.2 hjava.2.2.2).1 hrest

end FileKind

theorem Entity.map_path_files (e : Entity) :
    e.files.map (·.path) = FileKind.all.map (·.path e.className) := rfl

/-! ## Files of a project -/

namespace Compiler

theorem className_of_compile {c : Compiler} {db : Database} {t : Table} {e : Entity}
    (h : c.compile db t = .ok e) : e.className = pascalCase t.name := by
  obtain ⟨a, -, rfl⟩ := compile_eq_ok.1 h
  rfl

/-- The entities of a schema are those of its tables, in order. -/
theorem classNames_of_compileSchema {c : Compiler} {db : Database} {schema : String}
    {es : List Entity} (h : c.compileSchema db schema = .ok es) :
    es.map (·.className) = (db.tablesIn schema).map fun t => pascalCase t.name := by
  unfold compileSchema at h
  unfold Database.tablesIn
  cases hs : db.schema? schema with
  | none =>
    rw [hs] at h
    cases h
  | some s =>
    rw [hs] at h
    have hall := mapM_eq_ok.1 h
    dsimp only
    clear h
    generalize s.tables = ts at hall
    induction hall with
    | nil => rfl
    | cons he _ ih => rw [List.map_cons, List.map_cons, ih, className_of_compile he]

end Compiler

namespace Settings

theorem classNames_of_entities {s : Settings} {db : Database} {es : List Entity}
    (h : s.entities db = .ok es) :
    es.map (·.className) = (db.tablesIn s.schema).map fun t => pascalCase t.name := by
  unfold entities at h
  split at h
  · cases h
  · split at h
    · cases h
    · rename_i hes
      obtain rfl := Except.ok.inj h
      exact Compiler.classNames_of_compileSchema hes

/-- The paths of the files of a project: one of each kind for each class. -/
theorem paths_of_sourceFiles {s : Settings} {db : Database} {files : List GeneratedFile}
    (h : s.sourceFiles db = .ok files) : files.map (·.path) =
      ((db.tablesIn s.schema).map fun t => pascalCase t.name).flatMap fun cls =>
        FileKind.all.map fun k => s.basePath ++ k.path cls := by
  unfold sourceFiles at h
  split at h
  · cases h
  · rename_i es hes
    obtain rfl := Except.ok.inj h
    rw [← classNames_of_entities hes, List.flatMap_map, List.map_map, List.map_flatMap]
    refine List.flatMap_congr fun e _ => ?_
    have hfiles := congrArg (List.map (s.basePath ++ ·)) e.map_path_files
    rwa [List.map_map, List.map_map] at hfiles

end Settings

/-! ## Different paths -/

/-- One file of each kind for each class: if what is seen of a path tells the kind and a property
of the class, and the classes differ in that property, then what is seen of the paths differs. -/
theorem nodup_map_flatMap_kinds {α β : Type} (view : String → α) (property : String → β)
    (path : FileKind → String → String) {classes : List String}
    (hinj : ∀ k ∈ FileKind.all, ∀ l ∈ FileKind.all, ∀ c d, view (path k c) = view (path l d) →
      k = l ∧ property c = property d) (h : (classes.map property).Nodup) :
    ((classes.flatMap fun c => FileKind.all.map (path · c)).map view).Nodup := by
  have hkinds : FileKind.all.Nodup := by decide
  rw [List.map_flatMap, List.nodup_flatMap]
  refine ⟨fun c _ => ?_, (List.pairwise_map.1 h).imp fun {c d} hne => ?_⟩
  · rw [List.map_map]
    exact hkinds.map_on fun k hk l hl heq => (hinj k hk l hl c c heq).1
  · simp only [List.map_map]
    intro seen hc hd
    obtain ⟨k, hk, rfl⟩ := List.mem_map.1 hc
    obtain ⟨l, hl, heq⟩ := List.mem_map.1 hd
    exact hne (hinj l hl k hk d c heq).2.symm

section
variable {s : Settings} {db : Database} {files : List GeneratedFile}

theorem basePath_append_inj (s : Settings) {x y : String}
    (h : s.basePath ++ x = s.basePath ++ y) : x = y :=
  String.toList_inj.1 (by simpa using congrArg String.toList h)

/-- The segments of a path below the folder of the package. -/
theorem segments_basePath_append (s : Settings) (x : String) :
    FileNode.segments (s.basePath ++ x) =
      FileNode.segments s.basePath ++ FileNode.segments x := by
  obtain ⟨w, hw⟩ : ∃ w, s.basePath.toList = w ++ ['/'] :=
    ⟨_, by rw [Settings.basePath, String.toList_append]; rfl⟩
  have hempty : Text.piecesBy (· == '/') (w ++ ['/']) = Text.piecesBy (· == '/') w := by
    rw [Text.piecesBy_append_cons (by decide)]
    simp [Text.piecesBy, Text.splitBy]
  unfold FileNode.segments
  rw [String.toList_append, hw, hempty, List.append_assoc, List.singleton_append,
    Text.piecesBy_append_cons (by decide), List.map_append]

theorem nodup_paths_iff (h : s.sourceFiles db = .ok files) : (files.map (·.path)).Nodup ↔
    ((db.tablesIn s.schema).map fun t => pascalCase t.name).Nodup := by
  rw [Settings.paths_of_sourceFiles h]
  constructor
  · intro hnodup
    -- two classes of one name would have the same paths
    refine (List.nodup_flatMap.1 hnodup).2.imp fun {c d} hdisjoint heq => ?_
    subst heq
    exact hdisjoint (.head _) (.head _)
  · intro hclasses
    have hpaths := nodup_map_flatMap_kinds id id (fun k c => s.basePath ++ k.path c)
      (fun k hk l hl c d heq => FileKind.path_inj hk hl (basePath_append_inj s heq))
      (by rwa [List.map_id])
    rwa [List.map_id] at hpaths

theorem nodup_segments (h : s.sourceFiles db = .ok files)
    (hclasses : ((db.tablesIn s.schema).map fun t =>
      FileNode.segments (pascalCase t.name ++ ".java")).Nodup) :
    (files.map fun f => FileNode.segments f.path).Nodup := by
  have hpaths := congrArg (List.map FileNode.segments) (Settings.paths_of_sourceFiles h)
  rw [List.map_map] at hpaths
  refine (congrArg List.Nodup hpaths).mpr ?_
  refine nodup_map_flatMap_kinds FileNode.segments (fun c => FileNode.segments (c ++ ".java"))
    (fun k c => s.basePath ++ k.path c) (fun k hk l hl c d heq => ?_)
    (by rwa [List.map_map, Function.comp_def])
  rw [segments_basePath_append, segments_basePath_append] at heq
  exact FileKind.segments_path_inj hk hl (List.append_cancel_left heq)

end

/-! ## Archives -/

namespace Archive

theorem ofFiles_duplicateName {files : List GeneratedFile} {root name : String}
    (h : ofFiles files root = .error (.zip (.duplicateName name))) :
    ¬ (files.map fun f => root ++ f.path).Nodup := by
  have hzip : Zip.write (files.map fun f => (root ++ f.path, f.content.toUTF8)) =
      .error (.duplicateName name) := by
    unfold ofFiles at h
    split at h
    · cases h
    · rename_i herror
      rw [herror]
      cases h
      rfl
  have hadd : Zip.Writer.addAll {} (files.map fun f => (root ++ f.path, f.content.toUTF8)) =
      .error (.duplicateName name) := by
    unfold Zip.write at hzip
    revert hzip
    cases Zip.Writer.addAll {} (files.map fun f => (root ++ f.path, f.content.toUTF8)) with
    | error e => exact fun heq => congrArg _ (Except.error.inj heq)
    | ok w => exact fun heq => (nomatch heq)
  have hnodup := Zip.Writer.addAll_duplicateName hadd
  rw [List.map_map] at hnodup
  exact hnodup

end Archive

end EntityForge
