import EntityForge.Project
import EntityForge.Proofs.Archive.Streams
import EntityForge.Proofs.Archive.Written

/-!
# Archives read back

What is stored is read back as it is, because its checksum is that of the directory, so files within
the limits of the reader are accepted (`Limits.Admit.accepts`), and the bytes of texts are texts
again (`textEntries_toUTF8`). So an archive of generated files is read back as their names and
contents, in order (`textsOfBytes_of_ofFiles`, `exists_archive_of_files`).
-/

namespace EntityForge.Archive

/-! ## Stored files -/

/-- Files are within the limits of a reader. -/
structure Limits.Admit (limits : Limits) (files : List (String × ByteArray)) : Prop where
  count : files.length ≤ limits.maxEntries
  size : ∀ f ∈ files, f.2.size ≤ limits.maxEntryBytes.toNat
  total : (files.map (·.2.size)).sum ≤ limits.maxTotalBytes.toNat

/-- What stands in an archive for a file that is stored as it is. -/
def storedItem (f : String × ByteArray) : Item :=
  Zip.itemOf f.1 f.2.size.toUInt64 .stored (crc32 f.2).toNat f.2

theorem entry_storedItem (f : String × ByteArray) :
    (storedItem f).entry = Zip.storedEntry f.1 f.2 := by
  rw [Zip.storedEntry, Zip.readData_eq f.1 f.2.size.toUInt64]
  rfl

/-- The contents of an archive of stored files. -/
def storedContents (files : List (String × ByteArray)) : Contents :=
  files.map fun f => .ok (storedItem f)

section
variable {limits : Limits} {bytes : ByteArray} {files : List (String × ByteArray)}

theorem entries_storedContents : (storedContents files).entries =
    files.map fun f => .ok (Zip.storedEntry f.1 f.2) := by
  rw [Contents.entries, storedContents, List.map_map]
  exact List.map_congr_left fun f _ => congrArg Except.ok (entry_storedItem f)

theorem files_storedContents (hname : ∀ f ∈ files, Zip.isDirectoryName f.1 = false) :
    (storedContents files).files = files.map storedItem := by
  induction files with
  | nil => rfl
  | cons f files ih =>
    have hf : (storedItem f).isDirectory = false := hname f (.head _)
    rw [storedContents, List.map_cons, Contents.files_cons_file _ hf, List.map_cons]
    exact congrArg _ (ih fun g hg => hname g (.tail _ hg))

/-- Stored files are accepted within the limits, because their checksums are those of their
bytes. -/
theorem Limits.Admit.accepts (h : limits.Admit files)
    (hname : ∀ f ∈ files, Zip.isDirectoryName f.1 = false) :
    limits.Accepts (storedContents files) where
  count := by simpa [storedContents] using h.count
  opens := List.forall_mem_map.2 fun f _ => ⟨storedItem f, rfl⟩
  takes := by
    rw [files_storedContents hname]
    refine List.forall_mem_map.2 fun f hf => ⟨?_, ?_, h.size f hf⟩
    · show f.2.size.toUInt64 ≤ limits.maxEntryBytes
      rw [UInt64.le_iff_toNat_le, toNat_toUInt64_of_le (h.size f hf)]
      exact h.size f hf
    · simp [storedItem, Zip.itemOf, Zip.failureOf, Zip.Method.decode]
  total := by
    rw [Contents.size, files_storedContents hname, List.map_map]
    exact h.total

/-- A written archive is read back within the limits of the reader. -/
theorem filesOfBytes_write (hlimits : limits.Bounded) (hfiles : limits.Admit files)
    (hname : ∀ f ∈ files, Zip.isDirectoryName f.1 = false) (h : Zip.write files = .ok bytes)
    (hcount : files.length < 0xFFFF) (hsize : (files.map Zip.recordSize).sum < Zip.wide) :
    filesOfBytes limits bytes = .ok files := by
  have hopen := Zip.openArchive_write h hcount hsize
  rw [← entries_storedContents] at hopen
  have hcontents : (storedContents files).filesWithBytes = files := by
    rw [Contents.filesWithBytes, files_storedContents hname, List.map_map]
    exact List.map_id _
  simp only [filesOfBytes, hopen]
  rw [(hfiles.accepts hname).readEntries_eq hlimits, hcontents]

end

/-! ## Texts -/

theorem textEntries_toUTF8 (texts : List (String × String)) :
    textEntries (texts.map fun t => (t.1, t.2.toUTF8)) = .ok texts := by
  induction texts with
  | nil => rfl
  | cons t texts ih =>
    rw [List.map_cons, textEntries, Text.fromUTF8?_toUTF8, ih]
    rfl

/-! ## Generated files -/

section
variable {files : List GeneratedFile} {root : String} {bytes : ByteArray}

theorem ofFiles_eq_ok_iff : ofFiles files root = .ok bytes ↔
    Zip.write (files.map fun f => (root ++ f.path, f.content.toUTF8)) = .ok bytes := by
  unfold ofFiles
  split <;> simp_all

/-- Generated files are packed exactly if no name repeats and none is too long. -/
theorem ofFiles_isOk_iff : (∃ bytes, ofFiles files root = .ok bytes) ↔
    (files.map (root ++ ·.path)).Nodup ∧
      ∀ f ∈ files, (root ++ f.path).utf8ByteSize ≤ Zip.maxNameLength := by
  simp only [ofFiles_eq_ok_iff, Zip.write_isOk_iff, List.map_map, List.forall_mem_map]
  rfl

/-- Generated files are within the limits of a reader of archives, and their names fit into
entries. -/
structure Readable (files : List GeneratedFile) (root : String) : Prop where
  count : files.length ≤ ({} : Limits).maxEntries
  size : ∀ f ∈ files, f.content.utf8ByteSize ≤ ({} : Limits).maxEntryBytes.toNat
  total : (files.map (·.content.utf8ByteSize)).sum ≤ ({} : Limits).maxTotalBytes.toNat
  name : ∀ f ∈ files, (root ++ f.path).utf8ByteSize ≤ Zip.maxNameLength

instance (files : List GeneratedFile) (root : String) : Decidable (Readable files root) :=
  decidable_of_iff
    (files.length ≤ ({} : Limits).maxEntries ∧
      (∀ f ∈ files, f.content.utf8ByteSize ≤ ({} : Limits).maxEntryBytes.toNat) ∧
      (files.map (·.content.utf8ByteSize)).sum ≤ ({} : Limits).maxTotalBytes.toNat ∧
      ∀ f ∈ files, (root ++ f.path).utf8ByteSize ≤ Zip.maxNameLength)
    ⟨fun ⟨count, size, total, name⟩ => ⟨count, size, total, name⟩,
      fun ⟨count, size, total, name⟩ => ⟨count, size, total, name⟩⟩

theorem sum_recordSize_le {stored : List (String × ByteArray)}
    (h : ∀ f ∈ stored, f.1.utf8ByteSize ≤ Zip.maxNameLength) :
    (stored.map Zip.recordSize).sum ≤
      stored.length * (30 + Zip.maxNameLength) + (stored.map (·.2.size)).sum := by
  induction stored with
  | nil => simp
  | cons f stored ih =>
    have hf := h f (.head _)
    have hrest := ih fun g hg => h g (.tail _ hg)
    rw [List.map_cons, List.map_cons, List.sum_cons, List.sum_cons, List.length_cons,
      Nat.succ_mul, Zip.recordSize]
    omega

/-- An archive of generated files is read back as their names and contents, in order. -/
theorem textsOfBytes_of_ofFiles (hfiles : Readable files root)
    (hname : ∀ f ∈ files, Zip.isDirectoryName (root ++ f.path) = false)
    (h : ofFiles files root = .ok bytes) :
    textsOfBytes bytes = .ok (files.map fun f => (root ++ f.path, f.content)) := by
  set texts := files.map fun f => (root ++ f.path, f.content) with htexts
  have hstored : (files.map fun f => (root ++ f.path, f.content.toUTF8)) =
      texts.map fun t => (t.1, t.2.toUTF8) := by
    rw [htexts, List.map_map]
    rfl
  rw [ofFiles_eq_ok_iff, hstored] at h
  have hadmit : ({} : Limits).Admit (texts.map fun t => (t.1, t.2.toUTF8)) := by
    rw [← hstored]
    refine ⟨by simpa using hfiles.count, List.forall_mem_map.2 hfiles.size, ?_⟩
    rw [List.map_map]
    exact hfiles.total
  have hlength : ∀ f ∈ texts.map (fun t => (t.1, t.2.toUTF8)),
      f.1.utf8ByteSize ≤ Zip.maxNameLength := by
    rw [← hstored]
    exact List.forall_mem_map.2 hfiles.name
  have hcount : (texts.map fun t => (t.1, t.2.toUTF8)).length ≤ 10000 := hadmit.count
  have htotal : ((texts.map fun t => (t.1, t.2.toUTF8)).map (·.2.size)).sum ≤ 134217728 :=
    hadmit.total
  -- ten thousand records are far from needing wide numbers
  have hsize := sum_recordSize_le hlength
  have hread := filesOfBytes_write Limits.bounded_default hadmit
    (by rw [← hstored]; exact List.forall_mem_map.2 hname) h (by omega)
    (by rw [Zip.maxNameLength] at hsize; rw [Zip.wide]; omega)
  simp only [textsOfBytes, hread]
  exact textEntries_toUTF8 texts

end

end EntityForge.Archive
