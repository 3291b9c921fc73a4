import EntityForge.Proofs.Archive.Directory
import Mathlib.Algebra.GroupWithZero.Nat
import Mathlib.Data.List.Nodup

/-!
# Written archives

A writer puts the record of each file behind those before it and moves none (`Writer.Holds.add`), so
in the end every file has its record at its offset (`Writer.Holds.addAll`). A list of files is
written exactly if no name repeats and none is too long (`write_isOk_iff`), and a name is refused as
a duplicate only if it repeats (`Writer.addAll_duplicateName`). A written archive opens with an
entry for each file, in order (`openArchive_write`).
-/

namespace EntityForge.Archive.Zip

theorem ofBytes_append (a b : List UInt8) : ofBytes (a ++ b) = ofBytes a ++ ofBytes b :=
  ByteArray.ext (by simp [ofBytes, ByteArray.data_append])

/-- How many bytes a file takes before the directory. -/
def recordSize (file : String × ByteArray) : Nat :=
  30 + file.1.utf8ByteSize + file.2.size

namespace Writer

variable {w w' : Writer} {files done : List (String × ByteArray)} {name : String}
  {bytes : ByteArray}

/-- A file is added exactly if its name is new and not too long. Its record is put at the end. -/
theorem add_eq_ok_iff : w.add name bytes = .ok w' ↔
    name ∉ w.files.map (·.name) ∧ name.utf8ByteSize ≤ maxNameLength ∧
      w' = ⟨w.body ++ ofBytes (StoredFile.record ⟨name, bytes, w.body.size⟩),
        ⟨name, bytes, w.body.size⟩ :: w.files⟩ := by
  have hrecord (f : StoredFile) :
      w.body ++ ofBytes f.localHeader ++ f.bytes = w.body ++ ofBytes f.record := by
    rw [StoredFile.record, ofBytes_append, ofBytes_toList_data, ByteArray.append_assoc]
  have hused : (w.files.any (·.name == name)) = true ↔ name ∈ w.files.map (·.name) := by
    simp
  unfold add
  split
  · rename_i h
    simp [hused.1 h]
  · rename_i h
    rw [hused] at h
    split
    · rename_i hlong
      simp [Nat.not_le_of_lt hlong]
    · rename_i hlong
      rw [← hrecord, Except.ok.injEq, eq_comm]
      simp [h, Nat.le_of_not_lt hlong]

theorem add_duplicateName {n : String} (h : w.add name bytes = .error (.duplicateName n)) :
    name ∈ w.files.map (·.name) := by
  unfold add at h
  split at h
  · rename_i hused
    obtain ⟨f, hf, hname⟩ := List.any_eq_true.1 hused
    exact List.mem_map.2 ⟨f, hf, beq_iff_eq.1 hname⟩
  · split at h <;> cases h

/-- A name is refused as a duplicate only if it is that of an earlier file. -/
theorem addAll_duplicateName (h : w.addAll files = .error (.duplicateName name)) :
    ¬ (w.files.map (·.name) ++ files.map (·.1)).Nodup := by
  induction files generalizing w with
  | nil => cases h
  | cons f files ih =>
    rw [addAll] at h
    split at h
    · rename_i herror
      obtain rfl := Except.error.inj h
      rw [List.map_cons, List.nodup_middle, List.nodup_cons]
      exact fun hnodup => hnodup.1 (List.mem_append_left _ (add_duplicateName herror))
    · rename_i hok
      obtain ⟨-, -, rfl⟩ := add_eq_ok_iff.1 hok
      rw [List.map_cons, List.nodup_middle]
      exact ih h

/-- What a writer holds after these files: their records one after the other, each where its file
says. -/
structure Holds (w : Writer) (files : List (String × ByteArray)) : Prop where
  stored : w.files.reverse.map (fun f => (f.name, f.bytes)) = files
  size : w.body.size = (files.map recordSize).sum
  record : ∀ f ∈ w.files, hasAt w.body f.offset f.record = true
  nodup : (files.map (·.1)).Nodup
  length_le : ∀ f ∈ files, f.1.utf8ByteSize ≤ maxNameLength

theorem holds_empty : Holds {} [] := ⟨rfl, rfl, by simp, .nil, by simp⟩

namespace Holds

theorem mem_names_iff (h : w.Holds files) :
    name ∈ w.files.map (·.name) ↔ name ∈ files.map (·.1) := by
  rw [← h.stored]
  simp

theorem add (h : w.Holds files) (hadd : w.add name bytes = .ok w') :
    w'.Holds (files ++ [(name, bytes)]) := by
  obtain ⟨hnew, hlength, rfl⟩ := add_eq_ok_iff.1 hadd
  rw [h.mem_names_iff] at hnew
  refine ⟨by simp [h.stored], ?_, ?_, ?_, ?_⟩
  · rw [ByteArray.size_append, size_ofBytes, StoredFile.length_record, h.size, List.map_append,
      List.sum_append]
    simp [recordSize]
  · intro f hf
    rcases List.mem_cons.1 hf with rfl | hf
    · exact hasAt_end _ _
    · exact hasAt_append_left (h.record f hf)
  · rw [List.map_append, List.nodup_append]
    refine ⟨h.nodup, by simp, fun n hn m hm => ?_⟩
    rw [List.map_singleton, List.mem_singleton] at hm
    exact hm ▸ ne_of_mem_of_not_mem hn hnew
  · simpa [or_imp, forall_and, hlength] using h.length_le

theorem addAll (h : w.Holds done) (hadd : w.addAll files = .ok w') :
    w'.Holds (done ++ files) := by
  induction files generalizing w done with
  | nil =>
    obtain rfl := Except.ok.inj hadd
    rwa [List.append_nil]
  | cons f files ih =>
    rw [Writer.addAll] at hadd
    split at hadd
    · cases hadd
    · rename_i hf
      rw [List.append_cons]
      exact ih (h.add hf) hadd

/-- New names that are not too long can all be added. -/
theorem exists_addAll (h : w.Holds done) (hnodup : ((done ++ files).map (·.1)).Nodup)
    (hlength : ∀ f ∈ files, f.1.utf8ByteSize ≤ maxNameLength) :
    ∃ w', w.addAll files = .ok w' := by
  induction files generalizing w done with
  | nil => exact ⟨w, rfl⟩
  | cons f files ih =>
    obtain ⟨name, bytes⟩ := f
    have hnew : name ∉ w.files.map (·.name) := by
      rw [h.mem_names_iff]
      rw [List.map_append, List.nodup_append] at hnodup
      exact fun hmem => hnodup.2.2 name hmem name (.head _) rfl
    obtain ⟨next, hadd⟩ : ∃ next, w.add name bytes = .ok next :=
      ⟨_, add_eq_ok_iff.2 ⟨hnew, hlength (name, bytes) (.head _), rfl⟩⟩
    obtain ⟨w', hw'⟩ := ih (h.add hadd) (by rwa [← List.append_cons])
      fun g hg => hlength g (.tail _ hg)
    exact ⟨w', by rw [Writer.addAll, hadd]; exact hw'⟩

theorem offset_lt (h : w.Holds files) {f : StoredFile} (hf : f ∈ w.files) :
    f.offset + f.bytes.size < w.body.size := by
  have hlength := f.length_record
  have hend := hasAt_le_size (h.record f hf) (List.ne_nil_of_length_pos (by omega))
  omega

theorem fits (h : w.Holds files) (hsize : w.body.size < wide) {f : StoredFile} (hf : f ∈ w.files) :
    f.Fits := by
  have hwide : wide = 0xFFFFFFFF := rfl
  have hlt := h.offset_lt hf
  refine ⟨h.length_le (f.name, f.bytes) ?_, by omega, by omega⟩
  rw [← h.stored]
  exact List.mem_map_of_mem (List.mem_reverse.2 hf)

/-- The archive opens with the files that the writer holds. -/
theorem openArchive_finish (h : w.Holds files) (hcount : files.length < 0xFFFF)
    (hsize : (files.map recordSize).sum < wide) :
    openArchive w.finish = .ok (files.map fun f => .ok (storedEntry f.1 f.2)) := by
  rw [← h.size] at hsize
  have hlength : w.files.reverse.length = files.length := by
    rw [← h.stored, List.length_map]
  have hnames : (w.files.reverse.map (·.name)).Nodup := by
    have hnodup := h.nodup
    rwa [← h.stored, List.map_map] at hnodup
  have hheaders := headers?_layout w.files.reverse
    (fun f hf => h.fits hsize (List.mem_reverse.1 hf))
    (fun f hf => Nat.lt_of_le_of_lt (Nat.le_add_right _ _) (h.offset_lt (List.mem_reverse.1 hf)))
    hnames (hlength ▸ hcount) hsize
  rw [List.length_reverse] at hheaders
  have hentry : ∀ f ∈ w.files.reverse,
      openEntry w.finish f.entryHeader = .ok (storedEntry f.name f.bytes) := by
    intro f hf
    rw [List.mem_reverse] at hf
    exact StoredFile.openEntry_entryHeader (h.fits hsize hf)
      (hasAt_append_left (hasAt_append_left (h.record f hf)))
  have hopen : openArchive w.finish =
      .ok ((w.files.reverse.map (·.entryHeader)).map (openEntry w.finish)) := by
    rw [openArchive, finish, hheaders]
  rw [hopen, ← h.stored, List.map_map, List.map_map]
  exact congrArg _ (List.map_congr_left hentry)

end Holds

end Writer

section
variable {files : List (String × ByteArray)} {bytes : ByteArray}

theorem exists_holds_of_write (h : write files = .ok bytes) :
    ∃ w : Writer, w.Holds files ∧ w.finish = bytes := by
  unfold write at h
  cases hw : Writer.addAll {} files with
  | error e =>
    rw [hw] at h
    cases h
  | ok w =>
    rw [hw] at h
    exact ⟨w, Writer.holds_empty.addAll hw, Except.ok.inj h⟩

/-- Files are written exactly if no name repeats and none is too long. -/
theorem write_isOk_iff : (∃ bytes, write files = .ok bytes) ↔
    (files.map (·.1)).Nodup ∧ ∀ f ∈ files, f.1.utf8ByteSize ≤ maxNameLength := by
  constructor
  · rintro ⟨bytes, h⟩
    obtain ⟨w, hw, -⟩ := exists_holds_of_write h
    exact ⟨hw.nodup, hw.length_le⟩
  · rintro ⟨hnodup, hlength⟩
    obtain ⟨w, hw⟩ := Writer.holds_empty.exists_addAll hnodup hlength
    exact ⟨w.finish, by rw [write, hw]; rfl⟩

/-- A written archive opens with an entry for each file, in order, as long as it needs no wide
records. -/
theorem openArchive_write (h : write files = .ok bytes) (hcount : files.length < 0xFFFF)
    (hsize : (files.map recordSize).sum < wide) :
    openArchive bytes = .ok (files.map fun f => .ok (storedEntry f.1 f.2)) := by
  obtain ⟨w, hw, rfl⟩ := exists_holds_of_write h
  exact hw.openArchive_finish hcount hsize

end

end EntityForge.Archive.Zip
