import EntityForge.Archive.Zip.Open
import EntityForge.Proofs.Archive.Layout

/-!
# Headers read back

A stored file has a header in the directory and one before its data. Where the first stands, it is
read as what it was written for (`StoredFile.at?_header`); where the second stands with the data
after it, the entry opens with the file's bytes (`StoredFile.openEntry_entryHeader`). Names come
back in both encodings (`textOf_flags`).
-/

namespace EntityForge.Archive.Zip

/-! ## Names -/

theorem charOfCodePage437_ofNat {n : Nat} (h : n < 128) :
    charOfCodePage437 (UInt8.ofNat n) = Char.ofNat n := by
  have hn : (UInt8.ofNat n).toNat = n := Text.toNat_ofNat_of_lt (by omega)
  have hlt : UInt8.ofNat n < 128 := UInt8.lt_iff_toNat_lt.2 (by rw [hn]; exact h)
  rw [charOfCodePage437, if_pos hlt, hn]

/-- A text of ASCII characters is the same in code page 437. -/
theorem textOfCodePage437_toUTF8 {s : String} (h : ∀ c ∈ s.toList, c.toNat < 128) :
    textOfCodePage437 s.toUTF8.toList = s := by
  rw [textOfCodePage437, Text.toList_toUTF8]
  refine String.toList_inj.1 ?_
  rw [String.toList_ofList]
  generalize s.toList = cs at h
  induction cs with
  | nil => rfl
  | cons c cs ih =>
    have hc := h c (.head _)
    have hencode : String.utf8EncodeChar c = [UInt8.ofNat c.toNat] :=
      if_pos (Nat.le_of_lt_succ hc)
    rw [List.flatMap_cons, hencode, List.singleton_append, List.map_cons,
      charOfCodePage437_ofNat hc, Char.ofNat_toNat, ih fun d hd => h d (.tail _ hd)]

/-- The entry of stored bytes. -/
def storedEntry (name : String) (bytes : ByteArray) : Entry where
  name := name
  isDirectory := isDirectoryName name
  size := bytes.size.toUInt64
  read := readData .stored (crc32 bytes).toNat bytes

namespace StoredFile

variable (f : StoredFile)

/-- A name is read in the encoding that its flags tell. -/
theorem textOf_flags : textOf (f.flags.testBit 11) f.name.toUTF8 = f.name := by
  unfold flags textOf
  split
  · rename_i h
    have hascii : ∀ c ∈ f.name.toList, c.toNat < 128 := by simpa using h
    rw [if_neg (by decide)]
    exact textOfCodePage437_toUTF8 hascii
  · rw [if_pos (by decide)]
    exact Text.decodeLossy_toUTF8 f.name

theorem textOf_empty (isUtf8 : Bool) : textOf isUtf8 (ofBytes []) = "" := by
  cases isUtf8 <;> decide +kernel

/-! ## Headers of the directory -/

/-- The numbers of the file fit into its headers. -/
structure Fits : Prop where
  name : f.name.utf8ByteSize ≤ maxNameLength
  size : f.bytes.size < 0x100000000
  offset : f.offset < 0x100000000

/-- What a header of the directory says of the file. -/
def entryHeader : Header where
  name := f.name
  rawName := f.name.toUTF8
  comment := ""
  isEncrypted := false
  method := 0
  checksum := (crc32 f.bytes).toNat
  compressedSize := f.bytes.size
  size := f.bytes.size
  offset := f.offset

theorem length_toList_toUTF8 (s : String) : s.toUTF8.toList.length = s.utf8ByteSize := by
  rw [Text.toList_eq_data]
  rfl

theorem ofBytes_toList_toUTF8 (s : String) : ofBytes s.toUTF8.toList = s.toUTF8 := by
  rw [Text.toList_eq_data, ofBytes_toList_data]

theorem length_header : f.header.length = 46 + f.name.utf8ByteSize := by
  simp only [header, sharedFields, headerSignature, List.length_append, List.length_cons,
    List.length_nil, littleEndian_length, length_toList_toUTF8]

theorem length_localHeader : f.localHeader.length = 30 + f.name.utf8ByteSize := by
  simp only [localHeader, sharedFields, localSignature, List.length_append, List.length_cons,
    List.length_nil, littleEndian_length, length_toList_toUTF8]

variable {f} {bytes : ByteArray} {place : Nat}

theorem withFields_empty (h : Header) : withFields (ofBytes []) h = some h := rfl

theorem natAt?_name (hf : f.Fits) {i : Nat}
    (h : hasAt bytes i (littleEndian 2 f.name.utf8ByteSize) = true) :
    natAt? bytes i 2 = some f.name.utf8ByteSize :=
  natAt?_littleEndian (Nat.lt_succ_of_le hf.name) h

/-- Where the header of a file stands in the directory, it is read as that file's. -/
theorem at?_header (hf : f.Fits) (h : hasAt bytes place f.header = true) :
    Header.at? bytes 0 place = some (f.entryHeader, place + f.header.length) := by
  have hlength : headerSignature.length = 4 := rfl
  have hsize := hasAt_le_size h (List.ne_nil_of_length_pos (by rw [length_header]; omega))
  rw [length_header] at hsize ⊢
  simp only [header, sharedFields, List.append_assoc, hasAt_append, littleEndian_length, hlength,
    Bool.and_eq_true, Nat.add_assoc, Nat.reduceAdd] at h
  obtain ⟨hsignature, -, -, hflags, hmethod, -, -, hcrc, hcompressed, hbytes, hname, hfields,
    hcomment, -, -, -, hoffset, hraw⟩ := h
  have hflagsLt : f.flags < Nat.pow 256 2 := by
    unfold flags
    split <;> decide
  have hraw := slice?_of_hasAt hraw (by omega)
  rw [length_toList_toUTF8, ofBytes_toList_toUTF8] at hraw
  have hempty : slice? bytes (place + 46 + f.name.utf8ByteSize) 0 = some (ofBytes []) :=
    slice?_of_hasAt (l := []) rfl (by omega)
  have hbelow : f.offset < UInt64.size := Nat.lt_trans hf.offset (by decide)
  have hmethodKind : (0 ≠ keyMethod ∨ false = true) = True := eq_true (.inl (by decide))
  have hencrypted : (f.flags % 2 == 1) = false := by
    unfold flags
    split <;> rfl
  unfold Header.at?
  simp only [guard, hsignature, natAt?_littleEndian hflagsLt hflags,
    natAt?_littleEndian (by decide) hmethod, natAt?_littleEndian (crc32 f.bytes).toNat_lt hcrc,
    natAt?_littleEndian hf.size hcompressed, natAt?_littleEndian hf.size hbytes,
    natAt?_name hf hname, natAt?_littleEndian (by decide) hfields,
    natAt?_littleEndian (by decide) hcomment, natAt?_littleEndian hf.offset hoffset,
    if_true, Option.pure_def, Option.bind_eq_bind, Option.bind_some, hraw, hempty, Nat.add_zero,
    textOf_flags, textOf_empty, withFields_empty, hmethodKind, hencrypted, hbelow]
  rw [Nat.add_assoc]
  rfl

/-! ## Entries -/

variable (f) in
/-- What stands in the archive for the file: its local header and its bytes. -/
def record : List UInt8 :=
  f.localHeader ++ f.bytes.data.toList

variable (f) in
theorem length_record : f.record.length = 30 + f.name.utf8ByteSize + f.bytes.size := by
  rw [record, List.length_append, length_localHeader]
  rfl

/-- The data start after the local header. -/
theorem dataStart?_entryHeader (hf : f.Fits) (h : hasAt bytes f.offset f.localHeader = true) :
    f.entryHeader.dataStart? bytes = some (f.offset + f.localHeader.length) := by
  have hlength : localSignature.length = 4 := rfl
  rw [length_localHeader]
  simp only [localHeader, sharedFields, List.append_assoc, hasAt_append, littleEndian_length,
    hlength, Bool.and_eq_true, Nat.add_assoc, Nat.reduceAdd] at h
  obtain ⟨hsignature, -, -, -, -, -, -, -, -, hname, hfields, -⟩ := h
  have hoffset : f.entryHeader.offset = f.offset := rfl
  unfold Header.dataStart?
  simp only [guard, hoffset, hsignature, natAt?_name hf hname,
    natAt?_littleEndian (by decide) hfields, if_true, Option.pure_def, Option.bind_eq_bind,
    Option.bind_some]
  rw [Nat.add_zero, Nat.add_assoc]

/-- Where the record of a file stands, its header opens the entry with its bytes. -/
theorem openEntry_entryHeader (hf : f.Fits) (h : hasAt bytes f.offset f.record = true) :
    openEntry bytes f.entryHeader = .ok (storedEntry f.name f.bytes) := by
  have hsize := hasAt_le_size h (List.ne_nil_of_length_pos (by rw [length_record]; omega))
  rw [length_record] at hsize
  rw [record, hasAt_append, Bool.and_eq_true] at h
  have hdata : bytes.extract (f.offset + f.localHeader.length)
      (min (f.offset + f.localHeader.length + f.bytes.size) bytes.size) = f.bytes := by
    rw [Nat.min_eq_left (by rw [length_localHeader]; omega)]
    exact extract_of_hasAt h.2
  have hencrypted : (f.entryHeader.isEncrypted || f.entryHeader.hasKeyField) = false := rfl
  have hmethod : Method.ofNat? f.entryHeader.method = some .stored := rfl
  unfold openEntry
  rw [hencrypted, dataStart?_entryHeader hf h.1, hmethod]
  simp only [Bool.false_eq_true, if_false]
  have hcompressed : f.entryHeader.compressedSize = f.bytes.size := rfl
  rw [hcompressed, hdata]
  rfl

end StoredFile

end EntityForge.Archive.Zip
