import EntityForge.Archive.Zip.Open
import EntityForge.Proofs.Archive.Limits
import Mathlib.Data.List.Infix

/-!
# Bytes of entries

A reader that asks an entry for bytes decodes only as much as it needs. Decoding goes on from what
is decoded and takes back nothing that was handed out (`Decoded.GrowsTo`), so where it stops early
the bytes asked for are those that decoding further would give (`read_inflate_of_le`). An entry
that opens thus gives the beginning of one sequence of bytes, whatever is asked for
(`exists_item_openEntry`), and an archive that opens has contents (`exists_contents_of_openArchive`).
-/

namespace EntityForge.Archive

/-- The bytes of a sequence. -/
abbrev bytesOf (bytes : ByteArray) : List UInt8 :=
  bytes.data.toList

theorem bytesOf_extract (bytes : ByteArray) (n : Nat) :
    bytesOf (bytes.extract 0 n) = (bytesOf bytes).take n := by
  rw [bytesOf, ByteArray.data_extract, Array.toList_extract, List.extract_eq_take_drop,
    List.drop_zero, Nat.sub_zero]

namespace Decoded

/-- No more has been handed out than is decoded. -/
def Sound (d : Decoded) : Prop :=
  d.settled ≤ d.bytes.size

/-- Decoding goes on from `d` to `d'`. -/
structure GrowsTo (d d' : Decoded) : Prop where
  isPrefix : bytesOf d.bytes <+: bytesOf d'.bytes
  settled_le : d.settled ≤ d'.settled
  sound : d'.Sound

/-- What was handed out is what the stream begins with. -/
def Begins (d : Decoded) (s : ByteStream) : Prop :=
  (bytesOf d.bytes).take d.settled <+: bytesOf s.bytes

/-- Decoding goes on from `d`, or ends with a stream that begins with what was handed out. -/
def Continues (d : Decoded) : Inflated → Prop
  | .ok (d', _) => d.GrowsTo d'
  | .error s => d.Begins s

theorem Sound.growsTo {d : Decoded} (h : d.Sound) : d.GrowsTo d :=
  ⟨List.prefix_rfl, Nat.le_refl _, h⟩

namespace GrowsTo

variable {d d' d'' : Decoded} (h : d.GrowsTo d')
include h

theorem trans (h' : d'.GrowsTo d'') : d.GrowsTo d'' :=
  ⟨h.isPrefix.trans h'.isPrefix, Nat.le_trans h.settled_le h'.settled_le, h'.sound⟩

/-! ## Steps -/

/-- All that is decoded is handed out. -/
theorem settle (begun : Nat) :
    d.GrowsTo { d' with settled := d'.bytes.size, begun := begun } :=
  ⟨h.isPrefix, Nat.le_trans h.settled_le h.sound, Nat.le_refl _⟩

theorem takeTo (r : BitReader) : d.GrowsTo (d'.takeTo r) := by
  unfold Decoded.takeTo
  split
  · exact h.settle _
  · exact h

theorem makeRoom (r : BitReader) : d.GrowsTo (d'.makeRoom r) := by
  unfold Decoded.makeRoom
  split
  · exact h.settle _
  · exact h

theorem push (b : UInt8) : d.GrowsTo (d'.push b) where
  isPrefix := by
    refine h.isPrefix.trans ⟨[b], ?_⟩
    exact (Array.toList_push ..).symm
  settled_le := h.settled_le
  sound := by
    show d'.settled ≤ (d'.bytes.push b).size
    rw [ByteArray.size_push]
    exact Nat.le_succ_of_le h.sound

theorem copy (r : BitReader) (distance n : Nat) : d.GrowsTo (d'.copy r distance n) := by
  induction n generalizing d' with
  | zero => exact h
  | succ n ih => exact ih ((h.makeRoom r).push _)

/-! ## Ends -/

theorem begins (settled : Nat) (hle : d'.settled ≤ settled) (fails : Bool) :
    d.Begins ⟨d'.bytes.extract 0 settled, fails⟩ := by
  show (bytesOf d.bytes).take d.settled <+: bytesOf (d'.bytes.extract 0 settled)
  rw [bytesOf_extract]
  exact (h.isPrefix.take d.settled).trans
    (List.take_prefix_take_left (Nat.le_trans h.settled_le hle))

theorem begins_broken : d.Begins d'.broken :=
  h.begins d'.settled (Nat.le_refl _) true

theorem begins_whole (fails : Bool) : d.Begins ⟨d'.bytes, fails⟩ := by
  have hwhole := h.begins d'.bytes.size h.sound fails
  rwa [ByteArray.extract_zero_size] at hwhole

end GrowsTo

end Decoded

/-! ## Decoding goes on -/

section
variable {limit : Nat} {d₀ d : Decoded} (h : d₀.GrowsTo d)
include h

theorem continues_inflateItems (c : BlockCodes) (r : BitReader) :
    d₀.Continues (inflateItems limit c d r) := by
  fun_induction inflateItems limit c d r with
  | case1 d r henough => exact h.begins_broken
  | case2 d r henough hitem => exact h.begins_whole true
  | case3 d r henough r' hitem => exact h.takeTo r'
  | case4 d r henough r' hitem => exact (h.takeTo r').begins_broken
  | case5 d r henough b r' hitem ih => exact ih (((h.takeTo r').makeRoom r').push b)
  | case6 d r henough length distance r' hitem ih => exact ih ((h.takeTo r').copy r' distance length)

theorem continues_copyStored (r : BitReader) (n : Nat) : d₀.Continues (copyStored d r n) := by
  induction n generalizing d r with
  | zero => exact h
  | succ n ih =>
    rw [copyStored]
    cases r.bits? 8 with
    | none => exact (h.makeRoom r).begins_whole true
    | some byte => exact ih (((h.makeRoom r).takeTo byte.2).push _) byte.2

theorem continues_inflateStored (r : BitReader) : d₀.Continues (inflateStored d r) := by
  unfold inflateStored
  split
  · exact h.begins_whole true
  · split
    · exact h.begins_whole true
    · rename_i r' _
      dsimp only
      split
      · exact continues_copyStored (h.takeTo r') r' _
      · exact (h.takeTo r').begins_broken

theorem continues_inflateBlock (kind : Nat) (r : BitReader) :
    d₀.Continues (inflateBlock limit kind d r) := by
  unfold inflateBlock
  split
  · exact continues_inflateStored h r
  · exact continues_inflateItems h _ r
  · unfold inflateDynamic
    split
    · exact h.begins_whole true
    · exact (h.takeTo _).begins_broken
    · exact continues_inflateItems (h.takeTo _) _ _
  · exact h.begins_broken

theorem begins_inflateBlocks (r : BitReader) (fuel : Nat) :
    d₀.Begins (inflateBlocks limit d r fuel) := by
  induction fuel generalizing d r with
  | zero => exact h.begins_whole true
  | succ fuel ih =>
    rw [inflateBlocks]
    split
    · exact h.begins_broken
    · split
      · exact h.begins_whole true
      · rename_i header r' _
        have hblock : d₀.Continues (inflateBlock limit (header / 2) (d.takeTo r') r') :=
          continues_inflateBlock (h.takeTo r') (header / 2) r'
        split
        · rename_i s hs
          rwa [hs] at hblock
        · rename_i d' r'' hd
          rw [hd] at hblock
          split
          · exact hblock.begins_whole false
          · exact ih hblock r''

end

/-! ## Decoding less and more -/

/-- Two runs agree for a reader that asks for `n` bytes: they are the same, or the first stopped when
it had handed out so many and the second went on. -/
inductive Agree (n : Nat) : Inflated → Inflated → Prop
  | same (x : Inflated) : Agree n x x
  | enough {d : Decoded} {y : Inflated} : d.Sound → n ≤ d.settled → d.Continues y →
      Agree n (.error d.broken) y

/-- Before a reader has enough, the next item decides how decoding goes on. -/
theorem inflateItems_of_not_isEnough {limit : Nat} {c : BlockCodes} {d : Decoded} {r : BitReader}
    (henough : ¬ d.isEnough limit = true) :
    inflateItems limit c d r =
      match readItem? c r with
      | none => .error d.stopped
      | some (.endOfBlock, r') => .ok (d.takeTo r', r')
      | some (.invalid, r') => .error (d.takeTo r').broken
      | some (.literal b, r') => inflateItems limit c (((d.takeTo r').makeRoom r').push b) r'
      | some (.copy length distance, r') =>
        inflateItems limit c ((d.takeTo r').copy r' distance length) r' := by
  rw [inflateItems, if_neg henough]
  split <;> rename_i hitem <;> rw [hitem]

section
variable {n limit : Nat} (hle : n ≤ limit) {d : Decoded}
include hle

theorem not_isEnough_of_le (henough : ¬ d.isEnough n = true) : ¬ d.isEnough limit = true := by
  simp only [Decoded.isEnough, decide_eq_true_eq] at henough ⊢
  omega

theorem agree_inflateItems (h : d.Sound) (c : BlockCodes) (r : BitReader) :
    Agree n (inflateItems n c d r) (inflateItems limit c d r) := by
  fun_induction inflateItems n c d r with
  | case1 d r henough =>
    exact .enough h (of_decide_eq_true henough) (continues_inflateItems h.growsTo c r)
  | case2 d r henough hitem =>
    rw [inflateItems_of_not_isEnough (not_isEnough_of_le hle henough), hitem]
    exact .same _
  | case3 d r henough r' hitem =>
    rw [inflateItems_of_not_isEnough (not_isEnough_of_le hle henough), hitem]
    exact .same _
  | case4 d r henough r' hitem =>
    rw [inflateItems_of_not_isEnough (not_isEnough_of_le hle henough), hitem]
    exact .same _
  | case5 d r henough b r' hitem ih =>
    rw [inflateItems_of_not_isEnough (not_isEnough_of_le hle henough), hitem]
    exact ih (((h.growsTo.takeTo r').makeRoom r').push b).sound
  | case6 d r henough length distance r' hitem ih =>
    rw [inflateItems_of_not_isEnough (not_isEnough_of_le hle henough), hitem]
    exact ih ((h.growsTo.takeTo r').copy r' distance length).sound

theorem agree_inflateBlock (h : d.Sound) (kind : Nat) (r : BitReader) :
    Agree n (inflateBlock n kind d r) (inflateBlock limit kind d r) := by
  unfold inflateBlock
  split
  · exact .same _
  · exact agree_inflateItems hle h _ r
  · unfold inflateDynamic
    split
    · exact .same _
    · exact .same _
    · exact agree_inflateItems hle (h.growsTo.takeTo _).sound _ _
  · exact .same _

theorem agree_inflateBlocks (h : d.Sound) (r : BitReader) (fuel : Nat) :
    Agree n (.error (inflateBlocks n d r fuel)) (.error (inflateBlocks limit d r fuel)) := by
  induction fuel generalizing d r with
  | zero => exact .same _
  | succ fuel ih =>
    rw [inflateBlocks, inflateBlocks]
    by_cases henough : d.isEnough n = true
    · rw [if_pos henough]
      exact .enough h (of_decide_eq_true henough) (begins_inflateBlocks h.growsTo r (fuel + 1))
    · rw [if_neg henough, if_neg (not_isEnough_of_le hle henough)]
      cases r.bits? 3 with
      | none => exact .same _
      | some header =>
        obtain ⟨header, r'⟩ := header
        have hsound := (h.growsTo.takeTo r').sound
        have hgrows : (d.takeTo r').Continues (inflateBlock limit (header / 2) (d.takeTo r') r') :=
          continues_inflateBlock hsound.growsTo (header / 2) r'
        have hagree := agree_inflateBlock hle hsound (header / 2) r'
        dsimp only
        generalize inflateBlock n (header / 2) (d.takeTo r') r' = x at hagree
        generalize inflateBlock limit (header / 2) (d.takeTo r') r' = y at hagree hgrows
        cases hagree with
        | same =>
          cases x with
          | error s => exact .same _
          | ok next =>
            dsimp only
            split
            · exact .same _
            · exact ih hgrows.sound next.2
        | @enough d₀ _ hd henough' hy =>
          refine .enough hd henough' ?_
          cases y with
          | error s => exact hy
          | ok next =>
            show d₀.Begins _
            dsimp only
            split
            · exact hy.begins_whole false
            · exact begins_inflateBlocks hy next.2 fuel

end

/-! ## Reading decoded bytes -/

/-- A stream that begins with what was handed out gives the first bytes of it. -/
theorem Decoded.Begins.read_eq {d : Decoded} {s : ByteStream} (h : d.Begins s) (hd : d.Sound)
    {n : UInt64} (hn : n.toNat ≤ d.settled) : s.read n = .ok (d.bytes.extract 0 n.toNat) := by
  have hlength : ((bytesOf d.bytes).take d.settled).length = d.settled :=
    List.length_take_of_le hd
  have hsettled : (bytesOf d.bytes).take d.settled = (bytesOf s.bytes).take d.settled := by
    have heq := List.prefix_iff_eq_take.1 h
    rwa [hlength] at heq
  have hsize : d.settled ≤ s.bytes.size := hlength ▸ h.length_le
  have hbytes : s.bytes.extract 0 n.toNat = d.bytes.extract 0 n.toNat := by
    refine ByteArray.ext (Array.toList_inj.1 ?_)
    change bytesOf _ = bytesOf _
    rw [bytesOf_extract, bytesOf_extract, ← Nat.min_eq_left hn, ← List.take_take,
      ← List.take_take, hsettled]
  rw [ByteStream.read, if_pos (Nat.le_trans hn hsize), hbytes]

theorem Agree.read_eq {n : UInt64} {s s' : ByteStream} (h : Agree n.toNat (.error s) (.error s')) :
    s.read n = s'.read n := by
  cases h with
  | same => rfl
  | @enough d _ hd hn hs =>
    rw [hd.growsTo.begins_broken.read_eq hd hn]
    exact (Decoded.Begins.read_eq hs hd hn).symm

/-- Who asks for fewer bytes than data could be decoded to gets the first of those. -/
theorem read_inflate_of_le {n : UInt64} {limit : Nat} (hle : n.toNat ≤ limit) (data : ByteArray) :
    (inflate n.toNat data).read n = (inflate limit data).read n :=
  (agree_inflateBlocks hle (Nat.zero_le _) _ _).read_eq

/-! ## Entries of an archive -/

namespace Zip

/-- The error in the place of the end: data break off, or the checksum is not that of the bytes. -/
def failureOf (checksum : Nat) (s : ByteStream) : Option ReadError :=
  if s.fails then some .corruptData
  else if (crc32 s.bytes).toNat = checksum then none
  else some .wrongChecksum

/-- What stands in the archive for an entry with this data. -/
def itemOf (name : String) (size : UInt64) (m : Method) (checksum : Nat) (data : ByteArray) :
    Item where
  name := name
  isDirectory := isDirectoryName name
  size := size
  bytes := (m.decode UInt64.size data).bytes
  failure := failureOf checksum (m.decode UInt64.size data)

theorem read_decode (m : Method) (data : ByteArray) (n : UInt64) :
    (m.decode n.toNat data).read n = (m.decode UInt64.size data).read n := by
  cases m with
  | stored => rfl
  | deflated => exact read_inflate_of_le (Nat.le_of_lt n.toNat_lt) data

/-- The checksum is compared exactly when the end is met. -/
theorem readData_eq (name : String) (size : UInt64) (m : Method) (checksum : Nat)
    (data : ByteArray) : readData m checksum data = (itemOf name size m checksum data).read := by
  funext n
  rw [readData, read_decode, Item.read]
  unfold itemOf failureOf
  generalize m.decode UInt64.size data = s
  by_cases hn : n.toNat ≤ s.bytes.size
  · have hread : s.read n = .ok (s.bytes.extract 0 n.toNat) := if_pos hn
    have hsize : ¬ (s.bytes.extract 0 n.toNat).size < n.toNat := by
      rw [ByteArray.size_extract, Nat.sub_zero, Nat.min_eq_left hn]
      exact Nat.lt_irrefl _
    simp only [hread, bind, Except.bind, hsize, false_and, if_false, if_pos hn]
  · rw [ByteStream.read, if_neg hn, if_neg hn]
    by_cases hfails : s.fails = true
    · simp only [hfails, if_true, bind, Except.bind]
    · have hsize : s.bytes.size < n.toNat := Nat.lt_of_not_le hn
      by_cases hsum : (crc32 s.bytes).toNat = checksum <;>
        simp [hfails, hsum, hsize, bind, Except.bind]

/-- An entry that opens gives the bytes of one item, however many are asked for. -/
theorem exists_item_openEntry (bytes : ByteArray) (h : Header) :
    ∃ x : Except ZipError Item, openEntry bytes h = x.map Item.entry := by
  unfold openEntry
  split
  · exact ⟨.error .encrypted, rfl⟩
  · split
    · exact ⟨.error .malformed, rfl⟩
    · exact ⟨.error (.unsupportedMethod h.method), rfl⟩
    · rename_i dataStart m _ _
      refine ⟨.ok (itemOf h.name h.size.toUInt64 m h.checksum
        (bytes.extract dataStart (min (dataStart + h.compressedSize) bytes.size))), ?_⟩
      rw [readData_eq h.name h.size.toUInt64]
      rfl

/-- An archive that opens has contents. -/
theorem exists_contents_of_openArchive {bytes : ByteArray} {entries : List (Except ZipError Entry)}
    (h : openArchive bytes = .ok entries) : ∃ c : Contents, c.entries = entries := by
  unfold openArchive at h
  split at h
  · cases h
  · rename_i hs _
    obtain rfl := Except.ok.inj h
    choose item hitem using exists_item_openEntry bytes
    exact ⟨hs.map item, by simp [Contents.entries, Function.comp_def, hitem]⟩

end Zip

/-- The files of an archive are read exactly if its contents keep to the limits, and otherwise the
first thing that is wrong with them is the error. -/
theorem filesOfBytes_iff {limits : Limits} (hlimits : limits.Bounded) {bytes : ByteArray}
    {entries : List (Except ZipError Entry)} (h : Zip.openArchive bytes = .ok entries) :
    ∃ c : Contents, c.entries = entries ∧ (limits.Holdable c →
      (∀ files, filesOfBytes limits bytes = .ok files ↔
        limits.Accepts c ∧ files = c.filesWithBytes) ∧
      ∀ e, filesOfBytes limits bytes = .error e ↔ limits.FirstViolation c e) := by
  obtain ⟨c, rfl⟩ := Zip.exists_contents_of_openArchive h
  simp only [filesOfBytes, h]
  exact ⟨c, rfl, fun hheld => ⟨fun _ => readEntries_eq_ok_iff hlimits hheld,
    fun _ => readEntries_eq_error_iff hlimits hheld⟩⟩

/-- Within the limits that hold if none are given, this is so for every archive. -/
theorem filesOfBytes_default_iff {bytes : ByteArray} {entries : List (Except ZipError Entry)}
    (h : Zip.openArchive bytes = .ok entries) :
    ∃ c : Contents, c.entries = entries ∧
      (∀ files, filesOfBytes {} bytes = .ok files ↔
        Limits.Accepts {} c ∧ files = c.filesWithBytes) ∧
      ∀ e, filesOfBytes {} bytes = .error e ↔ Limits.FirstViolation {} c e := by
  obtain ⟨c, hc, hiff⟩ := filesOfBytes_iff Limits.bounded_default h
  exact ⟨c, hc, hiff (Limits.holdable_of_limits (by decide))⟩

end EntityForge.Archive
