import EntityForge.Archive.Zip.Open
import EntityForge.Archive.Zip.Write
import EntityForge.Proofs.Archive.Limits

/-!
# Raised limits

An archive that is accepted is accepted under higher limits (`Limits.Accepts.mono`), and as long as
the limit for entries is not the greatest number of 64 bits no number that a reader computes wraps
(`Limits.counts_of_bounded`): so raising limits loses nothing. At the greatest number the limit plus
one is zero, and the reader asks no file for a byte (`readEntries_of_not_bounded`).
-/

namespace EntityForge.Archive

namespace Limits

/-- No limit is lowered. -/
structure RaisedTo (limits raised : Limits) : Prop where
  maxEntries : limits.maxEntries ≤ raised.maxEntries
  maxEntryBytes : limits.maxEntryBytes ≤ raised.maxEntryBytes
  maxTotalBytes : limits.maxTotalBytes ≤ raised.maxTotalBytes

/-- The numbers that a reader computes are those that they stand for: the number of bytes it asks a
file for, and the total with each file that it takes. -/
structure Counts (limits : Limits) (c : Contents) : Prop where
  asked : (limits.maxEntryBytes + 1).toNat = limits.maxEntryBytes.toNat + 1
  total : ∀ before i after, c = before ++ .ok i :: after → i.isDirectory = false →
    limits.Accepts before → limits.Takes i → ∃ total : UInt64,
      readEntriesAfter limits 0 [] c.entries = readEntriesAfter limits total
        before.filesWithBytes.reverse (Contents.entries (.ok i :: after)) ∧
      (total + i.bytes.size.toUInt64).toNat = before.size + i.bytes.size

end Limits

section
variable {limits raised : Limits} {c : Contents}

/-! ## Higher limits -/

theorem Limits.Bounded.of_raisedTo (h : raised.Bounded) (hraised : limits.RaisedTo raised) :
    limits.Bounded := by
  have hle := UInt64.le_iff_toNat_le.1 hraised.maxEntryBytes
  have hbounded : raised.maxEntryBytes.toNat + 1 < UInt64.size := h
  show limits.maxEntryBytes.toNat + 1 < UInt64.size
  omega

theorem Limits.Takes.mono {i : Item} (h : limits.Takes i) (hraised : limits.RaisedTo raised) :
    raised.Takes i where
  declared := UInt64.le_trans h.declared hraised.maxEntryBytes
  ends := h.ends
  actual := Nat.le_trans h.actual (UInt64.le_iff_toNat_le.1 hraised.maxEntryBytes)

theorem Limits.Accepts.mono (h : limits.Accepts c) (hraised : limits.RaisedTo raised) :
    raised.Accepts c where
  count := Nat.le_trans h.count hraised.maxEntries
  opens := h.opens
  takes i hi := (h.takes i hi).mono hraised
  total := Nat.le_trans h.total (UInt64.le_iff_toNat_le.1 hraised.maxTotalBytes)

theorem Limits.counts_of_bounded (hlimits : limits.Bounded) (hheld : limits.Holdable c) :
    limits.Counts c where
  asked := hlimits.toNat_add_one
  total before i after hc hfile hbefore hi := by
    obtain ⟨total, htotal, hread⟩ := hbefore.readEntriesAfter_append hlimits (.ok i :: after)
    have hsum : total.toNat + i.bytes.size < UInt64.size :=
      htotal ▸ hheld before i after hc hfile hbefore hi
    exact ⟨total, by rw [hc, hread], by rw [toNat_total_add hi hsum, htotal]⟩

/-- What is read within limits is read within higher ones. -/
theorem readEntries_mono (hraised : limits.RaisedTo raised) (hbounded : raised.Bounded)
    (hheld : limits.Holdable c) {files : List (String × ByteArray)}
    (h : readEntries limits c.entries = .ok files) : readEntries raised c.entries = .ok files := by
  obtain ⟨haccepts, rfl⟩ :=
    (readEntries_eq_ok_iff (hbounded.of_raisedTo hraised) hheld).1 h
  exact (haccepts.mono hraised).readEntries_eq hbounded

/-! ## The greatest limit -/

theorem Limits.add_one_eq_zero (h : ¬ limits.Bounded) : limits.maxEntryBytes + 1 = 0 := by
  have hlt := limits.maxEntryBytes.toNat_lt
  have hmax : limits.maxEntryBytes.toNat = 18446744073709551615 := by
    have : ¬ limits.maxEntryBytes.toNat + 1 < UInt64.size := h
    rw [UInt64.size] at this
    omega
  rw [← UInt64.toNat_inj, UInt64.toNat_add, hmax]
  rfl

theorem readEntry_of_not_bounded (h : ¬ limits.Bounded) (i : Item) :
    readEntry limits i.entry = .ok .empty := by
  have hdeclared : ¬ limits.maxEntryBytes < i.size := by
    have hlt := i.size.toNat_lt
    have : ¬ limits.maxEntryBytes.toNat + 1 < UInt64.size := h
    rw [UInt64.lt_iff_toNat_lt]
    rw [UInt64.size] at this
    omega
  have hread : i.read (limits.maxEntryBytes + 1) = .ok .empty := by
    have hnone : (0 : UInt64).toNat ≤ i.bytes.size := Nat.zero_le _
    rw [Limits.add_one_eq_zero h, Item.read, if_pos hnone]
    simp
  have hactual : ¬ limits.maxEntryBytes < ByteArray.empty.size.toUInt64 := UInt64.not_lt_zero
  simp only [readEntry, Item.entry, if_neg hdeclared, hread, if_neg hactual]

/-- Entries that open are all read, without a byte. -/
theorem readEntriesAfter_of_not_bounded (h : ¬ limits.Bounded) (hopens : ∀ x ∈ c, ∃ i, x = .ok i)
    (done : List (String × ByteArray)) :
    readEntriesAfter limits 0 done c.entries =
      .ok (done.reverse ++ c.files.map fun i => (i.name, .empty)) := by
  induction c generalizing done with
  | nil => exact congrArg Except.ok (List.append_nil done.reverse).symm
  | cons x c ih =>
    have ih := ih fun y hy => hopens y (.tail _ hy)
    obtain ⟨i, rfl⟩ := hopens x (.head _)
    by_cases hkind : i.isDirectory = true
    · rw [Contents.files_cons_directory _ hkind, ← ih]
      exact readEntriesAfter_directory hkind ..
    · rw [Bool.not_eq_true] at hkind
      have hdirectory : i.entry.isDirectory = false := hkind
      have hbelow : ¬ limits.maxTotalBytes < 0 + ByteArray.empty.size.toUInt64 :=
        UInt64.not_lt_zero
      have hrest := ih ((i.name, .empty) :: done)
      rw [List.reverse_cons, List.append_assoc, List.singleton_append] at hrest
      rw [Contents.files_cons_file _ hkind, List.map_cons, ← hrest,
        Contents.entries, List.map_cons, Except.map, readEntriesAfter, hdirectory,
        readEntry_of_not_bounded h]
      simp only [Bool.false_eq_true, if_false, if_neg hbelow]
      rfl

/-- Whatever the limits are, an archive is read only if all entries open, and the result has the
names of the files. -/
theorem names_of_readEntriesAfter {total : UInt64} {done files : List (String × ByteArray)}
    (h : readEntriesAfter limits total done c.entries = .ok files) :
    (∀ x ∈ c, ∃ i, x = .ok i) ∧
      files.map (·.1) = done.reverse.map (·.1) ++ c.files.map (·.name) := by
  induction c generalizing total done with
  | nil =>
    obtain rfl : done.reverse = files := Except.ok.inj h
    exact ⟨by simp, (List.append_nil _).symm⟩
  | cons x c ih =>
    cases x with
    | error e => cases h
    | ok i =>
      have hopens (hc : ∀ y ∈ c, ∃ j, y = .ok j) : ∀ y ∈ (.ok i :: c : Contents), ∃ j, y = .ok j :=
        List.forall_mem_cons.2 ⟨⟨i, rfl⟩, hc⟩
      by_cases hkind : i.isDirectory = true
      · obtain ⟨hc, hnames⟩ := ih ((readEntriesAfter_directory hkind ..).symm.trans h)
        rw [Contents.files_cons_directory _ hkind]
        exact ⟨hopens hc, hnames⟩
      · rw [Bool.not_eq_true] at hkind
        have hdirectory : i.entry.isDirectory = false := hkind
        rw [Contents.entries, List.map_cons, Except.map, readEntriesAfter, hdirectory] at h
        simp only [Bool.false_eq_true, if_false] at h
        split at h
        · cases h
        · split at h
          · cases h
          · obtain ⟨hc, hnames⟩ := ih h
            rw [Contents.files_cons_file _ hkind, hnames]
            exact ⟨hopens hc, by simp [Item.entry]⟩

/-- What is read within limits loses all its bytes when the limit for entries is raised to the
greatest number. -/
theorem readEntries_of_not_bounded (h : ¬ raised.Bounded) (hraised : limits.RaisedTo raised)
    {files : List (String × ByteArray)} (hread : readEntries limits c.entries = .ok files) :
    readEntries raised c.entries = .ok (files.map fun f => (f.1, .empty)) := by
  unfold readEntries at hread ⊢
  rw [Contents.length_entries] at hread ⊢
  split at hread
  · cases hread
  · rename_i hcount
    obtain ⟨hopens, hnames⟩ := names_of_readEntriesAfter hread
    have hfiles : c.files.map (fun i => (i.name, ByteArray.empty)) =
        files.map fun f => (f.1, .empty) := by
      have := congrArg (List.map fun name => (name, ByteArray.empty)) hnames
      simpa [Function.comp_def] using this.symm
    rw [if_neg (fun hlt => hcount (Nat.lt_of_le_of_lt hraised.maxEntries hlt)),
      readEntriesAfter_of_not_bounded h hopens, List.reverse_nil, List.nil_append, hfiles]

end

end EntityForge.Archive
