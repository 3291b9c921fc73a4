import EntityForge.Proofs.Archive.Contents
import Mathlib.Data.List.Induction

/-!
# Limits of archives

A reader accepts an archive exactly if it has no more entries than allowed, all of them open, and
the files keep to the limit for entries and to that for their sum (`Limits.Accepts`); otherwise it
refuses the archive for the first thing that is wrong with it (`Limits.FirstViolation`). A file is
taken or refused whole (`readEntry_of_takes`, `readEntry_of_refuses`). Accepted entries are read one
after the other and the total counts their bytes (`readEntriesAfter_append`), so the entry after
them decides (`readEntriesAfter_of_violation`).
-/

namespace EntityForge.Archive

/-! ## One entry -/

/-- The limit for entries is that of a reader that can ask for one byte more. -/
def Limits.Bounded (limits : Limits) : Prop :=
  limits.maxEntryBytes.toNat + 1 < UInt64.size

instance (limits : Limits) : Decidable limits.Bounded :=
  inferInstanceAs (Decidable (_ < _))

theorem Limits.bounded_default : Limits.Bounded {} := by decide

namespace Limits

variable (limits : Limits)

/-- A file that keeps to the limit for entries and can be read to its end. -/
structure Takes (i : Item) : Prop where
  declared : i.size ≤ limits.maxEntryBytes
  ends : i.failure = none
  actual : i.bytes.size ≤ limits.maxEntryBytes.toNat

/-- Why a file is refused. The error among its bytes counts only if it comes before the first byte
beyond the limit. -/
inductive Refuses (i : Item) : ArchiveError → Prop
  | declared : limits.maxEntryBytes < i.size →
      Refuses i (.entryTooLarge i.name i.size limits.maxEntryBytes)
  | read {e : ReadError} : i.size ≤ limits.maxEntryBytes → i.failure = some e →
      i.bytes.size ≤ limits.maxEntryBytes.toNat → Refuses i (.read e)
  | actual : i.size ≤ limits.maxEntryBytes → limits.maxEntryBytes.toNat < i.bytes.size →
      Refuses i (.entryTooLarge i.name (limits.maxEntryBytes + 1) limits.maxEntryBytes)

theorem takes_or_refuses (i : Item) : limits.Takes i ∨ ∃ e, limits.Refuses i e := by
  by_cases hdeclared : i.size ≤ limits.maxEntryBytes
  · by_cases hactual : i.bytes.size ≤ limits.maxEntryBytes.toNat
    · cases hends : i.failure with
      | none => exact .inl ⟨hdeclared, hends, hactual⟩
      | some e => exact .inr ⟨_, .read hdeclared hends hactual⟩
    · exact .inr ⟨_, .actual hdeclared (Nat.lt_of_not_le hactual)⟩
  · exact .inr ⟨_, .declared (UInt64.not_le.1 hdeclared)⟩

end Limits

section
variable {limits : Limits} {i : Item}

theorem toNat_toUInt64_of_le {n : Nat} {limit : UInt64} (h : n ≤ limit.toNat) :
    n.toUInt64.toNat = n :=
  UInt64.toNat_ofNat_of_lt' (Nat.lt_of_le_of_lt h limit.toNat_lt)

theorem Limits.Bounded.toNat_add_one (h : limits.Bounded) :
    (limits.maxEntryBytes + 1).toNat = limits.maxEntryBytes.toNat + 1 := by
  rw [UInt64.toNat_add]
  exact Nat.mod_eq_of_lt h

theorem readEntry_of_takes (hlimits : limits.Bounded) (h : limits.Takes i) :
    readEntry limits i.entry = .ok i.bytes := by
  have hread : i.read (limits.maxEntryBytes + 1) = .ok i.bytes := by
    rw [Item.read, hlimits.toNat_add_one, if_neg (by have := h.actual; omega), h.ends]
  have hactual : ¬ limits.maxEntryBytes < i.bytes.size.toUInt64 := by
    rw [UInt64.lt_iff_toNat_lt, toNat_toUInt64_of_le h.actual]
    exact Nat.not_lt_of_le h.actual
  simp only [readEntry, Item.entry, if_neg (UInt64.not_lt.2 h.declared), hread, if_neg hactual]

theorem readEntry_of_refuses (hlimits : limits.Bounded) {e : ArchiveError}
    (h : limits.Refuses i e) : readEntry limits i.entry = .error e := by
  cases h with
  | declared hdeclared => exact if_pos hdeclared
  | @read e hdeclared hends hactual =>
    have hread : i.read (limits.maxEntryBytes + 1) = .error e := by
      rw [Item.read, hlimits.toNat_add_one, if_neg (by omega), hends]
    simp only [readEntry, Item.entry, if_neg (UInt64.not_lt.2 hdeclared), hread]
  | actual hdeclared hactual =>
    -- the reader stops one byte beyond the limit
    have hread : i.read (limits.maxEntryBytes + 1) =
        .ok (i.bytes.extract 0 (limits.maxEntryBytes + 1).toNat) :=
      if_pos (by rw [hlimits.toNat_add_one]; omega)
    have hsize : (i.bytes.extract 0 (limits.maxEntryBytes + 1).toNat).size.toUInt64 =
        limits.maxEntryBytes + 1 := by
      rw [ByteArray.size_extract, Nat.sub_zero,
        Nat.min_eq_left (by rw [hlimits.toNat_add_one]; omega)]
      exact UInt64.ofNat_toNat
    have hmore : limits.maxEntryBytes < limits.maxEntryBytes + 1 := by
      rw [UInt64.lt_iff_toNat_lt, hlimits.toNat_add_one]
      exact Nat.lt_succ_self _
    simp only [readEntry, Item.entry, if_neg (UInt64.not_lt.2 hdeclared), hread, hsize,
      if_pos hmore]

end

/-! ## Archives -/

namespace Limits

variable (limits : Limits)

/-- An archive that keeps to the limits, and of which everything can be read. -/
structure Accepts (c : Contents) : Prop where
  count : c.length ≤ limits.maxEntries
  opens : ∀ x ∈ c, ∃ i, x = .ok i
  takes : ∀ i ∈ c.files, limits.Takes i
  total : c.size ≤ limits.maxTotalBytes.toNat

/-- What is wrong with an entry, where the files before it have `total` bytes. -/
inductive Violation (total : Nat) : Except ZipError Item → ArchiveError → Prop
  | unopened (e : ZipError) : Violation total (.error e) (.zip e)
  | refused {i : Item} {e : ArchiveError} : i.isDirectory = false → limits.Refuses i e →
      Violation total (.ok i) e
  | total {i : Item} : i.isDirectory = false → limits.Takes i →
      limits.maxTotalBytes.toNat < total + i.bytes.size →
      Violation total (.ok i) (.totalTooLarge limits.maxTotalBytes)

/-- The first thing that is wrong with an archive: it has too many entries, or there is something
wrong with an entry and nothing with those before it. -/
inductive FirstViolation (c : Contents) : ArchiveError → Prop
  | count : limits.maxEntries < c.length →
      FirstViolation c (.tooManyEntries c.length limits.maxEntries)
  | entry {before after : Contents} {x : Except ZipError Item} {e : ArchiveError} :
      c.length ≤ limits.maxEntries → c = before ++ x :: after → limits.Accepts before →
      limits.Violation before.size x e → FirstViolation c e

/-- The bytes that a reader holds at one time can be counted in 64 bits, as they can in every
memory. It holds what it has accepted and one file more. -/
def Holdable (c : Contents) : Prop :=
  ∀ before i after, c = before ++ .ok i :: after → i.isDirectory = false →
    limits.Accepts before → limits.Takes i → before.size + i.bytes.size < UInt64.size

end Limits

section
variable {limits : Limits} {c before after : Contents} {i : Item}

theorem Limits.holdable_of_size_lt (h : c.size < UInt64.size) : limits.Holdable c := by
  rintro before i after rfl hfile - -
  rw [Contents.size_append, Contents.size_cons_file _ hfile] at h
  omega

/-- Whatever the archive is, no reader holds more than these limits allow. -/
theorem Limits.holdable_of_limits
    (h : limits.maxTotalBytes.toNat + limits.maxEntryBytes.toNat < UInt64.size) :
    limits.Holdable c := by
  rintro before i after - - hbefore hi
  have htotal := hbefore.total
  have hactual := hi.actual
  omega

/-! ## Accepted entries -/

theorem readEntriesAfter_directory (h : i.isDirectory = true) (total : UInt64)
    (done : List (String × ByteArray)) (rest : List (Except ZipError Entry)) :
    readEntriesAfter limits total done (.ok i.entry :: rest) =
      readEntriesAfter limits total done rest := by
  rw [readEntriesAfter]
  exact if_pos h

/-- The total after a file that is taken. -/
theorem toNat_total_add (h : limits.Takes i) {total : UInt64}
    (hheld : total.toNat + i.bytes.size < UInt64.size) :
    (total + i.bytes.size.toUInt64).toNat = total.toNat + i.bytes.size := by
  rw [UInt64.toNat_add, toNat_toUInt64_of_le h.actual]
  exact Nat.mod_eq_of_lt hheld

theorem readEntriesAfter_file (hlimits : limits.Bounded) (hfile : i.isDirectory = false)
    (h : limits.Takes i) {total : UInt64} (hheld : total.toNat + i.bytes.size < UInt64.size)
    (done : List (String × ByteArray)) (rest : List (Except ZipError Entry)) :
    readEntriesAfter limits total done (.ok i.entry :: rest) =
      if limits.maxTotalBytes.toNat < total.toNat + i.bytes.size then
        .error (.totalTooLarge limits.maxTotalBytes)
      else
        readEntriesAfter limits (total + i.bytes.size.toUInt64) ((i.name, i.bytes) :: done)
          rest := by
  have hdirectory : i.entry.isDirectory = false := hfile
  rw [readEntriesAfter, hdirectory, readEntry_of_takes hlimits h, ← toNat_total_add h hheld]
  simp only [Bool.false_eq_true, if_false, UInt64.lt_iff_toNat_lt]
  rfl

/-- Entries that keep to the limits are all read, and the total counts their bytes. -/
theorem readEntriesAfter_append (hlimits : limits.Bounded) (hopens : ∀ x ∈ before, ∃ i, x = .ok i)
    (htakes : ∀ i ∈ before.files, limits.Takes i) (total : UInt64)
    (htotal : total.toNat + before.size ≤ limits.maxTotalBytes.toNat) (after : Contents)
    (done : List (String × ByteArray)) :
    ∃ total' : UInt64, total'.toNat = total.toNat + before.size ∧
      readEntriesAfter limits total done (Contents.entries (before ++ after)) =
        readEntriesAfter limits total' (before.filesWithBytes.reverse ++ done) after.entries := by
  induction before generalizing total done with
  | nil => exact ⟨total, rfl, rfl⟩
  | cons x before ih =>
    have ih := ih fun y hy => hopens y (.tail _ hy)
    obtain ⟨i, rfl⟩ := hopens x (.head _)
    by_cases hkind : i.isDirectory = true
    · rw [Contents.files_cons_directory _ hkind] at htakes
      rw [Contents.size_cons_directory _ hkind] at htotal ⊢
      obtain ⟨total', hcount, hread⟩ := ih htakes total htotal done
      refine ⟨total', hcount, ?_⟩
      rw [Contents.filesWithBytes, Contents.files_cons_directory _ hkind]
      exact (readEntriesAfter_directory hkind ..).trans hread
    · rw [Bool.not_eq_true] at hkind
      rw [Contents.files_cons_file _ hkind] at htakes
      rw [Contents.size_cons_file _ hkind] at htotal ⊢
      have hi := htakes i (.head _)
      have hheld : total.toNat + i.bytes.size < UInt64.size :=
        Nat.lt_of_le_of_lt (by omega) limits.maxTotalBytes.toNat_lt
      obtain ⟨total', hcount, hread⟩ := ih (fun j hj => htakes j (.tail _ hj))
        (total + i.bytes.size.toUInt64) (by rw [toNat_total_add hi hheld]; omega)
        ((i.name, i.bytes) :: done)
      rw [toNat_total_add hi hheld] at hcount
      refine ⟨total', by omega, ?_⟩
      rw [Contents.filesWithBytes, Contents.files_cons_file _ hkind, List.map_cons,
        List.reverse_cons, List.append_assoc]
      exact ((readEntriesAfter_file hlimits hkind hi hheld done _).trans
        (if_neg (by omega))).trans hread

/-- Accepted entries are read from the start of an archive. -/
theorem Limits.Accepts.readEntriesAfter_append (hlimits : limits.Bounded)
    (h : limits.Accepts before) (after : Contents) :
    ∃ total : UInt64, total.toNat = before.size ∧
      readEntriesAfter limits 0 [] (Contents.entries (before ++ after)) =
        readEntriesAfter limits total before.filesWithBytes.reverse after.entries := by
  have htotal : (0 : UInt64).toNat + before.size ≤ limits.maxTotalBytes.toNat := by
    simpa using h.total
  simpa using Archive.readEntriesAfter_append hlimits h.opens h.takes 0 htotal after []

/-! ## The first violation -/

/-- The entry with which something is wrong decides. -/
theorem readEntriesAfter_of_violation (hlimits : limits.Bounded) {x : Except ZipError Item}
    {e : ArchiveError} {total : UInt64} (h : limits.Violation total.toNat x e)
    (hheld : ∀ i, x = .ok i → limits.Takes i → total.toNat + i.bytes.size < UInt64.size)
    (done : List (String × ByteArray)) (after : Contents) :
    readEntriesAfter limits total done (Contents.entries (x :: after)) = .error e := by
  cases h with
  | unopened e => rfl
  | @refused i e hfile hrefuses =>
    have hdirectory : i.entry.isDirectory = false := hfile
    rw [Contents.entries, List.map_cons, Except.map, readEntriesAfter, hdirectory,
      readEntry_of_refuses hlimits hrefuses]
    rfl
  | @total i hfile htakes hmore =>
    exact (readEntriesAfter_file hlimits hfile htakes (hheld i rfl htakes) done _).trans
      (if_pos hmore)

theorem Limits.accepts_nil : limits.Accepts [] :=
  ⟨Nat.zero_le _, by simp, by simp [Contents.files], Nat.zero_le _⟩

/-- An entry after accepted ones is accepted, or there is something wrong with it. -/
theorem Limits.Accepts.append_singleton (h : limits.Accepts before) (x : Except ZipError Item)
    (hcount : (before ++ [x]).length ≤ limits.maxEntries) :
    limits.Accepts (before ++ [x]) ∨ ∃ e, limits.Violation before.size x e := by
  have hopens {i : Item} : ∀ y ∈ before ++ [.ok i], ∃ j, y = .ok j := by
    intro y hy
    rcases List.mem_append.1 hy with hy | hy
    · exact h.opens y hy
    · exact ⟨i, List.mem_singleton.1 hy⟩
  cases x with
  | error e => exact .inr ⟨_, .unopened e⟩
  | ok i =>
    by_cases hkind : i.isDirectory = true
    · refine .inl ⟨hcount, hopens, ?_, ?_⟩
      · rw [Contents.files_append, Contents.files_cons_directory _ hkind]
        simpa [Contents.files] using h.takes
      · rw [Contents.size_append, Contents.size_cons_directory _ hkind]
        exact h.total
    · rw [Bool.not_eq_true] at hkind
      rcases limits.takes_or_refuses i with hi | ⟨e, he⟩
      · by_cases htotal : before.size + i.bytes.size ≤ limits.maxTotalBytes.toNat
        · refine .inl ⟨hcount, hopens, ?_, ?_⟩
          · rw [Contents.files_append, Contents.files_cons_file _ hkind]
            simpa [Contents.files, or_imp, forall_and, hi] using h.takes
          · rw [Contents.size_append, Contents.size_cons_file _ hkind]
            exact htotal
        · exact .inr ⟨_, .total hkind hi (Nat.lt_of_not_le htotal)⟩
      · exact .inr ⟨e, .refused hkind he⟩

/-- An archive is accepted, or there is a first thing that is wrong with it. -/
theorem Limits.accepts_or_firstViolation (limits : Limits) (c : Contents) :
    limits.Accepts c ∨ ∃ e, limits.FirstViolation c e := by
  rcases Nat.lt_or_ge limits.maxEntries c.length with hcount | hcount
  · exact .inr ⟨_, .count hcount⟩
  -- the longest part from the start that is accepted ends before the first violation
  suffices ∀ before after, c = before ++ after → limits.Accepts before ∨
      ∃ e, limits.FirstViolation c e from this c [] (List.append_nil c).symm
  intro before
  induction before using List.reverseRecOn with
  | nil => exact fun _ _ => .inl accepts_nil
  | append_singleton before x ih =>
    intro after hc
    rw [List.append_assoc, List.singleton_append] at hc
    rcases ih (x :: after) hc with hbefore | hviolation
    · have hlength : (before ++ [x]).length ≤ limits.maxEntries := by
        rw [hc, List.length_append, List.length_cons] at hcount
        rw [List.length_append, List.length_singleton]
        omega
      rcases hbefore.append_singleton x hlength with haccepts | ⟨e, he⟩
      · exact .inl haccepts
      · exact .inr ⟨e, .entry hcount hc hbefore he⟩
    · exact .inr hviolation

/-! ## Reading within limits -/

theorem Limits.Accepts.readEntries_eq (hlimits : limits.Bounded) (h : limits.Accepts c) :
    readEntries limits c.entries = .ok c.filesWithBytes := by
  obtain ⟨total, -, hread⟩ := h.readEntriesAfter_append hlimits []
  rw [List.append_nil] at hread
  rw [readEntries, Contents.length_entries, if_neg (Nat.not_lt_of_le h.count), hread,
    Contents.entries, List.map_nil, readEntriesAfter, List.reverse_reverse]

theorem Limits.FirstViolation.readEntries_eq (hlimits : limits.Bounded) (hheld : limits.Holdable c)
    {e : ArchiveError} (h : limits.FirstViolation c e) :
    readEntries limits c.entries = .error e := by
  rw [readEntries, Contents.length_entries]
  cases h with
  | count hcount => exact if_pos hcount
  | @entry before after x e hcount hc hbefore hx =>
    obtain ⟨total, htotal, hread⟩ := hbefore.readEntriesAfter_append hlimits (x :: after)
    rw [if_neg (Nat.not_lt_of_le hcount), hc, hread]
    refine readEntriesAfter_of_violation hlimits (by rwa [htotal]) ?_ _ after
    rintro i rfl htakes
    cases hx with
    | refused hfile => exact htotal ▸ hheld before i after hc hfile hbefore htakes
    | total hfile => exact htotal ▸ hheld before i after hc hfile hbefore htakes

theorem readEntries_eq_ok_iff (hlimits : limits.Bounded) (hheld : limits.Holdable c)
    {files : List (String × ByteArray)} :
    readEntries limits c.entries = .ok files ↔ limits.Accepts c ∧ files = c.filesWithBytes := by
  constructor
  · intro h
    rcases limits.accepts_or_firstViolation c with haccepts | ⟨e, hviolation⟩
    · rw [haccepts.readEntries_eq hlimits] at h
      exact ⟨haccepts, (Except.ok.inj h).symm⟩
    · rw [hviolation.readEntries_eq hlimits hheld] at h
      cases h
  · rintro ⟨haccepts, rfl⟩
    exact haccepts.readEntries_eq hlimits

theorem readEntries_eq_error_iff (hlimits : limits.Bounded) (hheld : limits.Holdable c)
    {e : ArchiveError} :
    readEntries limits c.entries = .error e ↔ limits.FirstViolation c e := by
  constructor
  · intro h
    rcases limits.accepts_or_firstViolation c with haccepts | ⟨r, hviolation⟩
    · rw [haccepts.readEntries_eq hlimits] at h
      cases h
    · rw [hviolation.readEntries_eq hlimits hheld] at h
      exact Except.error.inj h ▸ hviolation
  · exact fun h => h.readEntries_eq hlimits hheld

end

/-- An archive is read exactly if it keeps to the limits, and then all its files are read, whole and
in order; otherwise the error is that of the first thing that is wrong with it. -/
theorem readEntries_exact {limits : Limits} (hlimits : limits.Bounded) {c : Contents}
    (hheld : limits.Holdable c) :
    (∀ files, readEntries limits c.entries = .ok files ↔
      limits.Accepts c ∧ files = c.filesWithBytes) ∧
    ∀ e, readEntries limits c.entries = .error e ↔ limits.FirstViolation c e :=
  ⟨fun _ => readEntries_eq_ok_iff hlimits hheld, fun _ => readEntries_eq_error_iff hlimits hheld⟩

/-- A directory and two files that use up a limit of four bytes and exceed one of three. -/
theorem readEntries_exact_two_files : ∃ c : Contents,
    Limits.Bounded ⟨3, 2, 4⟩ ∧ Limits.Holdable ⟨3, 2, 4⟩ c ∧ Limits.Accepts ⟨3, 2, 4⟩ c ∧
      readEntries ⟨3, 2, 4⟩ c.entries = .ok c.filesWithBytes ∧
      Limits.Bounded ⟨3, 2, 3⟩ ∧ Limits.Holdable ⟨3, 2, 3⟩ c ∧
      Limits.FirstViolation ⟨3, 2, 3⟩ c (.totalTooLarge 3) := by
  obtain ⟨c, hc⟩ : ∃ c : Contents, c = [.ok ⟨"d/", true, 0, .empty, none⟩,
    .ok ⟨"a", false, 2, ⟨#[1, 2]⟩, none⟩, .ok ⟨"b", false, 2, ⟨#[3, 4]⟩, none⟩] := ⟨_, rfl⟩
  have hsize : c.size < UInt64.size := by
    rw [hc]
    decide
  have hread : readEntries ⟨3, 2, 4⟩ c.entries = .ok c.filesWithBytes := by
    rw [hc]
    rfl
  have hrefused : readEntries ⟨3, 2, 3⟩ c.entries = .error (.totalTooLarge 3) := by
    rw [hc]
    rfl
  have hheld {limits : Limits} : limits.Holdable c := Limits.holdable_of_size_lt hsize
  exact ⟨c, by decide, hheld, ((readEntries_exact (by decide) hheld).1 _).1 hread |>.1, hread,
    by decide, hheld, ((readEntries_exact (by decide) hheld).2 _).1 hrefused⟩

end EntityForge.Archive
