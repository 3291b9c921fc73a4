import EntityForge.Unicode.Blank
import EntityForge.Unicode.Letter

/-!
# Classes of characters

No alphanumeric character is blank (`isBlank_of_isAlphanumeric`) and no digit is a letter
(`isAlphabetic_of_isDigit`), so names, numbers and the blanks between them do not run into each
other. Both are read off the tables: two range sets whose ranges lie apart (`RangeSet.apart`) have
no character in common.
-/

namespace EntityForge.Unicode

namespace RangeSet

/-- Every range of one set ends before, or starts after, every range of the other. -/
def apart (s t : RangeSet) : Bool :=
  s.all fun r => t.all fun u => decide (r.2 < u.1) || decide (u.2 < r.1)

theorem mem_of_containsCode {s : RangeSet} {n : Nat} (h : s.containsCode n = true) :
    ∃ r ∈ s, r.1 ≤ n ∧ n ≤ r.2 := by
  induction s with
  | nil => simp [containsCode] at h
  | cons r rest ih =>
    unfold containsCode at h
    split at h
    · simp at h
    · split at h
      · exact ⟨r, .head _, by omega, by assumption⟩
      · obtain ⟨u, hu, hn⟩ := ih h
        exact ⟨u, .tail _ hu, hn⟩

/-- Sets that lie apart have no character in common. -/
theorem contains_of_apart {s t : RangeSet} (h : apart s t = true) {c : Char}
    (hc : s.contains c = true) : t.contains c = false := by
  rw [Bool.eq_false_iff]
  intro ht
  obtain ⟨r, hr, h1, h2⟩ := mem_of_containsCode hc
  obtain ⟨u, hu, h3, h4⟩ := mem_of_containsCode ht
  have hru := List.all_eq_true.1 (List.all_eq_true.1 h r hr) u hu
  simp only [Bool.or_eq_true, decide_eq_true_eq] at hru
  omega

end RangeSet

theorem isBlank_of_isAlphabetic {c : Char} (h : isAlphabetic c = true) : isBlank c = false :=
  RangeSet.contains_of_apart (by decide +kernel) h

theorem isBlank_of_isNumeric {c : Char} (h : isNumeric c = true) : isBlank c = false :=
  RangeSet.contains_of_apart (by decide +kernel) h

theorem isBlank_of_isAlphanumeric {c : Char} (h : isAlphanumeric c = true) : isBlank c = false := by
  rcases Bool.or_eq_true_iff.1 h with h | h
  · exact isBlank_of_isAlphabetic h
  · exact isBlank_of_isNumeric h

/-- Characters differ if only one of them is of a class. -/
theorem ne_of_class {p : Char → Bool} {c d : Char} (h : p c = true) (hd : p d = false) : c ≠ d := by
  rintro rfl
  rw [h] at hd
  cases hd

/-- A character of a class is none of the marks that are not of it. -/
theorem not_mem_of_class {p : Char → Bool} {c : Char} (h : p c = true) {marks : List Char}
    (hmarks : marks.all (fun d => !p d) = true) : c ∉ marks := fun hc =>
  ne_of_class h (by simpa using List.all_eq_true.1 hmarks c hc) rfl

theorem toNat_of_isDigit {c : Char} (h : c.isDigit = true) : 48 ≤ c.toNat ∧ c.toNat ≤ 57 := by
  simp only [Char.isDigit, Bool.and_eq_true, decide_eq_true_eq] at h
  exact h

theorem isAlphabetic_of_isDigit {c : Char} (h : c.isDigit = true) : isAlphabetic c = false := by
  have hd := toNat_of_isDigit h
  unfold isAlphabetic RangeSet.contains alphabeticRanges RangeSet.containsCode
  exact if_pos (by omega)

theorem isBlank_of_isDigit {c : Char} (h : c.isDigit = true) : isBlank c = false := by
  have hd := toNat_of_isDigit h
  rw [Bool.eq_false_iff]
  intro hb
  obtain ⟨r, hr, h1, h2⟩ := RangeSet.mem_of_containsCode hb
  have key : ∀ r ∈ blankRanges, r.2 < 48 ∨ 57 < r.1 := by decide
  have := key r hr
  omega

end EntityForge.Unicode
