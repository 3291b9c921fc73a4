import EntityForge.Proofs.Java.Scanned
import EntityForge.Proofs.Text.Brackets
import Mathlib.Data.List.Count

/-!
# Braces that a statement holds

A brace within parentheses stays in the statement that is being read, and so does the brace that
closes it. `Holds stmt held k` ties a statement to the closing brackets `held` that are due for it
alone, and `Frame stmt due n` to all that are due: `n` of the braces among them are not its own.
Both are kept by every character that a statement takes in (`Frame.openParen`, `Frame.closeParen`,
`Frame.openBrace`, `Frame.closeBrace`, `Frame.other`); a closing brace stays in the statement if and
only if the statement holds the opening one (`Frame.closeBrace`).

Statements are written last character first, as the scanner keeps them.
-/

namespace EntityForge.Java

open Text

/-! ## Parentheses and braces of a statement -/

/-- The brackets that tell statements and bodies apart. -/
def scopeBrackets : List (Char × Char) := [('(', ')'), ('\x7b', '\x7d')]

theorem openParens_eq (cs : List Char) : openParens cs = (cs.count '(' : Int) - cs.count ')' := by
  induction cs with
  | nil => rfl
  | cons c cs ih =>
    rw [← List.singleton_append, openParens_append, ih, List.count_append, List.count_append]
    by_cases ho : c = '('
    · subst ho
      simp [openParens]
      omega
    · by_cases hc : c = ')'
      · subst hc
        simp [openParens]
        omega
      · simp [openParens, ho, hc]

theorem openParens_reverse (cs : List Char) : openParens cs.reverse = openParens cs := by
  simp only [openParens_eq, List.count_reverse]

/-- The statement holds the brackets for which `held` are due, innermost first. More opening
parentheses are due than `k`, those of the statements before it, wherever it holds a brace. -/
structure Holds (stmt held : List Char) (k : Nat) : Prop where
  parens : stmt.count '(' + k = stmt.count ')' + held.count ')'
  braces : stmt.count '\x7b' = stmt.count '\x7d' + held.count '\x7d'
  inner : ∀ x y, held = x ++ '\x7d' :: y → k < y.count ')'

namespace Holds

variable {stmt held : List Char} {k : Nat}

theorem nil {held : List Char} (h : '\x7d' ∉ held) : Holds [] held (held.count ')') where
  parens := by simp
  braces := by simp [List.count_eq_zero_of_not_mem h]
  inner x y hxy := absurd (hxy ▸ by simp) h

theorem openParens_eq_sub (h : Holds stmt held k) :
    openParens stmt = (held.count ')' : Int) - k := by
  have := h.parens
  rw [openParens_eq]
  omega

theorem other (h : Holds stmt held k) {c : Char} (hp : c ≠ '(' ∧ c ≠ ')')
    (hb : c ≠ '\x7b' ∧ c ≠ '\x7d') : Holds (c :: stmt) held k where
  parens := by simpa [List.count_cons, hp.1, hp.2] using h.parens
  braces := by simpa [List.count_cons, hb.1, hb.2] using h.braces
  inner := h.inner

theorem openParen (h : Holds stmt held k) : Holds ('(' :: stmt) (')' :: held) k where
  parens := by
    have := h.parens
    simp
    omega
  braces := by simpa [List.count_cons] using h.braces
  inner x y hxy := by
    cases x with
    | nil => cases hxy
    | cons _ x => exact h.inner x y (List.cons.inj hxy).2

theorem closeParen (h : Holds stmt (')' :: held) k) : Holds (')' :: stmt) held k where
  parens := by
    have := h.parens
    simp at this ⊢
    omega
  braces := by simpa [List.count_cons] using h.braces
  inner x y hxy := h.inner (')' :: x) y (by rw [hxy, List.cons_append])

/-- A parenthesis of an earlier statement closes. -/
theorem closeEarlier (h : Holds stmt [] k) : Holds (')' :: stmt) [] (k + 1) where
  parens := by
    have := h.parens
    simp at this ⊢
    omega
  braces := by simpa [List.count_cons] using h.braces
  inner x y hxy := by simp at hxy

theorem emptyBraces (h : Holds stmt held k) : Holds ('\x7d' :: '\x7b' :: stmt) held k where
  parens := by simpa [List.count_cons] using h.parens
  braces := by
    have := h.braces
    simp
    omega
  inner := h.inner

theorem openBrace (h : Holds stmt held k) (hp : 0 < openParens stmt) :
    Holds ('\x7b' :: stmt) ('\x7d' :: held) k where
  parens := by simpa [List.count_cons] using h.parens
  braces := by
    have := h.braces
    simp
    omega
  inner x y hxy := by
    cases x with
    | nil =>
      obtain rfl : held = y := (List.cons.inj hxy).2
      have := h.openParens_eq_sub
      omega
    | cons _ x => exact h.inner x y (List.cons.inj hxy).2

theorem closeBrace (h : Holds stmt ('\x7d' :: held) k) :
    0 < openParens stmt ∧ Holds ('\x7d' :: stmt) held k := by
  refine ⟨?_, ?_, ?_, fun x y hxy => h.inner ('\x7d' :: x) y (by rw [hxy, List.cons_append])⟩
  · have hk := h.inner [] held rfl
    have heq := h.openParens_eq_sub
    simp only [List.count_cons] at heq
    simp at heq
    omega
  · simpa [List.count_cons] using h.parens
  · have := h.braces
    simp at this ⊢
    omega

/-- A statement without open parentheses holds no brace. -/
theorem not_mem (h : Holds stmt held k) (hp : openParens stmt ≤ 0) : '\x7d' ∉ held := by
  intro hmem
  obtain ⟨x, y, rfl⟩ := List.append_of_mem hmem
  have hk := h.inner x y rfl
  have heq := h.openParens_eq_sub
  simp only [List.count_append, List.count_cons] at heq
  simp at heq
  omega

end Holds

/-! ## Brackets that are due -/

/-- The statement holds the innermost brackets that are due, and `n` braces are due besides. -/
def Frame (stmt due : List Char) (n : Nat) : Prop :=
  ∃ held rest k, due = held ++ rest ∧ Holds stmt held k ∧ rest.count '\x7d' = n

namespace Frame

variable {stmt due : List Char} {n : Nat}

theorem of_count (h : due.count '\x7d' = n) : Frame [] due n :=
  ⟨[], due, 0, rfl, .nil (by simp), h⟩

theorem count_eq (h : Frame stmt due n) :
    due.count '\x7d' = n + (stmt.count '\x7b' - stmt.count '\x7d') := by
  obtain ⟨held, rest, k, rfl, hh, rfl⟩ := h
  have := hh.braces
  rw [List.count_append]
  omega

theorem count_of_openParens (h : Frame stmt due n) (hp : openParens stmt ≤ 0) :
    due.count '\x7d' = n := by
  obtain ⟨held, rest, k, rfl, hh, rfl⟩ := h
  rw [List.count_append, List.count_eq_zero_of_not_mem (hh.not_mem hp), Nat.zero_add]

theorem other (h : Frame stmt due n) {c : Char} (hp : c ≠ '(' ∧ c ≠ ')')
    (hb : c ≠ '\x7b' ∧ c ≠ '\x7d') : Frame (c :: stmt) due n := by
  obtain ⟨held, rest, k, hdue, hh, hrest⟩ := h
  exact ⟨held, rest, k, hdue, hh.other hp hb, hrest⟩

theorem emptyBraces (h : Frame stmt due n) : Frame ('\x7d' :: '\x7b' :: stmt) due n := by
  obtain ⟨held, rest, k, hdue, hh, hrest⟩ := h
  exact ⟨held, rest, k, hdue, hh.emptyBraces, hrest⟩

theorem openParen (h : Frame stmt due n) : Frame ('(' :: stmt) (')' :: due) n := by
  obtain ⟨held, rest, k, rfl, hh, hrest⟩ := h
  exact ⟨')' :: held, rest, k, rfl, hh.openParen, hrest⟩

theorem closeParen (h : Frame stmt (')' :: due) n) : Frame (')' :: stmt) due n := by
  obtain ⟨held, rest, k, hdue, hh, hrest⟩ := h
  cases held with
  | nil =>
    obtain rfl : ')' :: due = rest := hdue
    exact ⟨[], due, k + 1, rfl, hh.closeEarlier, by simpa [List.count_cons] using hrest⟩
  | cons d held =>
    obtain ⟨rfl, rfl⟩ := List.cons.inj hdue
    exact ⟨held, rest, k, rfl, hh.closeParen, hrest⟩

theorem openBrace (h : Frame stmt due n) (hp : 0 < openParens stmt) :
    Frame ('\x7b' :: stmt) ('\x7d' :: due) n := by
  obtain ⟨held, rest, k, rfl, hh, hrest⟩ := h
  exact ⟨'\x7d' :: held, rest, k, rfl, hh.openBrace hp, hrest⟩

/-- A closing brace that the statement does not hold is one of the others. -/
theorem closeBrace (h : Frame stmt ('\x7d' :: due) n) :
    (0 < openParens stmt ∧ Frame ('\x7d' :: stmt) due n) ∨
      (openParens stmt ≤ 0 ∧ due.count '\x7d' + 1 = n) := by
  obtain ⟨held, rest, k, hdue, hh, hrest⟩ := h
  cases held with
  | nil =>
    obtain rfl : '\x7d' :: due = rest := hdue
    have hp := hh.openParens_eq_sub
    refine .inr ⟨by simp at hp; omega, by simpa [List.count_cons] using hrest⟩
  | cons d held =>
    obtain ⟨rfl, rfl⟩ := List.cons.inj hdue
    obtain ⟨hp, hclose⟩ := hh.closeBrace
    exact .inl ⟨hp, held, rest, k, rfl, hclose, hrest⟩

end Frame

/-- What a character does to the brackets that are due. -/
theorem nestStep_scopeBrackets {due due' : List Char} {c : Char}
    (h : nestStep scopeBrackets due c = some due') :
    (c = '(' ∧ due' = ')' :: due) ∨ (c = ')' ∧ due = ')' :: due') ∨
      (c = '\x7b' ∧ due' = '\x7d' :: due) ∨ (c = '\x7d' ∧ due = '\x7d' :: due') ∨
        ((c ≠ '(' ∧ c ≠ ')') ∧ (c ≠ '\x7b' ∧ c ≠ '\x7d') ∧ due' = due) := by
  by_cases h1 : c = '('
  · subst h1
    exact .inl ⟨rfl, (Option.some.inj h).symm⟩
  by_cases h2 : c = '\x7b'
  · subst h2
    exact .inr (.inr (.inl ⟨rfl, (Option.some.inj h).symm⟩))
  have hopen : scopeBrackets.lookup c = none := by
    simp [scopeBrackets, List.lookup_cons, beq_false_of_ne h1, beq_false_of_ne h2]
  rcases nestStep_eq_some h with ⟨close, hlookup, -⟩ | ⟨-, hclose, rfl⟩ | ⟨-, hother, rfl⟩
  · rw [hopen] at hlookup
    cases hlookup
  · simp only [scopeBrackets, List.any_cons, List.any_nil, Bool.or_false, Bool.or_eq_true,
      beq_iff_eq] at hclose
    rcases hclose with rfl | rfl
    · exact .inr (.inl ⟨rfl, rfl⟩)
    · exact .inr (.inr (.inr (.inl ⟨rfl, rfl⟩)))
  · simp only [scopeBrackets, List.any_cons, List.any_nil, Bool.or_false, Bool.or_eq_false_iff,
      beq_eq_false_iff_ne] at hother
    exact .inr (.inr (.inr (.inr ⟨⟨h1, Ne.symm hother.1⟩, ⟨h2, Ne.symm hother.2⟩, rfl⟩)))

end EntityForge.Java
