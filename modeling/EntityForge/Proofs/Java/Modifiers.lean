import EntityForge.Proofs.Java.Declarators

/-!
# Modifiers

`IsModifiers ms`: the text is a sequence of modifiers with blanks around them. They are stripped
from what they stand before (`IsModifiers.stripModifiers`). A word is taken for a modifier only as
a whole: what `dropModifier?` drops is the text before the first blank (`takeWhile_of_modifier`).
-/

namespace EntityForge.Java

/-! ## Characters -/

/-- The characters that modifiers are made of. -/
def modifierChars : List Char :=
  ['-', 'a', 'b', 'c', 'd', 'e', 'f', 'h', 'i', 'l', 'n', 'o', 'p', 'r', 's', 't', 'u', 'v', 'y',
    'z']

theorem modifiers_chars {m : List Char} (hm : m ∈ modifiers) :
    m ≠ [] ∧ ∀ c ∈ m, c ∈ modifierChars := by
  have hall : modifiers.all (fun m => !m.isEmpty && m.all modifierChars.contains) = true := by
    decide +kernel
  simpa using List.all_eq_true.1 hall m hm

theorem mem_modifierChars {m : List Char} (hm : m ∈ modifiers) {c : Char} (hc : c ∈ m) :
    c ∈ modifierChars :=
  (modifiers_chars hm).2 c hc

theorem isBlank_of_mem_modifierChars {c : Char} (h : c ∈ modifierChars) :
    Unicode.isBlank c = false := by
  have hall : modifierChars.all (fun c => !Unicode.isBlank c) = true := by decide
  simpa using List.all_eq_true.1 hall c h

/-- A modifier starts with one of its characters. -/
theorem head_append_of_mem_modifiers {m : List Char} (hm : m ∈ modifiers) (rest : List Char) :
    ∀ c ∈ (m ++ rest).head?, c ∈ modifierChars := by
  intro c hc
  rw [List.head?_append_of_ne_nil _ (modifiers_chars hm).1] at hc
  exact mem_modifierChars hm (List.mem_of_mem_head? hc)

/-! ## Stripping -/

/-- The modifier that a text starts with, before a blank, is its text before the first blank. -/
theorem takeWhile_of_modifier {m cs : List Char} (hm : m ∈ modifiers)
    (h : (m.isPrefixOf cs && ((cs.drop m.length).head?.any Unicode.isBlank)) = true) :
    cs.takeWhile (fun c => !Unicode.isBlank c) = m := by
  rw [Bool.and_eq_true, List.isPrefixOf_iff_prefix] at h
  obtain ⟨⟨rest, rfl⟩, hblank⟩ := h
  rw [List.drop_left] at hblank
  have hall : m.all (fun c => !Unicode.isBlank c) = true :=
    List.all_eq_true.2 fun c hc => by rw [isBlank_of_mem_modifierChars (mem_modifierChars hm hc)]; rfl
  refine Text.takeWhile_append_stop hall fun c hc => ?_
  rw [hc] at hblank
  simpa using hblank

/-- Text whose first word is no modifier stays. -/
theorem dropModifier?_eq_none {cs : List Char}
    (h : cs.takeWhile (fun c => !Unicode.isBlank c) ∉ modifiers) : dropModifier? cs = none := by
  rw [dropModifier?, List.findSome?_eq_none_iff]
  intro m hm
  rw [if_neg]
  intro hcond
  exact h (takeWhile_of_modifier hm hcond ▸ hm)

/-- A modifier before a blank is dropped. -/
theorem dropModifier?_modifier {m : List Char} (hm : m ∈ modifiers) {c : Char}
    (hc : Unicode.isBlank c = true) (rest : List Char) :
    dropModifier? (m ++ c :: rest) = some (c :: rest) := by
  have hcond : (m.isPrefixOf (m ++ c :: rest) &&
      (((m ++ c :: rest).drop m.length).head?.any Unicode.isBlank)) = true := by
    simp [hc]
  cases hdrop : dropModifier? (m ++ c :: rest) with
  | none =>
    rw [dropModifier?, List.findSome?_eq_none_iff] at hdrop
    have := hdrop m hm
    rw [if_pos hcond] at this
    cases this
  | some ds =>
    obtain ⟨m', hm', h⟩ := List.exists_of_findSome?_eq_some hdrop
    split at h
    · rename_i hcond'
      obtain rfl : m = m' :=
        (takeWhile_of_modifier hm hcond).symm.trans (takeWhile_of_modifier hm' hcond')
      rw [← h, List.drop_left]
    · cases h

/-- The equation of `stripModifiers` without the proofs that it ends. -/
theorem stripModifiers_eq (cs : List Char) :
    stripModifiers cs =
      match dropModifier? (Unicode.trimStart cs) with
      | some rest => stripModifiers rest
      | none => Unicode.trim cs := by
  rw [stripModifiers.eq_def]
  split
  · rename_i h
    rw [h]
  · rename_i h
    rw [h]

theorem stripModifiers_trimStart (cs : List Char) :
    stripModifiers (Unicode.trimStart cs) = stripModifiers cs := by
  have hidem : Unicode.trimStart (Unicode.trimStart cs) = Unicode.trimStart cs :=
    List.dropWhile_idempotent ..
  rw [stripModifiers_eq, stripModifiers_eq cs, Unicode.trim, Unicode.trim, hidem]

theorem stripModifiers_blank {c : Char} (hc : Unicode.isBlank c = true) (cs : List Char) :
    stripModifiers (c :: cs) = stripModifiers cs := by
  have htrim : Unicode.trimStart (c :: cs) = Unicode.trimStart cs := List.dropWhile_cons_of_pos hc
  rw [← stripModifiers_trimStart, htrim, stripModifiers_trimStart]

/-- The text is a sequence of modifiers with blanks around them. -/
inductive IsModifiers : List Char → Prop
  | nil : IsModifiers []
  | blank {c : Char} {ms : List Char} (hc : Unicode.isBlank c = true) (h : IsModifiers ms) :
      IsModifiers (c :: ms)
  | word {m : List Char} {c : Char} {ms : List Char} (hm : m ∈ modifiers)
      (hc : Unicode.isBlank c = true) (h : IsModifiers ms) : IsModifiers (m ++ c :: ms)

namespace IsModifiers

theorem blanks {w : List Char} (hw : ∀ c ∈ w, Unicode.isBlank c = true) {ms : List Char}
    (h : IsModifiers ms) : IsModifiers (w ++ ms) := by
  induction w with
  | nil => exact h
  | cons c w ih => exact .blank (hw c (.head _)) (ih fun d hd => hw d (.tail _ hd))

theorem mem {ms : List Char} (h : IsModifiers ms) {c : Char} (hc : c ∈ ms) :
    Unicode.isBlank c = true ∨ c ∈ modifierChars := by
  induction h with
  | nil => cases hc
  | blank hblank h ih =>
    rcases List.mem_cons.1 hc with rfl | hc
    · exact .inl hblank
    · exact ih hc
  | word hm hblank h ih =>
    rw [List.mem_append, List.mem_cons] at hc
    rcases hc with hc | rfl | hc
    · exact .inr (mem_modifierChars hm hc)
    · exact .inl hblank
    · exact ih hc

/-- What follows modifiers is stripped of them. -/
theorem stripModifiers {ms : List Char} (h : IsModifiers ms) (cs : List Char) :
    stripModifiers (ms ++ cs) = Java.stripModifiers cs := by
  induction h with
  | nil => rfl
  | blank hc h ih => exact (stripModifiers_blank hc _).trans ih
  | @word m c ms hm hc h ih =>
    have htrim : Unicode.trimStart (m ++ c :: (ms ++ cs)) = m ++ c :: (ms ++ cs) :=
      trimStart_self fun d hd =>
        isBlank_of_mem_modifierChars (head_append_of_mem_modifiers hm _ d hd)
    rw [← ih, List.append_assoc, List.cons_append, stripModifiers_eq, htrim,
      dropModifier?_modifier hm hc]
    exact stripModifiers_blank hc _

end IsModifiers

end EntityForge.Java
