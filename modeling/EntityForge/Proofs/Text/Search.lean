import EntityForge.Text.Search
import Mathlib.Data.List.Infix

/-!
# The first occurrence of a pattern

`cutAtFirst` finds nothing exactly if the pattern does not stand in the text
(`cutAtFirst_eq_none_iff`). It cuts a text into what is before the pattern, the pattern and the
rest, and the cut is the first one if the pattern stands nowhere before the last character of this
occurrence (`cutAtFirst_eq_some_iff`).
-/

namespace EntityForge.Text

variable {p cs l r : List Char}

theorem cutAtFirstAfter_append (p before first cs : List Char) :
    cutAtFirstAfter p (before ++ first) cs =
      (cutAtFirstAfter p before cs).map fun (l, r) => (first.reverse ++ l, r) := by
  induction cs generalizing before with
  | nil =>
    rw [cutAtFirstAfter, cutAtFirstAfter]
    split <;> simp
  | cons c cs ih =>
    rw [cutAtFirstAfter, cutAtFirstAfter]
    split
    · simp
    · exact ih (c :: before)

theorem cutAtFirst_cons (p : List Char) (c : Char) (cs : List Char) :
    cutAtFirst p (c :: cs) =
      if p.isPrefixOf (c :: cs) then some ([], (c :: cs).drop p.length)
      else (cutAtFirst p cs).map fun (l, r) => (c :: l, r) := by
  rw [cutAtFirst, cutAtFirstAfter]
  split
  · rfl
  · exact cutAtFirstAfter_append p [] [c] cs

theorem cutAtFirst_eq_none_iff : cutAtFirst p cs = none ↔ ¬ p <:+: cs := by
  induction cs with
  | nil => simp [cutAtFirst, cutAtFirstAfter]
  | cons c cs ih =>
    rw [cutAtFirst_cons, List.infix_cons_iff, not_or, ← ih]
    split
    · rename_i hp
      simp [List.isPrefixOf_iff_prefix.1 hp]
    · rename_i hp
      simp [mt List.isPrefixOf_iff_prefix.2 hp]

theorem append_dropLast_isPrefix (l p r : List Char) : l ++ p.dropLast <+: l ++ p ++ r := by
  rw [List.append_assoc]
  exact (List.prefix_append_right_inj l).2 ((List.dropLast_prefix p).trans (List.prefix_append p r))

/-- A pattern at the start of a text that has it further on is over before it is the second time. -/
theorem isPrefix_append_dropLast (hl : l ≠ []) (h : p <+: l ++ p ++ r) : p <+: l ++ p.dropLast := by
  refine List.prefix_of_prefix_length_le h (append_dropLast_isPrefix l p r) ?_
  have := List.length_pos_iff.2 hl
  rw [List.length_append, List.length_dropLast]
  omega

theorem cutAtFirst_eq_some_iff (hp : p ≠ []) :
    cutAtFirst p cs = some (l, r) ↔ cs = l ++ p ++ r ∧ ¬ p <:+: l ++ p.dropLast := by
  induction cs generalizing l with
  | nil => simp [cutAtFirst, cutAtFirstAfter, hp]
  | cons c cs ih =>
    rw [cutAtFirst_cons]
    by_cases hprefix : p <+: c :: cs
    · obtain ⟨rest, hrest⟩ := hprefix
      have hlong : ¬ p <:+: p.dropLast := fun h => by
        have hle := h.length_le
        have hpos := List.length_pos_iff.2 hp
        rw [List.length_dropLast] at hle
        omega
      rw [if_pos (List.isPrefixOf_iff_prefix.2 ⟨rest, hrest⟩), ← hrest, List.drop_left]
      constructor
      · intro h
        cases h
        exact ⟨rfl, hlong⟩
      · rintro ⟨heq, hfirst⟩
        have hl : l = [] := by
          by_contra hl
          exact hfirst (isPrefix_append_dropLast hl ⟨rest, heq⟩).isInfix
        subst hl
        rw [List.append_cancel_left heq]
    · rw [if_neg (mt List.isPrefixOf_iff_prefix.1 hprefix)]
      cases l with
      | nil =>
        constructor
        · intro h
          simp at h
        · rintro ⟨heq, -⟩
          exact absurd ⟨r, heq.symm⟩ hprefix
      | cons d l =>
        -- the pattern does not start at the first character, so the cut is that of the rest
        have hmap : ((cutAtFirst p cs).map fun (l, r) => (c :: l, r)) = some (d :: l, r) ↔
            c = d ∧ cutAtFirst p cs = some (l, r) := by
          simp only [Option.map_eq_some_iff, Prod.mk.injEq, List.cons.injEq, Prod.exists]
          constructor
          · rintro ⟨_, _, h, ⟨hc, rfl⟩, rfl⟩
            exact ⟨hc, h⟩
          · rintro ⟨hc, h⟩
            exact ⟨l, r, h, ⟨hc, rfl⟩, rfl⟩
        rw [hmap, ih, List.cons_append, List.cons_append, List.cons_append, List.infix_cons_iff,
          not_or, List.cons.injEq, and_assoc]
        refine and_congr_right fun hd => and_congr_right fun heq => ?_
        subst hd heq
        refine ⟨fun h => ⟨fun hstart => hprefix (hstart.trans ?_), h⟩, And.right⟩
        exact List.cons_prefix_cons.2 ⟨rfl, append_dropLast_isPrefix l p r⟩

/-- A pattern is not finished by characters other than its last. -/
theorem not_infix_append {c : Char} {q : List Char} (hc : c ∉ q) (h : ¬ p ++ [c] <:+: l) :
    ¬ p ++ [c] <:+: l ++ q := by
  induction q using List.reverseRecOn with
  | nil => rwa [List.append_nil]
  | append_singleton q d ih =>
    rw [List.mem_append, not_or] at hc
    rw [← List.append_assoc, List.infix_concat_iff, not_or]
    refine ⟨fun hsuffix => hc.2 ?_, ih hc.1⟩
    have hlast := hsuffix.getLast (by simp)
    simpa using hlast

end EntityForge.Text
