import EntityForge.Proofs.Java.CleanText

/-!
# Closed texts

What precedes a text matters to its cleaning by the mode of the cleaner alone, and by lines in the
errors alone: cleaners whose modes differ in lines write the same (`Cleaner.finish_alike`). So a text
that leaves no comment and no literal open is cleaned within any code as it is alone
(`ClosedCode.foldl`).
-/

namespace EntityForge.Java

/-! ## Modes without lines -/

/-- The mode without lines. -/
def Mode.withoutLine : Mode → Mode
  | blockComment _ star => blockComment 0 star
  | literal quote _ escaped => literal quote 0 escaped
  | mode => mode

theorem Mode.withoutLine_eq_code_iff {mode : Mode} :
    mode.withoutLine = .code ↔ mode = .code := by
  cases mode <;> simp [withoutLine]

theorem Mode.withoutLine_eq_slash_iff {mode : Mode} :
    mode.withoutLine = .slash ↔ mode = .slash := by
  cases mode <;> simp [withoutLine]

/-! ## Cleaners that differ in lines -/

namespace Cleaner

variable {s t : Cleaner}

theorem stepCode_alike (s t : Cleaner) (c : Char) :
    (s.stepCode c).mode.withoutLine = (t.stepCode c).mode.withoutLine ∧
      ∃ x, (s.stepCode c).out = x ++ s.out ∧ (t.stepCode c).out = x ++ t.out := by
  unfold stepCode
  split
  · exact ⟨rfl, [], rfl, rfl⟩
  · split
    · exact ⟨rfl, [], rfl, rfl⟩
    · split
      · exact ⟨rfl, ['\n'], rfl, rfl⟩
      · exact ⟨rfl, [c], rfl, rfl⟩

/-- Cleaners whose modes differ in lines alone write the same. -/
theorem step_alike (h : s.mode.withoutLine = t.mode.withoutLine) (c : Char) :
    (s.step c).mode.withoutLine = (t.step c).mode.withoutLine ∧
      ∃ x, (s.step c).out = x ++ s.out ∧ (t.step c).out = x ++ t.out := by
  obtain ⟨mode, line, out⟩ := s
  obtain ⟨mode', line', out'⟩ := t
  cases mode with
  | code =>
    cases mode' <;> cases h
    exact stepCode_alike _ _ c
  | slash =>
    cases mode' <;> cases h
    by_cases hline : c = '/'
    · simp [step, hline]
    by_cases hblock : c = '*'
    · simp [step, hblock, Mode.withoutLine]
    obtain ⟨hmode, x, hs, ht⟩ := stepCode_alike ⟨.slash, line, '/' :: out⟩
      ⟨.slash, line', '/' :: out'⟩ c
    simp only [step, if_neg hline, if_neg hblock]
    exact ⟨hmode, x ++ ['/'], by simpa using hs, by simpa using ht⟩
  | lineComment =>
    cases mode' <;> cases h
    by_cases hn : c = '\n'
    · simp only [step, if_pos hn]
      exact ⟨rfl, ['\n'], rfl, rfl⟩
    · simp [step, hn]
  | blockComment start star =>
    cases mode' <;> cases h
    simp only [step]
    split
    · exact ⟨rfl, [' '], rfl, rfl⟩
    · split
      · exact ⟨rfl, ['\n'], rfl, rfl⟩
      · exact ⟨rfl, [], rfl, rfl⟩
  | literal quote start escaped =>
    cases mode' <;> cases h
    simp only [step]
    split
    · exact ⟨rfl, [], rfl, rfl⟩
    · split
      · exact ⟨rfl, [], rfl, rfl⟩
      · split
        · exact ⟨rfl, ['\n'], rfl, rfl⟩
        · split
          · exact ⟨rfl, [quote, quote], rfl, rfl⟩
          · exact ⟨rfl, [], rfl, rfl⟩

theorem foldl_alike (h : s.mode.withoutLine = t.mode.withoutLine) (cs : List Char) :
    (cs.foldl step s).mode.withoutLine = (cs.foldl step t).mode.withoutLine ∧
      ∃ x, (cs.foldl step s).out = x ++ s.out ∧ (cs.foldl step t).out = x ++ t.out := by
  induction cs generalizing s t with
  | nil => exact ⟨h, [], rfl, rfl⟩
  | cons c cs ih =>
    obtain ⟨hmode, x, hs, ht⟩ := step_alike h c
    obtain ⟨hmode', y, hs', ht'⟩ := ih hmode
    exact ⟨hmode', y ++ x, by rw [List.foldl_cons, hs', hs, List.append_assoc],
      by rw [List.foldl_cons, ht', ht, List.append_assoc]⟩

/-- A slash that waits is written by both or by neither. -/
theorem settled_alike (h : s.mode.withoutLine = t.mode.withoutLine) :
    s.settled.mode.withoutLine = t.settled.mode.withoutLine ∧
      ∃ x, s.settled.out = x ++ s.out ∧ t.settled.out = x ++ t.out := by
  by_cases hs : s.mode = .slash
  · have ht : t.mode = .slash :=
      Mode.withoutLine_eq_slash_iff.1 (h.symm.trans (Mode.withoutLine_eq_slash_iff.2 hs))
    rw [settled_of_slash hs, settled_of_slash ht]
    exact ⟨rfl, ['/'], rfl, rfl⟩
  · have ht : t.mode ≠ .slash := fun ht =>
      hs (Mode.withoutLine_eq_slash_iff.1 (h.trans (Mode.withoutLine_eq_slash_iff.2 ht)))
    rw [settled_of_ne hs, settled_of_ne ht]
    exact ⟨h, [], rfl, rfl⟩

/-- What follows is cleaned in the same way, or is left open in the same way. -/
theorem finish_alike (h : s.mode.withoutLine = t.mode.withoutLine) (cs : List Char) :
    (∃ x, (cs.foldl step s).finish = .ok (s.out.reverse ++ x) ∧
      (cs.foldl step t).finish = .ok (t.out.reverse ++ x)) ∨
      ∃ part m n, (cs.foldl step s).finish = .error (.unterminated part m) ∧
        (cs.foldl step t).finish = .error (.unterminated part n) := by
  obtain ⟨hmode, x, hs, ht⟩ := foldl_alike h cs
  generalize cs.foldl step s = s' at hmode hs ⊢
  generalize cs.foldl step t = t' at hmode ht ⊢
  obtain ⟨mode, line, out⟩ := s'
  obtain ⟨mode', line', out'⟩ := t'
  obtain rfl : out = x ++ s.out := hs
  obtain rfl : out' = x ++ t.out := ht
  cases mode with
  | code =>
    cases mode' <;> cases hmode
    exact .inl ⟨x.reverse, by simp [finish], by simp [finish]⟩
  | slash =>
    cases mode' <;> cases hmode
    exact .inl ⟨x.reverse ++ ['/'], by simp [finish], by simp [finish]⟩
  | lineComment =>
    cases mode' <;> cases hmode
    exact .inl ⟨x.reverse, by simp [finish], by simp [finish]⟩
  | blockComment start star =>
    cases mode' <;> cases hmode
    exact .inr ⟨.comment, _, _, rfl, rfl⟩
  | literal quote start escaped =>
    cases mode' <;> cases hmode
    exact .inr ⟨.literal, _, _, rfl, rfl⟩

end Cleaner

/-! ## Closed texts -/

/-- The text is cleaned to `out`, and no comment and no literal is open at its end. -/
structure ClosedCode (cs out : List Char) : Prop where
  clean : clean cs = .ok out
  ended : (cs.foldl Cleaner.step {}).mode ≠ .lineComment

theorem ClosedCode.settled {cs out : List Char} (h : ClosedCode cs out) :
    (cs.foldl Cleaner.step {}).settled.mode = .code ∧
      (cs.foldl Cleaner.step {}).settled.out = out.reverse := by
  have hclean := h.clean
  have hended := h.ended
  rw [Java.clean] at hclean
  generalize cs.foldl Cleaner.step {} = s at hclean hended ⊢
  unfold Cleaner.finish at hclean
  split at hclean
  · rename_i hs
    obtain rfl := Except.ok.inj hclean
    rw [Cleaner.settled_of_ne (by simp [hs]), List.reverse_reverse]
    exact ⟨hs, rfl⟩
  · rename_i hs
    exact absurd hs hended
  · rename_i hs
    obtain rfl := Except.ok.inj hclean
    rw [Cleaner.settled_of_slash hs, List.reverse_reverse]
    exact ⟨rfl, rfl⟩
  · cases hclean
  · cases hclean

/-- A closed text within code is cleaned as it is alone. -/
theorem ClosedCode.foldl {cs out : List Char} (h : ClosedCode cs out) {s : Cleaner}
    (hs : s.mode = .code) : (cs.foldl Cleaner.step s).settled.mode = .code ∧
      (cs.foldl Cleaner.step s).settled.out = out.reverse ++ s.out := by
  have hmode : ({} : Cleaner).mode.withoutLine = s.mode.withoutLine := by rw [hs]
  obtain ⟨hlast, x, halone, hwithin⟩ := Cleaner.foldl_alike hmode cs
  obtain ⟨hsettled, y, halone', hwithin'⟩ := Cleaner.settled_alike hlast
  obtain ⟨hcode, hout⟩ := h.settled
  refine ⟨?_, ?_⟩
  · rw [hcode] at hsettled
    exact Mode.withoutLine_eq_code_iff.1 hsettled.symm
  · rw [hwithin', hwithin, ← hout, halone', halone]
    simp

/-- A text within code is cleaned as it is alone. -/
theorem Cleaner.finish_of_code {s : Cleaner} (hs : s.mode = .code) {b y : List Char}
    (hb : Java.clean b = .ok y) : (b.foldl step s).finish = .ok (s.out.reverse ++ y) := by
  have halike : ({} : Cleaner).mode.withoutLine = s.mode.withoutLine := by rw [hs]
  rw [Java.clean] at hb
  rcases finish_alike halike b with ⟨z, halone, hafter⟩ | ⟨part, m, n, halone, -⟩
  · rw [hb] at halone
    obtain rfl : y = z := Except.ok.inj halone
    exact hafter
  · rw [hb] at halone
    cases halone

/-- What follows code is cleaned as it is alone. -/
theorem Cleans.clean_append {a b x y : List Char} (ha : Cleans a x) (hb : Java.clean b = .ok y) :
    Java.clean (a ++ b) = .ok (x ++ y) := by
  obtain ⟨hmode, hout⟩ := ha {} rfl
  rw [Java.clean, List.foldl_append, Cleaner.finish_of_code hmode hb, hout]
  simp

/-- What follows a closed text is cleaned as it is alone, if no comment starts where they meet. -/
theorem ClosedCode.clean_append {a b x y : List Char} (ha : ClosedCode a x)
    (hb : Java.clean b = .ok y) (hslash : (a.foldl Cleaner.step {}).mode = .slash →
      ∀ c ∈ b.head?, startsComment c = false) : Java.clean (a ++ b) = .ok (x ++ y) := by
  obtain ⟨hmode, hout⟩ := ha.settled
  rw [Java.clean, List.foldl_append, ← Cleaner.finish_settled hslash,
    Cleaner.finish_of_code hmode hb, hout, List.reverse_reverse]

/-- After closed text a character that starts no comment and no literal is written. -/
theorem Cleaner.step_plain {s : Cleaner} (hs : s.settled.mode = .code) {c : Char}
    (hc : isPlain c = true) (hstart : startsComment c = false) :
    (s.step c).mode = .code ∧ (s.step c).out = c :: s.settled.out := by
  rw [← step_settled fun _ => hstart]
  simpa using cleans_char hc s.settled hs

end EntityForge.Java
