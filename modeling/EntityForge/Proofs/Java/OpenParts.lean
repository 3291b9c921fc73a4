import EntityForge.Proofs.Java.ClosedCode
import Mathlib.Data.List.Induction

/-!
# What a source leaves open

A source cannot be cleaned exactly if a comment or a literal is open at its end. `LeavesOpen` says
this of the text alone: what stands before the opening mark can be cleaned, and nothing longer can.
`Cleaner.Takes` lists all that a cleaner does with one character (`Cleaner.takes_step`). So one
character keeps what is open, or it is the end of a mark (`Cleaner.open?_step`), and what is open
after a text was opened by a mark in it (`exists_leavesOpen`) and is still what that mark opened
(`LeavesOpen.open?_eq`).

* `clean_eq_unterminated_iff`: a source cannot be cleaned exactly if it leaves a part open, and the
  error has the line that the cleaner had reached before the mark.
-/

namespace EntityForge.Java

/-- The marks with which a part opens. -/
def OpenPart.marks : OpenPart → List (List Char)
  | comment => [['/', '*']]
  | literal => [['"'], ['\'']]

/-- The mark opens a part that `body` does not close: what stands before the mark can be cleaned,
and no text from the mark on can. -/
structure LeavesOpen (part : OpenPart) (before mark body : List Char) : Prop where
  mark_mem : mark ∈ part.marks
  closed : ∃ out, clean before = .ok out
  left_open : ∀ k, k <+: body →
    ∃ line, clean (before ++ mark ++ k) = .error (.unterminated part line)

namespace Cleaner

/-- The cleaner after a text. -/
def after (cs : List Char) : Cleaner := cs.foldl step {}

theorem after_append (cs ds : List Char) : after (cs ++ ds) = ds.foldl step (after cs) :=
  List.foldl_append

theorem after_concat (cs : List Char) (c : Char) : after (cs ++ [c]) = (after cs).step c :=
  after_append cs [c]

/-! ## What a character does -/

/-- A cleaner that has written `out` is in code, and has written `out'` with the slash that waits. -/
inductive InCode (out : List Char) : Mode → List Char → Prop
  | code : InCode out .code out
  | slash : InCode out .slash ('/' :: out)

theorem InCode.exists_append {mode : Mode} {out out' : List Char} (h : InCode out mode out')
    {d : Char} (hd : d ≠ '/') : ∃ w, out' = w ++ out ∧ d ∉ w := by
  cases h with
  | code => exact ⟨[], rfl, List.not_mem_nil⟩
  | slash => exact ⟨['/'], rfl, by simpa using hd⟩

/-- All that a cleaner does with a character: what it becomes from a mode, with its line and what it
has written so far. -/
inductive Takes (c : Char) (line : Nat) (out : List Char) : Mode → Cleaner → Prop
  | slash (hc : c = '/') : Takes c line out .code ⟨.slash, line, out⟩
  | quote {mode out'} (hcode : InCode out mode out') (hc : [c] ∈ OpenPart.literal.marks) :
      Takes c line out mode ⟨.literal c line false, line, out'⟩
  | newline {mode out'} (hcode : InCode out mode out') (hc : c = '\n') :
      Takes c line out mode ⟨.code, line + 1, '\n' :: out'⟩
  | plain {mode out'} (hcode : InCode out mode out') (hslash : c ≠ '/')
      (hquote : [c] ∉ OpenPart.literal.marks) (hc : c ≠ '\n') :
      Takes c line out mode ⟨.code, line, c :: out'⟩
  | lineComment (hc : c = '/') : Takes c line out .slash ⟨.lineComment, line, out⟩
  | blockComment (hc : c = '*') : Takes c line out .slash ⟨.blockComment line false, line, out⟩
  | endOfLine (hc : c = '\n') : Takes c line out .lineComment ⟨.code, line + 1, '\n' :: out⟩
  | inLine (hc : c ≠ '\n') : Takes c line out .lineComment ⟨.lineComment, line, out⟩
  | endOfBlock {start} (hc : c = '/') :
      Takes c line out (.blockComment start true) ⟨.code, line, ' ' :: out⟩
  | newlineInBlock {start star} (hc : c = '\n') :
      Takes c line out (.blockComment start star) ⟨.blockComment start false, line + 1, '\n' :: out⟩
  | inBlock {start star} (hc : c ≠ '\n') (hend : ¬ (star = true ∧ c = '/')) :
      Takes c line out (.blockComment start star) ⟨.blockComment start (c == '*'), line, out⟩
  | escaped {quote start} :
      Takes c line out (.literal quote start true) ⟨.literal quote start false, line, out⟩
  | escape {quote start} (hc : c = '\\') :
      Takes c line out (.literal quote start false) ⟨.literal quote start true, line, out⟩
  | newlineInLiteral {quote start} (hc : c = '\n') :
      Takes c line out (.literal quote start false)
        ⟨.literal quote start false, line + 1, '\n' :: out⟩
  | endOfLiteral {start} (hc : c ≠ '\n') :
      Takes c line out (.literal c start false) ⟨.code, line, c :: c :: out⟩
  | inLiteral {quote start} (hc : c ≠ '\n') (hescape : c ≠ '\\') (hend : c ≠ quote) :
      Takes c line out (.literal quote start false) ⟨.literal quote start false, line, out⟩

theorem takes_stepCode {mode : Mode} {line : Nat} {out out' : List Char} {c : Char}
    (hcode : InCode out mode out') (hslash : c = '/' → mode = .code) :
    Takes c line out mode (stepCode ⟨mode, line, out'⟩ c) := by
  unfold stepCode
  split
  · rename_i hc
    obtain rfl := hslash hc
    cases hcode
    exact .slash hc
  · rename_i hslash
    split
    · rename_i hquote
      exact .quote hcode (by simpa [OpenPart.marks] using hquote)
    · rename_i hquote
      split
      · rename_i hc
        exact .newline hcode hc
      · rename_i hc
        exact .plain hcode hslash (by simpa [OpenPart.marks] using hquote) hc

theorem takes_step (c : Char) (mode : Mode) (line : Nat) (out : List Char) :
    Takes c line out mode (step ⟨mode, line, out⟩ c) := by
  cases mode with
  | code => exact takes_stepCode .code fun _ => rfl
  | slash =>
    simp only [step]
    split
    · exact .lineComment ‹_›
    · split
      · exact .blockComment ‹_›
      · exact takes_stepCode .slash fun hc => absurd hc ‹_›
  | lineComment =>
    simp only [step]
    split
    · exact .endOfLine ‹_›
    · exact .inLine ‹_›
  | blockComment start star =>
    simp only [step]
    split
    · rename_i hend
      simp only [Bool.and_eq_true, beq_iff_eq] at hend
      obtain ⟨rfl, hc⟩ := hend
      exact .endOfBlock hc
    · split
      · exact .newlineInBlock ‹_›
      · exact .inBlock ‹_› (by simpa using ‹¬ (star && c == '/') = true›)
  | literal quote start escaped =>
    simp only [step]
    split
    · obtain rfl := ‹escaped = true›
      exact .escaped
    · obtain rfl : escaped = false := by simpa using ‹¬ escaped = true›
      split
      · exact .escape ‹_›
      · split
        · exact .newlineInLiteral ‹_›
        · split
          · obtain rfl := ‹c = quote›
            exact .endOfLiteral ‹_›
          · exact .inLiteral ‹_› ‹_› ‹_›

/-! ## What is open -/

/-- What is being read, if it has to be closed, and the line on which it starts. -/
def open? (s : Cleaner) : Option (OpenPart × Nat) :=
  match s.mode with
  | .blockComment start _ => some (.comment, start)
  | .literal _ start _ => some (.literal, start)
  | _ => none

section
variable {s : Cleaner} {c : Char} {part : OpenPart} {line : Nat}

theorem finish_eq_unterminated_iff :
    s.finish = .error (.unterminated part line) ↔ s.open? = some (part, line) := by
  unfold finish open?
  split <;> simp_all

theorem finish_isOk_iff : (∃ out, s.finish = .ok out) ↔ s.open? = none := by
  unfold finish open?
  split <;> simp_all

theorem InCode.open?_eq {mode : Mode} {n : Nat} {out out' ds : List Char}
    (h : InCode out mode out') : open? ⟨mode, n, ds⟩ = none := by
  cases h <;> rfl

/-- What is open after a character was open before it, or the character ends an opening mark. -/
theorem open?_step (h : (s.step c).open? = some (part, line)) : s.open? = some (part, line) ∨
    (s.open? = none ∧ line = s.line ∧ ((s.mode = .slash ∧ c = '*' ∧ part = .comment) ∨
      ([c] ∈ OpenPart.literal.marks ∧ part = .literal))) := by
  obtain ⟨mode, n, out⟩ := s
  have htakes := takes_step c mode n out
  generalize step ⟨mode, n, out⟩ c = t at h htakes
  cases htakes with
  | quote hcode hc =>
    cases h
    exact .inr ⟨hcode.open?_eq, rfl, .inr ⟨hc, rfl⟩⟩
  | blockComment hc =>
    cases h
    exact .inr ⟨rfl, rfl, .inl ⟨rfl, hc, rfl⟩⟩
  -- a comment or a literal stays open, or nothing is open
  | newlineInBlock | inBlock | escaped | escape | newlineInLiteral | inLiteral => exact .inl h
  | _ => cases h

/-- A slash waits only where code came before it. -/
theorem step_mode_eq_slash (h : (s.step c).mode = .slash) :
    c = '/' ∧ s.mode = .code ∧ (s.step c).line = s.line := by
  obtain ⟨mode, n, out⟩ := s
  have htakes := takes_step c mode n out
  generalize step ⟨mode, n, out⟩ c = t at h htakes ⊢
  cases htakes with
  | slash hc => exact ⟨hc, rfl, rfl⟩
  | _ => cases h

end

/-! ## Opening marks -/

/-- A slash that waits is the last character of the text, after code. -/
theorem exists_of_after_eq_slash {cs : List Char} (h : (after cs).mode = .slash) :
    ∃ before, cs = before ++ ['/'] ∧ (after before).open? = none ∧
      (after before).line = (after cs).line := by
  rcases List.eq_nil_or_concat cs with rfl | ⟨before, c, rfl⟩
  · cases h
  · rw [List.concat_eq_append, after_concat] at h ⊢
    obtain ⟨rfl, hcode, hline⟩ := step_mode_eq_slash h
    exact ⟨before, rfl, by rw [open?, hcode], hline.symm⟩

/-- What is open after a text was opened by a mark in it. -/
theorem exists_leavesOpen {cs : List Char} {part : OpenPart} {line : Nat}
    (h : (after cs).open? = some (part, line)) : ∃ before mark body, cs = before ++ mark ++ body ∧
      LeavesOpen part before mark body ∧ line = (after before).line := by
  induction cs using List.reverseRecOn generalizing part line with
  | nil => cases h
  | append_singleton cs c ih =>
    have hopen : clean (cs ++ [c]) = .error (.unterminated part line) :=
      finish_eq_unterminated_iff.2 h
    rw [after_concat] at h
    rcases open?_step h with hstill | ⟨hnone, rfl, ⟨hslash, rfl, rfl⟩ | ⟨hmark, rfl⟩⟩
    · -- the mark is before the character
      obtain ⟨before, mark, body, rfl, hleaves, hline⟩ := ih hstill
      refine ⟨before, mark, body ++ [c], by simp, ⟨hleaves.mark_mem, hleaves.closed, ?_⟩, hline⟩
      intro k hk
      rcases List.prefix_concat_iff.1 hk with rfl | hk
      · exact ⟨line, by rw [← hopen]; simp⟩
      · exact hleaves.left_open k hk
    · obtain ⟨before, rfl, hbefore, hline⟩ := exists_of_after_eq_slash hslash
      refine ⟨before, ['/', '*'], [], by simp, ⟨.head _, finish_isOk_iff.2 hbefore, ?_⟩, hline.symm⟩
      intro k hk
      obtain rfl := List.prefix_nil.1 hk
      exact ⟨_, by rw [← hopen]; simp⟩
    · refine ⟨cs, [c], [], by simp, ⟨hmark, finish_isOk_iff.2 hnone, ?_⟩, rfl⟩
      intro k hk
      obtain rfl := List.prefix_nil.1 hk
      exact ⟨_, by rw [← hopen]; simp⟩

end Cleaner

section
variable {part : OpenPart} {before mark body : List Char}

open Cleaner

/-- The part that a mark opens starts on the line of the mark. -/
theorem LeavesOpen.open?_mark (h : LeavesOpen part before mark body) :
    (after (before ++ mark)).open? = some (part, (after before).line) := by
  have hnone : (after before).open? = none := finish_isOk_iff.1 h.closed
  obtain ⟨line, hopen⟩ := h.left_open [] List.nil_prefix
  rw [List.append_nil] at hopen
  replace hopen : (after (before ++ mark)).open? = some (part, line) :=
    finish_eq_unterminated_iff.1 hopen
  suffices hline : line = (after before).line by rw [hopen, hline]
  rw [after_append] at hopen
  generalize after before = s at hopen hnone ⊢
  have hmark := h.mark_mem
  cases part with
  | literal =>
    obtain ⟨quote, rfl⟩ : ∃ quote, mark = [quote] := by
      simp only [OpenPart.marks, List.mem_cons, List.not_mem_nil, or_false] at hmark
      rcases hmark with rfl | rfl <;> exact ⟨_, rfl⟩
    rcases open?_step hopen with hstill | ⟨-, hline, -⟩
    · rw [hnone] at hstill
      cases hstill
    · exact hline
  | comment =>
    obtain rfl : mark = ['/', '*'] := List.mem_singleton.1 hmark
    rcases open?_step hopen with hstill | ⟨-, hline, ⟨hslash, -⟩ | ⟨-, hpart⟩⟩
    · -- the slash alone opens nothing
      rcases open?_step hstill with hfirst | ⟨-, -, ⟨-, hstar, -⟩ | ⟨-, hpart⟩⟩
      · rw [hnone] at hfirst
        cases hfirst
      · cases hstar
      · cases hpart
    · exact hline.trans (step_mode_eq_slash hslash).2.2
    · cases hpart

/-- What a mark opens stays open, as it is. -/
theorem LeavesOpen.open?_eq (h : LeavesOpen part before mark body) :
    (after (before ++ mark ++ body)).open? = some (part, (after before).line) := by
  have hprefix : ∀ k, k <+: body →
      (after (before ++ mark ++ k)).open? = some (part, (after before).line) := by
    intro k
    induction k using List.reverseRecOn with
    | nil =>
      intro _
      rw [List.append_nil]
      exact h.open?_mark
    | append_singleton k c ih =>
      intro hk
      have hbefore := ih ((List.prefix_append k [c]).trans hk)
      obtain ⟨line, hopen⟩ := h.left_open _ hk
      replace hopen : (after (before ++ mark ++ (k ++ [c]))).open? = some (part, line) :=
        finish_eq_unterminated_iff.1 hopen
      rw [hopen]
      rw [← List.append_assoc, after_concat] at hopen
      rcases open?_step hopen with hstill | ⟨hnone, -⟩
      · rw [← hstill, hbefore]
      · rw [hbefore] at hnone
        cases hnone
  exact hprefix body (List.prefix_refl body)

end

/-- A source cannot be cleaned exactly if it leaves a part open, and the error has the line that
was reached before the mark of that part. -/
theorem clean_eq_unterminated_iff {cs : List Char} {part : OpenPart} {line : Nat} :
    clean cs = .error (.unterminated part line) ↔ ∃ before mark body, cs = before ++ mark ++ body ∧
      LeavesOpen part before mark body ∧ line = (Cleaner.after before).line := by
  have hopen : clean cs = .error (.unterminated part line) ↔
      (Cleaner.after cs).open? = some (part, line) := Cleaner.finish_eq_unterminated_iff
  rw [hopen]
  constructor
  · exact Cleaner.exists_leavesOpen
  · rintro ⟨before, mark, body, rfl, hleaves, rfl⟩
    exact hleaves.open?_eq

end EntityForge.Java
