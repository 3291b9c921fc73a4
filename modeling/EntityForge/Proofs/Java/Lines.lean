import EntityForge.Proofs.Java.StrayBraces

/-!
# Lines of errors

A cleaner writes as many newlines as it counts lines, and those are all newlines of the text but the
ones that a backslash escapes within a literal (`Cleaner.exists_advances_foldl`). A scanner counts
the newlines of the cleaned text (`Scanner.line_foldlM`). So each error tells the line of what it is
about, less the escaped newlines before that: of the brace that closes nothing, of the end where a
brace is missing, and of the mark of the part that is left open (`fieldsOfSource_lines`). An escaped
newline is lost (`fieldsOfSource_joinedLines`).
-/

namespace EntityForge.Java

/-- The line on which a source goes on after a text, counted from 1. -/
def lineAfter (cs : List Char) : Nat := 1 + cs.count '\n'

theorem count_newline_cons (c : Char) (cs : List Char) :
    (c :: cs).count '\n' = [c].count '\n' + cs.count '\n' := by
  rw [← List.count_append]
  rfl

theorem count_newline_singleton {c : Char} (hc : c ≠ '\n') : [c].count '\n' = 0 := by
  simp [hc]

/-! ## Lines of a cleaner -/

namespace Cleaner

/-- The next character belongs to a literal, whatever it is. -/
def escapes (s : Cleaner) : Bool :=
  match s.mode with
  | .literal _ _ escaped => escaped
  | _ => false

/-- The newlines of a text that follow an escaping backslash. -/
def escapedNewlinesFrom (s : Cleaner) : List Char → Nat
  | [] => 0
  | c :: cs => (if s.escapes then [c].count '\n' else 0) + (s.step c).escapedNewlinesFrom cs

/-- From one cleaner to the other, `n` newlines are written and as many lines are counted. -/
structure Advances (s t : Cleaner) (n : Nat) : Prop where
  line : t.line = s.line + n
  count : t.out.count '\n' = s.out.count '\n' + n

section
variable {s t u : Cleaner} {c : Char} {m n : Nat}

theorem Advances.trans (h : Advances s t m) (h' : Advances t u n) : Advances s u (m + n) where
  line := by rw [h'.line, h.line, Nat.add_assoc]
  count := by rw [h'.count, h.count, Nat.add_assoc]

/-- A newline is written and counted. -/
theorem advances_newline {w : List Char} (hc : c = '\n') (hline : t.line = s.line + 1)
    (hout : t.out = '\n' :: (w ++ s.out)) (hw : '\n' ∉ w) : Advances s t ([c].count '\n') := by
  subst hc
  refine ⟨hline, ?_⟩
  rw [hout, List.count_cons_self, List.count_append, List.count_eq_zero_of_not_mem hw]
  simp

/-- What is written beside newlines does not count. -/
theorem advances_zero {w : List Char} (hline : t.line = s.line) (hout : t.out = w ++ s.out)
    (hw : '\n' ∉ w) : Advances s t 0 where
  line := hline
  count := by
    rw [hout, List.count_append, List.count_eq_zero_of_not_mem hw, Nat.zero_add]
    rfl

theorem advances_other {w : List Char} (hc : c ≠ '\n') (hline : t.line = s.line)
    (hout : t.out = w ++ s.out) (hw : '\n' ∉ w) : Advances s t ([c].count '\n') := by
  rw [count_newline_singleton hc]
  exact advances_zero hline hout hw

theorem InCode.escapes_eq {mode : Mode} {n : Nat} {out out' ds : List Char}
    (h : InCode out mode out') : escapes ⟨mode, n, ds⟩ = false := by
  cases h <;> rfl

/-- An escaped character is dropped, also if it is a newline. Any other newline is written and
counted. -/
theorem advances_step (s : Cleaner) (c : Char) :
    Advances s (s.step c) (if s.escapes then 0 else [c].count '\n') := by
  obtain ⟨mode, line, out⟩ := s
  have htakes := takes_step c mode line out
  generalize step ⟨mode, line, out⟩ c = t at htakes ⊢
  cases htakes with
  | quote hcode hc =>
    obtain ⟨w, rfl, hw⟩ := hcode.exists_append (d := '\n') (by decide)
    have hne : c ≠ '\n' := by
      rintro rfl
      exact absurd hc (by decide)
    rw [hcode.escapes_eq]
    exact advances_other hne rfl rfl hw
  | newline hcode hc =>
    obtain ⟨w, rfl, hw⟩ := hcode.exists_append (d := '\n') (by decide)
    rw [hcode.escapes_eq]
    exact advances_newline hc rfl rfl hw
  | plain hcode _ _ hc =>
    obtain ⟨w, rfl, hw⟩ := hcode.exists_append (d := '\n') (by decide)
    rw [hcode.escapes_eq]
    exact advances_other (w := c :: w) hc rfl rfl (by simp [hw, Ne.symm hc])
  | endOfLine hc | newlineInBlock hc | newlineInLiteral hc =>
    exact advances_newline (w := []) hc rfl rfl List.not_mem_nil
  | endOfBlock hc => exact advances_other (w := [' ']) (by rw [hc]; decide) rfl rfl (by decide)
  | endOfLiteral hc => exact advances_other (w := [c, c]) hc rfl rfl (by simp [Ne.symm hc])
  | escaped => exact advances_zero (w := []) rfl rfl List.not_mem_nil
  | slash hc | lineComment hc | blockComment hc | escape hc =>
    exact advances_other (w := []) (by rw [hc]; decide) rfl rfl List.not_mem_nil
  | inLine hc | inBlock hc | inLiteral hc =>
    exact advances_other (w := []) hc rfl rfl List.not_mem_nil

/-- A text advances by its newlines, but for those that are escaped. -/
theorem exists_advances_foldl (cs : List Char) (s : Cleaner) :
    ∃ n, Advances s (cs.foldl step s) n ∧ n + s.escapedNewlinesFrom cs = cs.count '\n' := by
  induction cs generalizing s with
  | nil => exact ⟨0, advances_zero (w := []) rfl rfl List.not_mem_nil, rfl⟩
  | cons c cs ih =>
    obtain ⟨n, hadvances, hn⟩ := ih (s.step c)
    rw [escapedNewlinesFrom, count_newline_cons c cs, ← hn]
    refine ⟨_, (advances_step s c).trans hadvances, ?_⟩
    split
    · omega
    · omega

/-- Only a backslash escapes. -/
theorem eq_of_step_escapes (h : (s.step c).escapes = true) : c = '\\' := by
  obtain ⟨mode, line, out⟩ := s
  have htakes := takes_step c mode line out
  generalize step ⟨mode, line, out⟩ c = t at h htakes
  cases htakes with
  | escape hc => exact hc
  | _ => cases h

theorem escapedNewlinesFrom_eq_zero {cs : List Char} (hs : s.escapes = true → '\n' ∉ cs.head?)
    (hcs : ¬ ['\\', '\n'] <:+: cs) : s.escapedNewlinesFrom cs = 0 := by
  induction cs generalizing s with
  | nil => rfl
  | cons c cs ih =>
    rw [List.infix_cons_iff, not_or] at hcs
    have hfirst : (if s.escapes then [c].count '\n' else 0) = 0 := by
      split
      · rename_i hescapes
        exact count_newline_singleton fun heq => hs hescapes (heq ▸ rfl)
      · rfl
    have hrest : (s.step c).escapedNewlinesFrom cs = 0 := by
      refine ih (fun hescapes hhead => hcs.1 ?_) hcs.2
      obtain rfl := eq_of_step_escapes hescapes
      obtain ⟨rest, rfl⟩ := List.head?_eq_some_iff.1 hhead
      exact ⟨rest, rfl⟩
    rw [escapedNewlinesFrom, hfirst, hrest]

end

end Cleaner

/-- How many newlines of a text follow a backslash that escapes them within a literal. -/
def escapedNewlines (cs : List Char) : Nat := ({} : Cleaner).escapedNewlinesFrom cs

/-- Where no newline follows a backslash, none is escaped. -/
theorem escapedNewlines_eq_zero {cs : List Char} (h : ¬ ['\\', '\n'] <:+: cs) :
    escapedNewlines cs = 0 :=
  Cleaner.escapedNewlinesFrom_eq_zero (fun hs => nomatch hs) h

/-- After a text a cleaner is on the line on which the source goes on, but for escaped newlines. -/
theorem line_after (cs : List Char) :
    (Cleaner.after cs).line + escapedNewlines cs = lineAfter cs := by
  obtain ⟨n, hadvances, hn⟩ := Cleaner.exists_advances_foldl cs {}
  have hline : (Cleaner.after cs).line = 1 + n := hadvances.line
  rw [hline, lineAfter, ← hn, escapedNewlines, Nat.add_assoc]

/-- A cleaner is on the line on which what it has written goes on. -/
theorem lineAfter_out (cs : List Char) :
    lineAfter (Cleaner.after cs).out.reverse = (Cleaner.after cs).line := by
  obtain ⟨n, hadvances, -⟩ := Cleaner.exists_advances_foldl cs {}
  have hline : (Cleaner.after cs).line = 1 + n := hadvances.line
  have hcount : (Cleaner.after cs).out.count '\n' = 0 + n := hadvances.count
  rw [hline, lineAfter, List.count_reverse, hcount, Nat.zero_add]

/-- Cleaning keeps the newlines of a source, but for those that are escaped. -/
theorem lineAfter_clean {cs out : List Char} (h : clean cs = .ok out) :
    lineAfter out + escapedNewlines cs = lineAfter cs := by
  have hsettled : lineAfter out = lineAfter (Cleaner.after cs).out.reverse := by
    rw [Cleaner.finish_eq_ok h]
    show lineAfter (Cleaner.after cs).settled.out.reverse = _
    by_cases hs : (Cleaner.after cs).mode = .slash
    · rw [Cleaner.settled_of_slash hs]
      simp [lineAfter]
    · rw [Cleaner.settled_of_ne hs]
  rw [hsettled, lineAfter_out, line_after]

/-! ## Lines of a scanner -/

namespace Scanner

variable {s s' : Scanner} {c : Char}

theorem line_openBrace (s : Scanner) : s.openBrace.line = s.line := by
  obtain ⟨scope, stmt, -, heq⟩ := s.openBrace_eq
  rw [heq]

theorem line_closeBrace (h : s.closeBrace = .ok s') : s'.line = s.line := by
  cases hs : s.scopes with
  | nil =>
    rw [closeBrace_of_nil hs] at h
    cases h
  | cons scope scopes =>
    obtain ⟨stmt, -, heq⟩ := closeBrace_eq hs
    rw [heq] at h
    obtain rfl := Except.ok.inj h
    rfl

theorem line_endStatement (s : Scanner) : s.endStatement.line = s.line := by
  obtain ⟨scopes, fields, stmt, -, -, heq⟩ := s.endStatement_eq
  rw [heq]

/-- A newline starts a new line, and nothing else does. -/
theorem line_step (h : s.step c = .ok s') : s'.line = s.line + [c].count '\n' := by
  have htakes := s.takes_step c
  rw [h] at htakes
  cases htakes with
  | newline => rfl
  | heldBrace hc => rcases hc with rfl | rfl <;> rfl
  | openBrace => exact line_openBrace s
  | closeBrace _ hr => exact line_closeBrace hr
  | semicolon => exact line_endStatement s
  | inner hn =>
    rw [count_newline_singleton hn, Nat.add_zero]
    split <;> rfl

theorem line_foldlM {cs : List Char} (h : cs.foldlM step s = .ok s') :
    s'.line = s.line + cs.count '\n' := by
  induction cs generalizing s with
  | nil =>
    obtain rfl := Except.ok.inj h
    rfl
  | cons c cs ih =>
    rw [List.foldlM_cons] at h
    cases hstep : s.step c with
    | error e =>
      rw [hstep] at h
      cases h
    | ok t =>
      rw [hstep] at h
      rw [ih h, line_step hstep, count_newline_cons c cs, Nat.add_assoc]

theorem line_eq_lineAfter {cs : List Char} (h : cs.foldlM step {} = .ok s) :
    s.line = lineAfter cs :=
  line_foldlM h

end Scanner

/-! ## Errors -/

/-- A cleaned text is refused at a brace that closes nothing, or at its end. -/
theorem fieldsOfCleaned_eq_error {cleaned : List Char} {e : SourceError}
    (h : fieldsOfCleaned cleaned = .error e) :
    (∃ x y s, cleaned = x ++ '\x7d' :: y ∧ x.foldlM Scanner.step {} = .ok s ∧
      s.step '\x7d' = .error e) ∨
    ∃ s, cleaned.foldlM Scanner.step {} = .ok s ∧ e = .unbalancedBraces s.line := by
  cases hrun : cleaned.foldlM Scanner.step {} with
  | error e' =>
    rw [fieldsOfCleaned, hrun] at h
    obtain rfl := Except.error.inj h
    exact .inl (Scanner.foldlM_eq_error hrun)
  | ok s =>
    rw [fieldsOfCleaned_of_foldlM hrun, Scanner.finish] at h
    split at h
    · cases h
    · exact .inr ⟨s, rfl, (Except.error.inj h).symm⟩

theorem clean_ne_unbalancedBraces (cs : List Char) (line : Nat) :
    clean cs ≠ .error (.unbalancedBraces line) := by
  intro h
  unfold clean Cleaner.finish at h
  split at h <;> cases h

section
variable {source : String} {line : Nat}

theorem exists_clean_of_unbalancedBraces
    (h : fieldsOfSource source = .error (.unbalancedBraces line)) :
    ∃ cleaned, clean source.toList = .ok cleaned ∧
      fieldsOfCleaned cleaned = .error (.unbalancedBraces line) := by
  cases hclean : clean source.toList with
  | error e =>
    rw [fieldsOfSource, hclean] at h
    obtain rfl := Except.error.inj h
    exact absurd hclean (clean_ne_unbalancedBraces _ _)
  | ok cleaned => exact ⟨cleaned, rfl, fieldsOfSource_of_clean hclean ▸ h⟩

/-- Only a source that cannot be cleaned is told to leave a part open. -/
theorem clean_of_unterminated {part : OpenPart}
    (h : fieldsOfSource source = .error (.unterminated part line)) :
    clean source.toList = .error (.unterminated part line) := by
  cases hclean : clean source.toList with
  | error e =>
    rw [fieldsOfSource, hclean] at h
    obtain rfl := Except.error.inj h
    rfl
  | ok cleaned =>
    rw [fieldsOfSource_of_clean hclean] at h
    rcases fieldsOfCleaned_eq_error h with ⟨x, y, s, -, -, hstep⟩ | ⟨s, -, he⟩
    · obtain ⟨-, -, he⟩ := Scanner.step_eq_error hstep
      cases he
    · cases he

/-- A brace that closes nothing is told by its line. -/
theorem line_of_strayBrace {before rest : String} (hsource : source = before ++ "\x7d" ++ rest)
    (hstray : StrayBrace before) (h : fieldsOfSource source = .error (.unbalancedBraces line)) :
    line + escapedNewlines before.toList = lineAfter before.toList := by
  obtain ⟨x, s, e, hclosed, hrun, hstep⟩ := strayBrace_iff.1 hstray
  obtain ⟨cleaned, hclean, -⟩ := exists_clean_of_unbalancedBraces h
  have hchars : source.toList = before.toList ++ '\x7d' :: rest.toList := by
    simp [hsource, String.toList_append]
  rw [hchars] at hclean
  obtain ⟨y, rfl⟩ := hclosed.exists_clean_append hclean
  rw [← hchars] at hclean
  -- the scanner stops at the brace
  have hstops : (x ++ '\x7d' :: y).foldlM Scanner.step {} = .error e := by
    rw [List.foldlM_append, hrun]
    show ('\x7d' :: y).foldlM Scanner.step s = _
    rw [List.foldlM_cons, hstep]
    rfl
  rw [fieldsOfSource_of_clean hclean, fieldsOfCleaned, hstops] at h
  obtain ⟨-, -, he⟩ := Scanner.step_eq_error hstep
  obtain rfl : line = s.line := by
    cases (Except.error.inj h).symm.trans he
    rfl
  rw [Scanner.line_eq_lineAfter hrun]
  exact lineAfter_clean hclosed.clean

/-- Where no brace closes nothing, a brace is missing at the end. -/
theorem line_of_missingBrace (hstray : ∀ before rest, source = before ++ "\x7d" ++ rest →
    ¬ StrayBrace before) (h : fieldsOfSource source = .error (.unbalancedBraces line)) :
    line + escapedNewlines source.toList = lineAfter source.toList := by
  obtain ⟨cleaned, hclean, hcleaned⟩ := exists_clean_of_unbalancedBraces h
  rcases fieldsOfCleaned_eq_error hcleaned with ⟨x, y, s, rfl, hrun, hstep⟩ | ⟨s, hrun, hline⟩
  · obtain ⟨before, rest, hchars, hclosed⟩ := exists_closedCode_of_clean hclean
    have hsource : source = String.ofList before ++ "\x7d" ++ String.ofList rest :=
      String.toList_inj.1 (by simpa [String.toList_append] using hchars)
    refine absurd (strayBrace_iff.2 ⟨x, s, _, ?_, hrun, hstep⟩) (hstray _ _ hsource)
    rw [String.toList_ofList]
    exact hclosed
  · obtain rfl : line = s.line := by
      cases hline
      rfl
    rw [Scanner.line_eq_lineAfter hrun]
    exact lineAfter_clean hclean

end

/-- Cleaning keeps the newlines of a source, and errors tell the line of what they are about, but
for the newlines that a backslash escapes within a literal. -/
theorem fieldsOfSource_lines (source : String) :
    (∀ before, before <+: source.toList → ¬ ['\\', '\n'] <:+: before →
      escapedNewlines before = 0) ∧
    (∀ cleaned, clean source.toList = .ok cleaned →
      cleaned.count '\n' + escapedNewlines source.toList = source.toList.count '\n') ∧
    (∀ line, fieldsOfSource source = .error (.unbalancedBraces line) →
      (∀ before rest, source = before ++ "\x7d" ++ rest → StrayBrace before →
        line + escapedNewlines before.toList = lineAfter before.toList) ∧
      ((∀ before rest, source = before ++ "\x7d" ++ rest → ¬ StrayBrace before) →
        line + escapedNewlines source.toList = lineAfter source.toList)) ∧
    (∀ part line, fieldsOfSource source = .error (.unterminated part line) →
      ∃ before mark body, source.toList = before ++ mark ++ body ∧
        LeavesOpen part before mark body ∧ line + escapedNewlines before = lineAfter before) := by
  refine ⟨fun before _ => escapedNewlines_eq_zero, fun cleaned hclean => ?_,
    fun line herror => ⟨?_, ?_⟩, fun part line herror => ?_⟩
  · have hlines := lineAfter_clean hclean
    unfold lineAfter at hlines
    omega
  · intro before rest hsource hstray
    exact line_of_strayBrace hsource hstray herror
  · intro hstray
    exact line_of_missingBrace hstray herror
  · obtain ⟨before, mark, body, hsource, hleaves, rfl⟩ :=
      clean_eq_unterminated_iff.1 (clean_of_unterminated herror)
    exact ⟨before, mark, body, hsource, hleaves, line_after before⟩

/-- A brace that closes nothing, after newlines in both kinds of comments, in a literal and between
them, and a comment that is left open. -/
theorem fieldsOfSource_lines_spread :
    escapedNewlines "/* a\n */ class A \x7b // b\n char c = 'd\n'; \x7d\n".toList = 0 ∧
    clean "/* a\n */ class A \x7b // b\n char c = 'd\n'; \x7d\n\x7d".toList =
      .ok "\n  class A \x7b \n char c = \n''; \x7d\n\x7d".toList ∧
    "\n  class A \x7b \n char c = \n''; \x7d\n\x7d".toList.count '\n' + 0 =
      "/* a\n */ class A \x7b // b\n char c = 'd\n'; \x7d\n\x7d".toList.count '\n' ∧
    fieldsOfSource "/* a\n */ class A \x7b // b\n char c = 'd\n'; \x7d\n\x7d" =
      .error (.unbalancedBraces 5) ∧
    StrayBrace "/* a\n */ class A \x7b // b\n char c = 'd\n'; \x7d\n" ∧
    5 + 0 = lineAfter "/* a\n */ class A \x7b // b\n char c = 'd\n'; \x7d\n".toList ∧
    fieldsOfSource "// a\n'b\n'/* c\n" = .error (.unterminated .comment 3) ∧
    ∃ before mark body, "// a\n'b\n'/* c\n".toList = before ++ mark ++ body ∧
      LeavesOpen .comment before mark body ∧ 3 + escapedNewlines before = lineAfter before := by
  have herror : fieldsOfSource "/* a\n */ class A \x7b // b\n char c = 'd\n'; \x7d\n\x7d" =
      .error (.unbalancedBraces 5) := by
    decide +kernel
  have hclean : clean "/* a\n */ class A \x7b // b\n char c = 'd\n'; \x7d\n\x7d".toList =
      .ok "\n  class A \x7b \n char c = \n''; \x7d\n\x7d".toList := by
    decide +kernel
  have hopen : fieldsOfSource "// a\n'b\n'/* c\n" = .error (.unterminated .comment 3) := by
    decide +kernel
  have hstray : StrayBrace "/* a\n */ class A \x7b // b\n char c = 'd\n'; \x7d\n" :=
    ⟨⟨[⟨"c", "char"⟩], by decide +kernel⟩, 5, by decide +kernel⟩
  obtain ⟨hescaped, hcount, hbraces, -⟩ :=
    fieldsOfSource_lines "/* a\n */ class A \x7b // b\n char c = 'd\n'; \x7d\n\x7d"
  have hbefore := hescaped "/* a\n */ class A \x7b // b\n char c = 'd\n'; \x7d\n".toList
    (by decide +kernel) (by decide +kernel)
  have hwhole := hescaped _ (List.prefix_refl _) (by decide +kernel)
  have hline := (hbraces 5 herror).1 _ "" (by decide +kernel) hstray
  rw [hbefore] at hline
  have hnewlines := hcount _ hclean
  rw [hwhole] at hnewlines
  exact ⟨hbefore, hclean, hnewlines, herror, hstray, hline, hopen,
    (fieldsOfSource_lines _).2.2.2 .comment 3 hopen⟩

/-- A text block whose lines are joined by a backslash: the newline after it is lost. -/
theorem fieldsOfSource_joinedLines :
    (∃ cleaned,
      clean "class A \x7b String s = \"\"\"\n a \\\n b\"\"\"; \x7d\n\x7d".toList = .ok cleaned ∧
      cleaned.count '\n' = 2) ∧
    "class A \x7b String s = \"\"\"\n a \\\n b\"\"\"; \x7d\n\x7d".toList.count '\n' = 3 ∧
    fieldsOfSource "class A \x7b String s = \"\"\"\n a \\\n b\"\"\"; \x7d\n\x7d" =
      .error (.unbalancedBraces 3) ∧
    StrayBrace "class A \x7b String s = \"\"\"\n a \\\n b\"\"\"; \x7d\n" ∧
    lineAfter "class A \x7b String s = \"\"\"\n a \\\n b\"\"\"; \x7d\n".toList = 4 := by
  refine ⟨⟨"class A \x7b String s = \"\"\n\"\"\"\"; \x7d\n\x7d".toList, by decide +kernel,
    by decide +kernel⟩, by decide +kernel, by decide +kernel,
    ⟨⟨[⟨"s", "String"⟩], by decide +kernel⟩, 3, by decide +kernel⟩, by decide +kernel⟩

end EntityForge.Java
