import EntityForge.Proofs.Java.OpenParts
import EntityForge.Proofs.Java.Scanned

/-!
# Braces that close nothing

A closing brace closes nothing if the text before it is a whole source and its braces are not
balanced with it (`StrayBrace`). The cleaner writes a closing brace only where it reads one in code,
so that each brace of the cleaned text stands in the source after closed text (`exists_closedCode`),
and a scanner refuses nothing but a closing brace (`Scanner.step_eq_error`). Hence such a brace is
one that the scanner refuses after what the text before it is cleaned to (`strayBrace_iff`).
-/

namespace EntityForge.Java

/-- The closing brace that follows the text closes nothing: without it the text is a whole source,
with it its braces are not balanced. -/
structure StrayBrace (before : String) : Prop where
  whole : ∃ fields, fieldsOfSource before = .ok fields
  unbalanced : ∃ line, fieldsOfSource (before ++ "\x7d") = .error (.unbalancedBraces line)

/-! ## Braces of a cleaned text -/

/-- A character that the second of two texts is without stands in the first. -/
theorem exists_of_append_eq {a w x y : List Char} {d : Char} (hd : d ∉ w)
    (h : a ++ w = x ++ d :: y) : ∃ z, a = x ++ d :: z := by
  rcases List.append_eq_append_iff.1 h with ⟨v, rfl, rfl⟩ | ⟨v, rfl, hv⟩
  · exact absurd (by simp) hd
  · cases v with
    | nil =>
      rw [List.nil_append] at hv
      exact absurd (hv ▸ List.mem_cons_self) hd
    | cons e v =>
      obtain ⟨rfl, -⟩ := List.cons.inj hv
      exact ⟨v, rfl⟩

namespace Cleaner

section
variable {s : Cleaner}

theorem finish_eq_ok {out : List Char} (h : s.finish = .ok out) : out = s.settled.out.reverse := by
  unfold finish at h
  split at h
  · rename_i hs
    rw [settled_of_ne (by simp [hs])]
    exact (Except.ok.inj h).symm
  · rename_i hs
    rw [settled_of_ne (by simp [hs])]
    exact (Except.ok.inj h).symm
  · rename_i hs
    rw [settled_of_slash hs]
    exact (Except.ok.inj h).symm
  · cases h
  · cases h

theorem exists_settled_out (s : Cleaner) : ∃ w, s.settled.out = w ++ s.out ∧ '\x7d' ∉ w := by
  by_cases hs : s.mode = .slash
  · rw [settled_of_slash hs]
    exact ⟨['/'], rfl, by decide⟩
  · rw [settled_of_ne hs]
    exact ⟨[], rfl, List.not_mem_nil⟩

theorem InCode.settled_eq {mode : Mode} {out out' : List Char} (h : InCode out mode out')
    (line : Nat) : settled ⟨mode, line, out⟩ = ⟨.code, line, out'⟩ := by
  cases h <;> rfl

/-- A closing brace is written only where it is read in code, and then after all that is written
before it. -/
theorem step_out (hs : s.Tidy) (c : Char) :
    (∃ w, (s.step c).out = w ++ s.out ∧ '\x7d' ∉ w) ∨
      (c = '\x7d' ∧ s.settled.mode = .code ∧ (s.step c).out = '\x7d' :: s.settled.out) := by
  obtain ⟨mode, line, out⟩ := s
  have htakes := takes_step c mode line out
  generalize step ⟨mode, line, out⟩ c = t at htakes ⊢
  cases htakes with
  | plain hcode =>
    by_cases hc : c = '\x7d'
    · subst hc
      exact .inr ⟨rfl, by rw [hcode.settled_eq], by rw [hcode.settled_eq]⟩
    · obtain ⟨w, rfl, hw⟩ := hcode.exists_append (d := '\x7d') (by decide)
      exact .inl ⟨c :: w, rfl, by simp [hw, Ne.symm hc]⟩
  | quote hcode =>
    obtain ⟨w, rfl, hw⟩ := hcode.exists_append (d := '\x7d') (by decide)
    exact .inl ⟨w, rfl, hw⟩
  | newline hcode =>
    obtain ⟨w, rfl, hw⟩ := hcode.exists_append (d := '\x7d') (by decide)
    exact .inl ⟨'\n' :: w, rfl, by simpa using hw⟩
  | endOfLiteral =>
    have hquote : '\x7d' ≠ c := by
      rcases hs.quote c rfl with rfl | rfl <;> decide
    exact .inl ⟨[c, c], rfl, by simp [hquote]⟩
  | endOfBlock => exact .inl ⟨[' '], rfl, by decide⟩
  | endOfLine | newlineInBlock | newlineInLiteral => exact .inl ⟨['\n'], rfl, by decide⟩
  | _ => exact .inl ⟨[], rfl, List.not_mem_nil⟩

end

theorem tidy_after (cs : List Char) : (after cs).Tidy :=
  tidy_empty.foldl cs

theorem closedCode_of_settled {cs : List Char} (h : (after cs).settled.mode = .code) :
    ClosedCode cs (after cs).settled.out.reverse := by
  by_cases hs : (after cs).mode = .slash
  · rw [settled_of_slash hs]
    refine ⟨?_, fun hline => ?_⟩
    · show (after cs).finish = _
      rw [finish, hs]
    · exact Mode.noConfusion (hs.symm.trans hline)
  · rw [settled_of_ne hs] at h ⊢
    refine ⟨?_, fun hline => ?_⟩
    · show (after cs).finish = _
      rw [finish, h]
    · exact Mode.noConfusion (h.symm.trans hline)

/-- A closing brace that is written stands in the source, after closed text. -/
theorem exists_closedCode {cs x y : List Char} (h : (after cs).out.reverse = x ++ '\x7d' :: y) :
    ∃ before rest, cs = before ++ '\x7d' :: rest ∧ ClosedCode before x := by
  induction cs using List.reverseRecOn generalizing y with
  | nil => simp [after] at h
  | append_singleton cs c ih =>
    have hearlier : ∀ {w z : List Char}, '\x7d' ∉ w →
        (w ++ (after cs).out).reverse = x ++ '\x7d' :: z →
          ∃ before rest, cs ++ [c] = before ++ '\x7d' :: rest ∧ ClosedCode before x := by
      intro w z hw hz
      rw [List.reverse_append] at hz
      obtain ⟨y', hy'⟩ := exists_of_append_eq (mt List.mem_reverse.1 hw) hz
      obtain ⟨before, rest, rfl, hclosed⟩ := ih hy'
      exact ⟨before, rest ++ [c], by simp, hclosed⟩
    rw [after_concat] at h
    rcases step_out (tidy_after cs) c with ⟨w, hout, hw⟩ | ⟨rfl, hcode, hout⟩
    · exact hearlier hw (hout ▸ h)
    · rw [hout, List.reverse_cons] at h
      rcases List.eq_nil_or_concat y with rfl | ⟨z, d, rfl⟩
      · obtain rfl : (after cs).settled.out.reverse = x := (List.append_inj' h rfl).1
        exact ⟨cs, [], rfl, closedCode_of_settled hcode⟩
      · obtain ⟨w, hsettled, hw⟩ := exists_settled_out (after cs)
        rw [List.concat_eq_append, ← List.cons_append, ← List.append_assoc] at h
        refine hearlier hw (z := z) ?_
        rw [← hsettled]
        exact (List.append_inj' h rfl).1

end Cleaner

/-- A closing brace of a cleaned text stands in the source, after closed text. -/
theorem exists_closedCode_of_clean {cs x y : List Char} (h : clean cs = .ok (x ++ '\x7d' :: y)) :
    ∃ before rest, cs = before ++ '\x7d' :: rest ∧ ClosedCode before x := by
  have hout : (Cleaner.after cs).settled.out.reverse = x ++ '\x7d' :: y :=
    (Cleaner.finish_eq_ok h).symm
  obtain ⟨w, hsettled, hw⟩ := Cleaner.exists_settled_out (Cleaner.after cs)
  rw [hsettled, List.reverse_append] at hout
  obtain ⟨z, hz⟩ := exists_of_append_eq (mt List.mem_reverse.1 hw) hout
  exact Cleaner.exists_closedCode hz

/-- A closing brace after closed text is in the cleaned text, after what that is cleaned to. -/
theorem ClosedCode.exists_clean_append {before rest x out : List Char} (hx : ClosedCode before x)
    (h : Java.clean (before ++ '\x7d' :: rest) = .ok out) : ∃ y, out = x ++ '\x7d' :: y := by
  obtain ⟨hcode, hsettled⟩ := hx.settled
  have hbrace := (Cleaner.step_plain hcode (c := '\x7d') (by decide) (by decide)).2
  replace h := Cleaner.finish_eq_ok h
  rw [List.foldl_append, List.foldl_cons] at h
  generalize (before.foldl Cleaner.step {}).step '\x7d' = s at h hbrace
  obtain ⟨-, w, hw, -⟩ := Cleaner.foldl_alike (s := s) (t := s) rfl rest
  obtain ⟨v, hv, -⟩ := Cleaner.exists_settled_out (rest.foldl Cleaner.step s)
  refine ⟨(v ++ w).reverse, ?_⟩
  rw [h, hv, hw, hbrace, hsettled]
  simp

/-! ## Braces and scopes -/

namespace Scanner

variable {s s' : Scanner} {c : Char} {e : SourceError}

/-- Only a closing brace without an open scope is an error. -/
theorem step_eq_error (h : s.step c = .error e) :
    c = '\x7d' ∧ s.scopes = [] ∧ e = .unbalancedBraces s.line := by
  have htakes := s.takes_step c
  rw [h] at htakes
  cases htakes with
  | closeBrace _ hr =>
    cases hs : s.scopes with
    | nil =>
      rw [closeBrace_of_nil hs] at hr
      exact ⟨rfl, rfl, (Except.error.inj hr).symm⟩
    | cons scope scopes =>
      obtain ⟨_, -, heq⟩ := closeBrace_eq hs
      rw [heq] at hr
      cases hr

/-- A closing brace opens no scope. -/
theorem scopes_step_closeBrace (hs : s.scopes = []) (h : s.step '\x7d' = .ok s') :
    s'.scopes = [] := by
  by_cases hheld : 0 < openParens s.statement.reverse
  · rw [step_heldBrace (.inr rfl) (by rw [inStatement, hs]) hheld] at h
    obtain rfl := Except.ok.inj h
    exact hs
  · rw [step_closeBrace fun _ => by omega, closeBrace_of_nil hs] at h
    cases h

/-- A text that is not read to its end has a brace that closes nothing. -/
theorem foldlM_eq_error {cs : List Char} (h : cs.foldlM step s = .error e) :
    ∃ x y t, cs = x ++ '\x7d' :: y ∧ x.foldlM step s = .ok t ∧ t.step '\x7d' = .error e := by
  induction cs generalizing s with
  | nil => cases h
  | cons c cs ih =>
    rw [List.foldlM_cons] at h
    cases hstep : s.step c with
    | error e' =>
      rw [hstep] at h
      obtain rfl := Except.error.inj h
      obtain ⟨rfl, -⟩ := step_eq_error hstep
      exact ⟨[], cs, s, rfl, rfl, hstep⟩
    | ok t =>
      rw [hstep] at h
      obtain ⟨x, y, u, rfl, hrun, hlast⟩ := ih h
      refine ⟨c :: x, y, u, rfl, ?_, hlast⟩
      rw [List.foldlM_cons, hstep]
      exact hrun

end Scanner

/-! ## Braces that close nothing -/

theorem fieldsOfSource_of_clean {source : String} {cleaned : List Char}
    (h : clean source.toList = .ok cleaned) : fieldsOfSource source = fieldsOfCleaned cleaned := by
  rw [fieldsOfSource, h]
  rfl

theorem fieldsOfCleaned_of_foldlM {cleaned : List Char} {s : Scanner}
    (h : cleaned.foldlM Scanner.step {} = .ok s) : fieldsOfCleaned cleaned = s.finish := by
  rw [fieldsOfCleaned, h]
  rfl

/-- A scanner ends with fields exactly if no scope is open. -/
theorem Scanner.finish_isOk_iff {s : Scanner} :
    (∃ fields, s.finish = .ok fields) ↔ s.scopes = [] := by
  cases hs : s.scopes <;> simp [finish, hs]

theorem exists_clean_of_fieldsOfSource {source : String} {fields : List FieldDecl}
    (h : fieldsOfSource source = .ok fields) : ∃ cleaned s, clean source.toList = .ok cleaned ∧
      cleaned.foldlM Scanner.step {} = .ok s ∧ s.scopes = [] := by
  cases hclean : clean source.toList with
  | error e =>
    rw [fieldsOfSource, hclean] at h
    cases h
  | ok cleaned =>
    rw [fieldsOfSource_of_clean hclean] at h
    cases hrun : cleaned.foldlM Scanner.step {} with
    | error e =>
      rw [fieldsOfCleaned, hrun] at h
      cases h
    | ok s =>
      rw [fieldsOfCleaned_of_foldlM hrun] at h
      exact ⟨cleaned, s, rfl, hrun, Scanner.finish_isOk_iff.1 ⟨fields, h⟩⟩

section
variable {before : String} {x : List Char}

/-- Within a comment to the end of the line a closing brace is dropped. -/
theorem clean_append_closeBrace_of_lineComment (hx : clean before.toList = .ok x)
    (hline : (Cleaner.after before.toList).mode = .lineComment) :
    clean (before ++ "\x7d").toList = .ok x := by
  have hstep : (Cleaner.after before.toList).step '\x7d' = Cleaner.after before.toList := by
    rw [Cleaner.step, hline]
    rfl
  rw [String.toList_append]
  show (Cleaner.after (before.toList ++ ['\x7d'])).finish = _
  rw [Cleaner.after_concat, hstep]
  exact hx

theorem ClosedCode.clean_append_closeBrace (hx : ClosedCode before.toList x) :
    Java.clean (before ++ "\x7d").toList = .ok (x ++ ['\x7d']) := by
  rw [String.toList_append]
  exact hx.clean_append (b := ['\x7d']) rfl fun _ c hc => by
    obtain rfl := Option.some.inj hc
    rfl

/-- A brace closes nothing exactly if it stands after closed text and is refused where the scanner
is after that. -/
theorem strayBrace_iff : StrayBrace before ↔ ∃ x s e,
    ClosedCode before.toList x ∧ x.foldlM Scanner.step {} = .ok s ∧ s.step '\x7d' = .error e := by
  constructor
  · rintro ⟨⟨fields, hwhole⟩, line, herror⟩
    obtain ⟨x, s, hx, hrun, hscopes⟩ := exists_clean_of_fieldsOfSource hwhole
    have hclosed : ClosedCode before.toList x := by
      refine ⟨hx, fun hline => ?_⟩
      rw [fieldsOfSource_of_clean (clean_append_closeBrace_of_lineComment hx hline),
        ← fieldsOfSource_of_clean hx, hwhole] at herror
      cases herror
    rw [fieldsOfSource_of_clean hclosed.clean_append_closeBrace] at herror
    cases hstep : s.step '\x7d' with
    | error e => exact ⟨x, s, e, hclosed, hrun, hstep⟩
    | ok s' =>
      -- a brace that the statement takes in leaves the source whole
      have hrun' : (x ++ ['\x7d']).foldlM Scanner.step {} = .ok s' := by
        rw [List.foldlM_append, hrun]
        show ['\x7d'].foldlM Scanner.step s = .ok s'
        rw [List.foldlM_cons, hstep]
        rfl
      obtain ⟨fields', hfinish⟩ :=
        Scanner.finish_isOk_iff.2 (Scanner.scopes_step_closeBrace hscopes hstep)
      rw [fieldsOfCleaned_of_foldlM hrun', hfinish] at herror
      cases herror
  · rintro ⟨x, s, e, hclosed, hrun, hstep⟩
    obtain ⟨-, hscopes, rfl⟩ := Scanner.step_eq_error hstep
    obtain ⟨fields, hfields⟩ := Scanner.finish_isOk_iff.2 hscopes
    refine ⟨⟨fields, ?_⟩, s.line, ?_⟩
    · rw [fieldsOfSource_of_clean hclosed.clean, fieldsOfCleaned_of_foldlM hrun, hfields]
    · rw [fieldsOfSource_of_clean hclosed.clean_append_closeBrace, fieldsOfCleaned,
        List.foldlM_append, hrun]
      show (['\x7d'].foldlM Scanner.step s).bind Scanner.finish = _
      rw [List.foldlM_cons, hstep]
      rfl

end

end EntityForge.Java
