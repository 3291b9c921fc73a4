import EntityForge.Proofs.Dbml.Spelling

/-!
# Reading goes on to the end

One reader is asked for tokens again and again, also after errors: `leftAfter` is the text that is
left after so many calls and `answer` what the next call gives. Whatever a call gives, it leaves an
end of the text that it was given (`nextToken_suffix`), and a shorter one unless it says that the
text has ended (`exists_read_of_ne_end`). It says so exactly if nothing but blanks and comments was
left (`nextToken_eq_end_iff`), and from then on it says nothing else (`answer_eq_end_of_le`). So a
text has at most as many tokens and errors as characters (`answers_progress`).
-/

namespace EntityForge.Dbml

/-! ## What a reader leaves is an end of its text -/

theorem afterLine_suffix (cs : List Char) : afterLine cs <:+ cs := by
  induction cs with
  | nil => exact List.suffix_rfl
  | cons c cs ih =>
    rw [afterLine]
    split
    · exact List.suffix_cons c cs
    · exact ih.trans (List.suffix_cons c cs)

theorem suffix_cons_cons {cs rest : List Char} (h : rest <:+ cs) (c d : Char) :
    rest <:+ c :: d :: cs :=
  h.trans ((List.suffix_cons d cs).trans (List.suffix_cons c _))

theorem afterComment_suffix {cs rest : List Char} (h : afterComment cs = some rest) :
    rest <:+ cs := by
  fun_induction afterComment cs with
  | case1 => cases h
  | case2 =>
    cases h
    exact suffix_cons_cons List.suffix_rfl '*' '/'
  | case3 c cs _ ih => exact (ih h).trans (List.suffix_cons c cs)

theorem skipTrivia_suffix {cs rest : List Char} (h : skipTrivia cs = some rest) : rest <:+ cs := by
  fun_induction skipTrivia cs with
  | case1 cs ih => exact suffix_cons_cons ((ih h).trans (afterLine_suffix cs)) '/' '/'
  | case2 cs r hr ih => exact suffix_cons_cons ((ih h).trans (afterComment_suffix hr)) '/' '*'
  | case3 => cases h
  | case4 c cs _ _ _ ih => exact (ih h).trans (List.suffix_cons c cs)
  | case5 => cases h; exact List.suffix_rfl
  | case6 => cases h; exact List.suffix_rfl

theorem readQuoted_suffix {quote : Char} {cs text rest : List Char}
    (h : readQuoted quote cs = some (text, rest)) : rest <:+ cs := by
  fun_induction readQuoted quote cs generalizing text with
  | case1 => cases h
  | case2 c cs ih =>
    obtain ⟨⟨t, r⟩, h1, h2⟩ := Option.map_eq_some_iff.1 h
    cases h2
    exact suffix_cons_cons (ih h1) '\\' c
  | case3 =>
    cases h
    exact List.suffix_cons _ _
  | case4 c cs _ _ ih =>
    obtain ⟨⟨t, r⟩, h1, h2⟩ := Option.map_eq_some_iff.1 h
    cases h2
    exact (ih h1).trans (List.suffix_cons c cs)

theorem readTripleQuoted_suffix {cs text rest : List Char}
    (h : readTripleQuoted cs = some (text, rest)) : rest <:+ cs := by
  fun_induction readTripleQuoted cs generalizing text with
  | case1 => cases h
  | case2 =>
    cases h
    exact (List.suffix_cons '\'' _).trans (suffix_cons_cons List.suffix_rfl '\'' '\'')
  | case3 c cs _ ih =>
    obtain ⟨⟨t, r⟩, h1, h2⟩ := Option.map_eq_some_iff.1 h
    cases h2
    exact (ih h1).trans (List.suffix_cons c cs)

theorem readExpr_suffix {cs text rest : List Char} (h : readExpr cs = some (text, rest)) :
    rest <:+ cs := by
  fun_induction readExpr cs generalizing text with
  | case1 => cases h
  | case2 =>
    cases h
    exact List.suffix_cons _ _
  | case3 c cs _ ih =>
    obtain ⟨⟨t, r⟩, h1, h2⟩ := Option.map_eq_some_iff.1 h
    cases h2
    exact (ih h1).trans (List.suffix_cons c cs)

/-- A text that is not closed leaves nothing. -/
theorem closed_suffix {make : String → Token} {e : LexError}
    {read : Option (List Char × List Char)} {cs : List Char}
    (h : ∀ text rest, read = some (text, rest) → rest <:+ cs) : (closed make e read).2 <:+ cs := by
  cases read with
  | none => exact List.nil_suffix
  | some p => exact h p.1 p.2 rfl

theorem tokenAt_suffix (c : Char) (rest : List Char) : (tokenAt c rest).2 <:+ rest := by
  generalize hx : tokenAt c rest = x
  cases tokenAt_eq_iff.1 hx with
  | mark => exact List.suffix_rfl
  | ltGt _ hrest => exact hrest ▸ List.suffix_cons _ _
  | lt => exact List.suffix_rfl
  | tripleQuoted _ hrest hread =>
    subst hrest
    rw [← hread]
    exact closed_suffix fun _ _ h => suffix_cons_cons (readTripleQuoted_suffix h) '\'' '\''
  | quoted _ hread => exact hread ▸ closed_suffix fun _ _ h => readQuoted_suffix h
  | expr _ hread => exact hread ▸ closed_suffix fun _ _ h => readExpr_suffix h
  | number => exact List.dropWhile_suffix _
  | name => exact List.dropWhile_suffix _
  | unexpected => exact List.suffix_rfl

/-- A call reads a start of the text and leaves the rest, whatever it gives. -/
theorem nextToken_suffix (cs : List Char) : (nextToken cs).2 <:+ cs := by
  unfold nextToken
  split
  · exact List.nil_suffix
  · exact List.nil_suffix
  · rename_i c rest hs
    exact (tokenAt_suffix c rest).trans ((List.suffix_cons c rest).trans (skipTrivia_suffix hs))

/-- A call that gives a token or an error reads at least one character. -/
theorem exists_read_of_ne_end {cs : List Char} (h : (nextToken cs).1 ≠ .ok none) :
    ∃ read, read ≠ [] ∧ cs = read ++ (nextToken cs).2 := by
  obtain ⟨read, hread⟩ := nextToken_suffix cs
  have hlt : (nextToken cs).2.length < cs.length := nextToken_length_lt rfl h
  refine ⟨read, ?_, hread.symm⟩
  rintro rfl
  rw [List.nil_append] at hread
  exact absurd (congrArg List.length hread) (Nat.ne_of_lt hlt)

/-! ## The end of the text -/

/-- The text is trivia, except that no newline need end a line comment that comes last. -/
def IsTriviaToEnd (cs : List Char) : Prop :=
  ∃ gap last, IsTrivia gap ∧ cs = gap ++ last ∧
    (last = [] ∨ ∃ body, '\n' ∉ body ∧ last = '/' :: '/' :: body)

/-- Trivia before a text that is trivia to its end. -/
theorem IsTriviaToEnd.append {cs : List Char} (h : IsTriviaToEnd cs) (start : List Char)
    (hstart : ∀ gap, IsTrivia gap → IsTrivia (start ++ gap)) : IsTriviaToEnd (start ++ cs) := by
  obtain ⟨gap, last, hgap, rfl, hlast⟩ := h
  exact ⟨start ++ gap, last, hstart gap hgap, (List.append_assoc ..).symm, hlast⟩

theorem isTrivia_line {cs : List Char} (h : '\n' ∈ cs) : ∃ start, cs = start ++ afterLine cs ∧
    ∀ gap, IsTrivia gap → IsTrivia ('/' :: '/' :: (start ++ gap)) := by
  obtain ⟨body, rest, rfl, hbody⟩ := List.eq_append_cons_of_mem h
  refine ⟨body ++ ['\n'], ?_, fun gap hgap => ?_⟩
  · rw [(afterLine_of_not_mem hbody rest).2, List.append_assoc]
    rfl
  · rw [List.append_assoc]
    exact .line hbody hgap

theorem afterComment_eq_some {cs rest : List Char} (h : afterComment cs = some rest) :
    ∃ body, ¬ ['*', '/'] <:+: body ∧ cs = body ++ '*' :: '/' :: rest := by
  fun_induction afterComment cs with
  | case1 => cases h
  | case2 =>
    cases h
    exact ⟨[], by simp, rfl⟩
  | case3 c cs hc ih =>
    obtain ⟨body, hbody, rfl⟩ := ih h
    refine ⟨c :: body, fun hin => ?_, rfl⟩
    rcases List.infix_cons_iff.1 hin with hstart | hin
    · -- the mark would have ended the comment here
      obtain ⟨rfl, more, rfl⟩ := List.cons_prefix_cons.1 hstart
      exact hc _ rfl rfl
    · exact hbody hin

theorem isTrivia_block {cs rest : List Char} (h : afterComment cs = some rest) : ∃ start,
    cs = start ++ rest ∧ ∀ gap, IsTrivia gap → IsTrivia ('/' :: '*' :: (start ++ gap)) := by
  obtain ⟨body, hbody, rfl⟩ := afterComment_eq_some h
  refine ⟨body ++ ['*', '/'], by simp, fun gap hgap => ?_⟩
  rw [List.append_assoc]
  exact .block hbody hgap

theorem isTriviaToEnd_of_skipTrivia {cs : List Char} (h : skipTrivia cs = some []) :
    IsTriviaToEnd cs := by
  fun_induction skipTrivia cs with
  | case1 cs ih =>
    by_cases hline : '\n' ∈ cs
    · obtain ⟨start, hcs, hstart⟩ := isTrivia_line hline
      rw [hcs]
      exact (ih h).append ('/' :: '/' :: start) hstart
    · exact ⟨[], _, .nil, rfl, .inr ⟨cs, hline, rfl⟩⟩
  | case2 cs r hr ih =>
    obtain ⟨start, rfl, hstart⟩ := isTrivia_block hr
    exact (ih h).append ('/' :: '*' :: start) hstart
  | case3 => cases h
  | case4 c cs _ _ hc ih => exact (ih h).append [c] fun gap hgap => .blank hc hgap
  | case5 => cases h
  | case6 => exact ⟨[], [], .nil, rfl, .inl rfl⟩

theorem IsTriviaToEnd.nextToken_eq {cs : List Char} (h : IsTriviaToEnd cs) :
    nextToken cs = (.ok none, []) := by
  obtain ⟨gap, last, hgap, rfl, rfl | ⟨body, hbody, rfl⟩⟩ := h
  · rw [hgap.nextToken_append, nextToken, skipTrivia]
  · rw [hgap.nextToken_append, nextToken, skipTrivia, (afterLine_of_not_mem hbody []).1, skipTrivia]

/-- A call says that the text has ended exactly if nothing but trivia is left, and it reads it. -/
theorem nextToken_eq_end_iff {cs : List Char} :
    (nextToken cs).1 = .ok none ↔ IsTriviaToEnd cs ∧ (nextToken cs).2 = [] := by
  constructor
  · intro h
    have hend : IsTriviaToEnd cs := by
      unfold nextToken at h
      split at h
      · cases h
      · rename_i hs
        exact isTriviaToEnd_of_skipTrivia hs
      · exact absurd h (tokenAt_ne_end _ _)
    exact ⟨hend, congrArg Prod.snd hend.nextToken_eq⟩
  · rintro ⟨hend, -⟩
    exact congrArg Prod.fst hend.nextToken_eq

theorem nextToken_nil : nextToken [] = (.ok none, []) :=
  IsTriviaToEnd.nextToken_eq ⟨[], [], .nil, rfl, .inl rfl⟩

/-! ## Calls one after the other -/

/-- What is left of the text after the first `k` calls. -/
def leftAfter (cs : List Char) : Nat → List Char
  | 0 => cs
  | k + 1 => (nextToken (leftAfter cs k)).2

/-- What the call after the first `k` calls gives: a token, the end (`none`) or an error. -/
def answer (cs : List Char) (k : Nat) : Except LexError (Option Token) :=
  (nextToken (leftAfter cs k)).1

variable {cs : List Char}

theorem leftAfter_eq_nil_of_end {k : Nat} (h : answer cs k = .ok none) :
    leftAfter cs (k + 1) = [] :=
  (nextToken_eq_end_iff.1 h).2

/-- Once the text has ended, calls change nothing. -/
theorem leftAfter_eq_nil_of_le {k j : Nat} (h : leftAfter cs k = []) (hj : k ≤ j) :
    leftAfter cs j = [] := by
  induction j, hj using Nat.le_induction with
  | base => exact h
  | succ j _ ih =>
    rw [leftAfter, ih, nextToken_nil]

theorem answer_of_leftAfter_eq_nil {k : Nat} (h : leftAfter cs k = []) :
    answer cs k = .ok none := by
  rw [answer, h, nextToken_nil]

theorem answer_eq_end_of_le {k j : Nat} (h : answer cs k = .ok none) (hj : k ≤ j) :
    answer cs j = .ok none := by
  obtain rfl | hlt := Nat.eq_or_lt_of_le hj
  · exact h
  · exact answer_of_leftAfter_eq_nil (leftAfter_eq_nil_of_le (leftAfter_eq_nil_of_end h) hlt)

/-- Each call that gives a token or an error takes a character from those that are left. -/
theorem countP_add_length_le (cs : List Char) (n : Nat) :
    (List.range n).countP (answer cs · ≠ .ok none) + (leftAfter cs n).length ≤ cs.length := by
  induction n with
  | zero => exact Nat.le_of_eq (Nat.zero_add _)
  | succ n ih =>
    rw [List.range_succ, List.countP_append, List.countP_singleton]
    by_cases h : answer cs n = .ok none
    · rw [if_neg (by simpa using h), leftAfter_eq_nil_of_end h]
      exact Nat.le_trans (Nat.le_add_right _ _) ih
    · have hlt : (leftAfter cs (n + 1)).length < (leftAfter cs n).length :=
        nextToken_length_lt rfl h
      rw [if_pos (by simpa using h)]
      omega

/-- One reader is called again and again on a text, also after errors. A call that gives a token or
an error has read at least one character of what was left. A call says that the text has ended only
if nothing but trivia was left; then nothing is left, and every later call says it again. So of any
number of calls at most as many as the text has characters give anything else. -/
theorem answers_progress (input : String) :
    (∀ k, answer input.toList k ≠ .ok none → ∃ read, read ≠ [] ∧
      leftAfter input.toList k = read ++ leftAfter input.toList (k + 1)) ∧
    (∀ k, answer input.toList k = .ok none → IsTriviaToEnd (leftAfter input.toList k) ∧
      leftAfter input.toList (k + 1) = [] ∧ ∀ j, k ≤ j → answer input.toList j = .ok none) ∧
    ∀ n, (List.range n).countP (answer input.toList · ≠ .ok none) ≤ input.length := by
  refine ⟨fun k hk => exists_read_of_ne_end hk, fun k hk => ?_, fun n => ?_⟩
  · exact ⟨(nextToken_eq_end_iff.1 hk).1, leftAfter_eq_nil_of_end hk,
      fun j hj => answer_eq_end_of_le hk hj⟩
  · exact Nat.le_trans (Nat.le_add_right _ _) (countP_add_length_le input.toList n)

/-- An error in the middle of a text, and a literal that is not closed. -/
example : (List.range 4).map (answer "?a 'b".toList) =
    [.error (.unexpectedChar '?'), .ok (some (.ident "a")), .error .unterminatedString,
      .ok none] := by
  decide +kernel

end EntityForge.Dbml
