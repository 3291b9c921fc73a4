import EntityForge.Proofs.Dbml.Written

/-!
# Tokens of joined texts

A text that has tokens may be followed by a newline and any other text: its tokens stay what they
are and those of the other text come after them (`tokenize_append`). The newline ends a name, a
number or a line comment that the first text ends with, and nothing else can be open there.
-/

namespace EntityForge.Dbml

/-! ## Blanks and comments -/

theorem afterLine_append_of_mem {cs : List Char} (h : '\n' ∈ cs) (more : List Char) :
    afterLine (cs ++ more) = afterLine cs ++ more := by
  induction cs with
  | nil => cases h
  | cons c cs ih =>
    by_cases hc : c = '\n'
    · simp [afterLine, hc]
    · have : '\n' ∈ cs := by simpa [Ne.symm hc] using h
      simp [afterLine, hc, ih this]

theorem afterLine_of_not_mem {cs : List Char} (h : '\n' ∉ cs) (more : List Char) :
    afterLine cs = [] ∧ afterLine (cs ++ '\n' :: more) = more := by
  induction cs with
  | nil => simp [afterLine]
  | cons c cs ih =>
    rw [List.mem_cons, not_or] at h
    simp [afterLine, Ne.symm h.1, ih h.2]

theorem afterComment_append {cs rest : List Char} (h : afterComment cs = some rest)
    (more : List Char) : afterComment (cs ++ more) = some (rest ++ more) := by
  fun_induction afterComment cs with
  | case1 => cases h
  | case2 => cases h; rfl
  | case3 c cs hc ih =>
    rw [List.cons_append, afterComment]
    · exact ih h
    · rintro rest' rfl heq
      -- a closing mark may not lie across the end, since the comment is closed before it
      cases cs with
      | nil => cases h
      | cons d cs =>
        obtain ⟨rfl, -⟩ := List.cons.inj heq
        exact hc cs rfl rfl

/-- What trivia leave of a text they leave of the longer text too. -/
theorem skipTrivia_append {cs rest : List Char} (h : skipTrivia cs = some rest)
    (more : List Char) : skipTrivia (cs ++ '\n' :: more) = skipTrivia (rest ++ '\n' :: more) := by
  have hblank : skipTrivia ('\n' :: more) = skipTrivia more := skipTrivia_blank (by decide) more
  fun_induction skipTrivia cs with
  | case1 cs ih =>
    rw [List.cons_append, List.cons_append, skipTrivia]
    by_cases hn : '\n' ∈ cs
    · rw [afterLine_append_of_mem hn, ih h]
    · obtain ⟨h1, h2⟩ := afterLine_of_not_mem hn more
      rw [h1, skipTrivia] at h
      cases h
      rw [h2, List.nil_append, hblank]
  | case2 cs r hr ih =>
    rw [List.cons_append, List.cons_append, skipTrivia, afterComment_append hr]
    exact ih h
  | case3 => cases h
  | case4 c cs _ _ hb ih =>
    rw [List.cons_append, skipTrivia_blank hb]
    exact ih h
  | case5 => cases h; rfl
  | case6 => cases h; rfl

theorem skipTrivia_head {cs rest : List Char} {c : Char} (h : skipTrivia cs = some (c :: rest)) :
    Unicode.isBlank c = false := by
  fun_induction skipTrivia cs with
  | case1 _ ih => exact ih h
  | case2 _ _ _ ih => exact ih h
  | case3 => cases h
  | case4 _ _ _ _ _ ih => exact ih h
  | case5 _ _ _ _ hb =>
    cases h
    simpa using hb
  | case6 => cases h

/-! ## Texts -/

theorem readQuoted_append {quote : Char} (hq : quote ≠ '\\') {cs text rest : List Char}
    (h : readQuoted quote cs = some (text, rest)) (more : List Char) :
    readQuoted quote (cs ++ more) = some (text, rest ++ more) := by
  fun_induction readQuoted quote cs generalizing text with
  | case1 => cases h
  | case2 c cs ih =>
    obtain ⟨⟨t, r⟩, h1, h2⟩ := Option.map_eq_some_iff.1 h
    obtain ⟨rfl, rfl⟩ := Prod.mk.inj h2
    rw [List.cons_append, List.cons_append, readQuoted, ih h1]
    rfl
  | case3 cs hc =>
    cases h
    rw [List.cons_append, readQuoted]
    · simp
    · intro d rest' heq
      exact absurd heq hq
  | case4 c cs hesc hc ih =>
    obtain ⟨⟨t, r⟩, h1, h2⟩ := Option.map_eq_some_iff.1 h
    obtain ⟨rfl, rfl⟩ := Prod.mk.inj h2
    rw [List.cons_append, readQuoted]
    · simp [hc, ih h1]
    · rintro d rest' rfl heq
      cases cs with
      | nil => cases h1
      | cons e cs =>
        obtain ⟨rfl, -⟩ := List.cons.inj heq
        exact hesc _ _ rfl rfl

theorem readTripleQuoted_append {cs text rest : List Char}
    (h : readTripleQuoted cs = some (text, rest)) (more : List Char) :
    readTripleQuoted (cs ++ more) = some (text, rest ++ more) := by
  fun_induction readTripleQuoted cs generalizing text with
  | case1 => cases h
  | case2 => cases h; rfl
  | case3 c cs hc ih =>
    obtain ⟨⟨t, r⟩, h1, h2⟩ := Option.map_eq_some_iff.1 h
    obtain ⟨rfl, rfl⟩ := Prod.mk.inj h2
    rw [List.cons_append, readTripleQuoted]
    · simp [ih h1]
    · rintro rest' rfl heq
      match cs, h1, heq with
      | [], h1, _ => cases h1
      | [d], h1, _ => simp [readTripleQuoted] at h1
      | d :: e :: cs, _, heq =>
        obtain ⟨rfl, heq'⟩ := List.cons.inj heq
        obtain ⟨rfl, -⟩ := List.cons.inj heq'
        exact hc cs rfl rfl

theorem readExpr_append_right {cs text rest : List Char} (h : readExpr cs = some (text, rest))
    (more : List Char) : readExpr (cs ++ more) = some (text, rest ++ more) := by
  fun_induction readExpr cs generalizing text with
  | case1 => cases h
  | case2 => cases h; simp [readExpr]
  | case3 c cs hc ih =>
    obtain ⟨⟨t, r⟩, h1, h2⟩ := Option.map_eq_some_iff.1 h
    obtain ⟨rfl, rfl⟩ := Prod.mk.inj h2
    simp [readExpr, hc, ih h1]

theorem takeWhile_append_of_neg {p : Char → Bool} {c : Char} (hc : p c = false)
    (cs more : List Char) : (cs ++ c :: more).takeWhile p = cs.takeWhile p := by
  induction cs with
  | nil => simp [hc]
  | cons d cs ih => simp [List.takeWhile_cons, ih]

theorem dropWhile_append_of_neg {p : Char → Bool} {c : Char} (hc : p c = false)
    (cs more : List Char) : (cs ++ c :: more).dropWhile p = cs.dropWhile p ++ c :: more := by
  induction cs with
  | nil => simp [hc]
  | cons d cs ih =>
    simp only [List.cons_append, List.dropWhile_cons, ih]
    split <;> rfl

/-! ## One token -/

theorem closed_append {make : String → Token} {e : LexError} {t : Token} {rest : List Char}
    {reader : List Char → Option (List Char × List Char)} {cs more : List Char}
    (hreader : ∀ {text rest}, reader cs = some (text, rest) →
      reader (cs ++ more) = some (text, rest ++ more))
    (h : closed make e (reader cs) = (.ok (some t), rest)) :
    closed make e (reader (cs ++ more)) = (.ok (some t), rest ++ more) := by
  obtain ⟨text, hr, rfl⟩ := closed_eq_ok h
  rw [hreader hr]
  rfl

/-- The first character of the longer text is that of the shorter one, unless it comes after it. -/
theorem cons_of_append_cons {b c : Char} (hc : b ≠ c) {cs more rest : List Char}
    (h : cs ++ b :: more = c :: rest) : ∃ cs', cs = c :: cs' ∧ cs' ++ b :: more = rest := by
  cases cs with
  | nil => exact absurd (List.cons.inj h).1 hc
  | cons d cs =>
    obtain ⟨rfl, rfl⟩ := List.cons.inj h
    exact ⟨cs, rfl, rfl⟩

/-- A token is what it is when a blank follows its text. -/
theorem tokenAt_append {b : Char} (hblank : Unicode.isBlank b = true) {c : Char}
    {cs rest : List Char} {t : Token} (h : tokenAt c cs = (.ok (some t), rest))
    (more : List Char) : tokenAt c (cs ++ b :: more) = (.ok (some t), rest ++ b :: more) := by
  refine tokenAt_eq_iff.2 ?_
  cases tokenAt_eq_iff.1 h with
  | mark hmark => exact .mark hmark
  | ltGt hc hrest =>
    subst hrest
    exact .ltGt hc rfl
  | lt hc hrest =>
    refine .lt hc fun r heq => ?_
    -- the blank keeps a closing angle bracket in the longer text from being seen
    obtain ⟨cs', rfl, -⟩ := cons_of_append_cons (Unicode.ne_of_class hblank (by decide)) heq
    exact hrest cs' rfl
  | tripleQuoted hc hrest hread =>
    subst hrest
    exact .tripleQuoted hc rfl (closed_append (fun hr => readTripleQuoted_append hr _) hread)
  | quoted hc hread =>
    have hquote : c ≠ '\\' := by rcases hc with rfl | ⟨rfl, -⟩ <;> decide
    refine .quoted (hc.imp_right fun ⟨hc, hrest⟩ => ⟨hc, fun r heq => ?_⟩)
      (closed_append (fun hr => readQuoted_append hquote hr _) hread)
    -- and likewise the second and third quote
    obtain ⟨cs', rfl, heq'⟩ := cons_of_append_cons (Unicode.ne_of_class hblank (by decide)) heq
    obtain ⟨cs'', rfl, -⟩ := cons_of_append_cons (Unicode.ne_of_class hblank (by decide)) heq'
    exact hrest cs'' rfl
  | expr hc hread => exact .expr hc (closed_append (fun hr => readExpr_append_right hr _) hread)
  | number hdigit =>
    have hstop := isNumberChar_of_isBlank hblank
    rw [← takeWhile_append_of_neg hstop, ← dropWhile_append_of_neg hstop]
    exact .number hdigit
  | name hname =>
    have hstop := isNameChar_of_isBlank hblank
    rw [← takeWhile_append_of_neg hstop, ← dropWhile_append_of_neg hstop]
    exact .name hname

theorem tokenAt_slash (rest : List Char) :
    tokenAt '/' rest = (.error (.unexpectedChar '/'), rest) := by
  have hdigit : '/'.isDigit = false := by decide
  have hname : isNameStart '/' = false := by decide +kernel
  simp [tokenAt, mark?, hdigit, hname]

theorem nextToken_append {cs rest : List Char} {t : Token}
    (h : nextToken cs = (.ok (some t), rest)) (more : List Char) :
    nextToken (cs ++ '\n' :: more) = (.ok (some t), rest ++ '\n' :: more) := by
  unfold nextToken at h
  split at h
  · cases h
  · cases h
  · rename_i c r hs
    have hc : c ≠ '/' := by
      rintro rfl
      rw [tokenAt_slash] at h
      cases h
    rw [nextToken, skipTrivia_append hs, List.cons_append, skipTrivia_cons (skipTrivia_head hs) hc]
    exact tokenAt_append (by decide) h more

theorem closed_ne_end (make : String → Token) (e : LexError)
    (read : Option (List Char × List Char)) : (closed make e read).1 ≠ .ok none := by
  unfold closed
  split <;> simp

theorem tokenAt_ne_end (c : Char) (rest : List Char) : (tokenAt c rest).1 ≠ .ok none := by
  generalize hx : tokenAt c rest = x
  cases tokenAt_eq_iff.1 hx with
  | tripleQuoted _ _ hread => exact hread ▸ closed_ne_end _ _ _
  | quoted _ hread => exact hread ▸ closed_ne_end _ _ _
  | expr _ hread => exact hread ▸ closed_ne_end _ _ _
  | _ => simp

theorem nextToken_append_end {cs rest : List Char} (h : nextToken cs = (.ok none, rest))
    (more : List Char) : nextToken (cs ++ '\n' :: more) = nextToken more := by
  unfold nextToken at h
  split at h
  · cases h
  · rename_i hs
    rw [nextToken, nextToken, skipTrivia_append hs, List.nil_append, skipTrivia_blank (by decide)]
  · rename_i c r hs
    have := tokenAt_ne_end c r
    rw [h] at this
    exact absurd rfl this

/-! ## All tokens -/

theorem tokenizeAfter_append {read ts : List Token} {cs : List Char}
    (h : tokenizeAfter read cs = .ok ts) (more : List Char) :
    tokenizeAfter read (cs ++ '\n' :: more) = tokenizeAfter ts.reverse more := by
  fun_induction tokenizeAfter read cs with
  | case1 => cases h
  | case2 read cs rest hn =>
    cases h
    rw [List.reverse_reverse]
    exact tokenizeAfter_congr (nextToken_append_end hn more) read
  | case3 read cs t rest hn ih => rw [tokenizeAfter_token (nextToken_append hn more), ih h]

theorem tokenizeAfter_read (read before : List Token) (cs : List Char) :
    tokenizeAfter (read ++ before) cs = (tokenizeAfter read cs).map (before.reverse ++ ·) := by
  fun_induction tokenizeAfter read cs with
  | case1 read cs e rest hn =>
    rw [tokenizeAfter.eq_def, hn]
    rfl
  | case2 read cs rest hn =>
    rw [tokenizeAfter.eq_def, hn]
    simp [Except.map]
  | case3 read cs t rest hn ih =>
    rw [tokenizeAfter_token hn]
    exact ih

/-- The tokens of two texts with a newline between them are those of the one and then those of the
other. -/
theorem tokenize_append {a : String} {ts : List Token} (h : tokenize a = .ok ts) (b : String) :
    tokenize (a ++ "\n" ++ b) = (tokenize b).map (ts ++ ·) := by
  have hjoin : (a ++ "\n" ++ b).toList = a.toList ++ '\n' :: b.toList := by simp
  have hread := tokenizeAfter_read [] ts.reverse b.toList
  rw [List.nil_append, List.reverse_reverse] at hread
  rw [tokenize, hjoin, tokenizeAfter_append h, hread, tokenize]

end EntityForge.Dbml
