import EntityForge.Dbml.Fence
import EntityForge.Dbml.Parser.Document
import EntityForge.Proofs.Dbml.JoinedText
import EntityForge.Proofs.Text.Search

/-!
# Fenced documents are read as they are

Blanks around a text change neither its tokens nor the error that stops them: a blank at the end
closes no text, expression or comment that is open there (`nextToken_concat_blank`), so a trimmed
text is read like the text itself (`parse_trim`). A fenced document is cut where its fences are,
since the closing one is the first after the opening one (`fencedBody?_eq`). Together, fences around
a document are transparent to the parser (`parse_unfence`).
-/

namespace EntityForge.Dbml

theorem afterLine_concat {cs : List Char} (h : '\n' ∉ cs) (b : Char) :
    afterLine (cs ++ [b]) = [] := by
  induction cs with
  | nil =>
    rw [List.nil_append, afterLine]
    split <;> rfl
  | cons c cs ih =>
    rw [List.mem_cons, not_or] at h
    simp [afterLine, Ne.symm h.1, ih h.2]

theorem closed_error {make : String → Token} {e e' : LexError} {rest : List Char}
    {read read' : Option (List Char × List Char)} (hread : read = none → read' = none)
    (h : closed make e read = (.error e', rest)) : (closed make e read').1 = .error e' := by
  cases read with
  | none =>
    rw [hread rfl]
    exact congrArg Prod.fst h
  | some p => cases h

theorem tokenizeAfter_error {cs : List Char} {e : LexError} (h : (nextToken cs).1 = .error e)
    (read : List Token) : tokenizeAfter read cs = .error e := by
  have hnext : nextToken cs = (.error e, (nextToken cs).2) := Prod.ext h rfl
  rw [tokenizeAfter.eq_def, hnext]

section
variable {b : Char} (hb : Unicode.isBlank b = true)
include hb

/-! ## Texts that are not closed -/

theorem afterComment_concat_blank {cs : List Char} (h : afterComment cs = none) :
    afterComment (cs ++ [b]) = none := by
  fun_induction afterComment cs with
  | case1 => simp [afterComment]
  | case2 => cases h
  | case3 c cs hc ih =>
    rw [List.cons_append, afterComment]
    · exact ih h
    · rintro rest rfl heq
      obtain ⟨cs', rfl, -⟩ := cons_of_append_cons (Unicode.ne_of_class hb (by decide)) heq
      exact hc cs' rfl rfl

theorem readQuoted_concat_blank {q : Char} (hq : Unicode.isBlank q = false) {cs : List Char}
    (h : readQuoted q cs = none) : readQuoted q (cs ++ [b]) = none := by
  fun_induction readQuoted q cs with
  | case1 => simp [readQuoted, Unicode.ne_of_class hb hq]
  | case2 c cs ih =>
    rw [List.cons_append, List.cons_append, readQuoted, ih (Option.map_eq_none_iff.1 h)]
    rfl
  | case3 => cases h
  | case4 c cs hesc hc ih =>
    by_cases hend : c = '\\' ∧ cs = []
    · -- the backslash at the end escapes the blank
      obtain ⟨rfl, rfl⟩ := hend
      rfl
    · rw [List.cons_append, readQuoted]
      · rw [if_neg hc, ih (by simpa [hc] using h)]
        rfl
      · rintro d rest rfl heq
        cases cs with
        | nil => exact hend ⟨rfl, rfl⟩
        | cons e cs => exact hesc e cs rfl rfl

theorem readTripleQuoted_concat_blank {cs : List Char} (h : readTripleQuoted cs = none) :
    readTripleQuoted (cs ++ [b]) = none := by
  fun_induction readTripleQuoted cs with
  | case1 => simp [readTripleQuoted]
  | case2 => cases h
  | case3 c cs hc ih =>
    rw [List.cons_append, readTripleQuoted, ih (Option.map_eq_none_iff.1 h)]
    · rfl
    · rintro rest rfl heq
      obtain ⟨cs', rfl, heq'⟩ := cons_of_append_cons (Unicode.ne_of_class hb (by decide)) heq
      obtain ⟨cs'', rfl, -⟩ := cons_of_append_cons (Unicode.ne_of_class hb (by decide)) heq'
      exact hc cs'' rfl rfl

theorem readExpr_concat_blank {cs : List Char} (h : readExpr cs = none) :
    readExpr (cs ++ [b]) = none := by
  fun_induction readExpr cs with
  | case1 => simp [readExpr, Unicode.ne_of_class hb (d := '\x60') (by decide)]
  | case2 => cases h
  | case3 c cs hc ih => simp [readExpr, hc, ih (Option.map_eq_none_iff.1 h)]

/-! ## Blanks at the end -/

theorem skipTrivia_concat_blank (cs : List Char) :
    skipTrivia (cs ++ [b]) =
      (skipTrivia cs).map fun rest => if rest = [] then [] else rest ++ [b] := by
  fun_induction skipTrivia cs with
  | case1 cs ih =>
    rw [List.cons_append, List.cons_append, skipTrivia]
    by_cases hn : '\n' ∈ cs
    · rw [afterLine_append_of_mem hn, ih]
    · rw [afterLine_concat hn, (afterLine_of_not_mem hn []).1, skipTrivia]
      rfl
  | case2 cs r hr ih =>
    rw [List.cons_append, List.cons_append, skipTrivia, afterComment_append hr]
    exact ih
  | case3 cs hr =>
    rw [List.cons_append, List.cons_append, skipTrivia, afterComment_concat_blank hb hr]
    rfl
  | case4 c cs _ _ hc ih => rw [List.cons_append, skipTrivia_blank hc, ih]
  | case5 c cs hline hblock hc =>
    rw [List.cons_append, skipTrivia, if_neg hc]
    · rfl
    · rintro rest rfl heq
      obtain ⟨cs', rfl, -⟩ := cons_of_append_cons (Unicode.ne_of_class hb (by decide)) heq
      exact hline cs' rfl rfl
    · rintro rest rfl heq
      obtain ⟨cs', rfl, -⟩ := cons_of_append_cons (Unicode.ne_of_class hb (by decide)) heq
      exact hblock cs' rfl rfl
  | case6 =>
    rw [List.nil_append, skipTrivia_blank hb, skipTrivia]
    rfl

/-- No token starts there, for the same reason, when a blank follows. -/
theorem tokenAt_concat_blank {c : Char} {cs rest : List Char} {e : LexError}
    (h : tokenAt c cs = (.error e, rest)) : (tokenAt c (cs ++ [b])).1 = .error e := by
  cases tokenAt_eq_iff.1 h with
  | tripleQuoted hc hrest hread =>
    subst hrest
    rw [List.cons_append, List.cons_append, tokenAt_eq_iff.2 (.tripleQuoted hc rfl rfl)]
    exact closed_error (readTripleQuoted_concat_blank hb) hread
  | quoted hc hread =>
    have hquote : Unicode.isBlank c = false := by rcases hc with rfl | ⟨rfl, -⟩ <;> decide
    rw [tokenAt_eq_iff.2 (.quoted (hc.imp_right fun ⟨hc, hrest⟩ => ⟨hc, fun r heq => ?_⟩) rfl)]
    · exact closed_error (readQuoted_concat_blank hb hquote) hread
    · obtain ⟨cs', rfl, heq'⟩ := cons_of_append_cons (Unicode.ne_of_class hb (by decide)) heq
      obtain ⟨cs'', rfl, -⟩ := cons_of_append_cons (Unicode.ne_of_class hb (by decide)) heq'
      exact hrest cs'' rfl
  | expr hc hread =>
    rw [tokenAt_eq_iff.2 (.expr hc rfl)]
    exact closed_error (readExpr_concat_blank hb) hread
  | unexpected hmark hopen hdigit hname =>
    rw [tokenAt_eq_iff.2 (.unexpected hmark hopen hdigit hname)]

theorem nextToken_concat_blank_token {cs rest : List Char} {t : Token}
    (h : nextToken cs = (.ok (some t), rest)) :
    nextToken (cs ++ [b]) = (.ok (some t), rest ++ [b]) := by
  unfold nextToken at h
  split at h
  · cases h
  · cases h
  · rename_i c r hs
    rw [nextToken, skipTrivia_concat_blank hb, hs]
    exact tokenAt_append hb h []

theorem nextToken_concat_blank_end {cs rest : List Char} (h : nextToken cs = (.ok none, rest)) :
    nextToken (cs ++ [b]) = (.ok none, []) := by
  unfold nextToken at h
  split at h
  · cases h
  · rename_i hs
    rw [nextToken, skipTrivia_concat_blank hb, hs]
    rfl
  · rename_i c r hs
    have := tokenAt_ne_end c r
    rw [h] at this
    exact absurd rfl this

theorem nextToken_concat_blank_error {cs rest : List Char} {e : LexError}
    (h : nextToken cs = (.error e, rest)) : (nextToken (cs ++ [b])).1 = .error e := by
  unfold nextToken at h
  split at h
  · rename_i hs
    rw [nextToken, skipTrivia_concat_blank hb, hs]
    exact congrArg Prod.fst h
  · cases h
  · rename_i c r hs
    rw [nextToken, skipTrivia_concat_blank hb, hs]
    exact tokenAt_concat_blank hb h

/-- A blank at the end changes no token and no error. -/
theorem tokenizeAfter_concat_blank (read : List Token) (cs : List Char) :
    tokenizeAfter read (cs ++ [b]) = tokenizeAfter read cs := by
  fun_induction tokenizeAfter read cs with
  | case1 read cs e rest hn => exact tokenizeAfter_error (nextToken_concat_blank_error hb hn) read
  | case2 read cs rest hn => rw [tokenizeAfter.eq_def, nextToken_concat_blank_end hb hn]
  | case3 read cs t rest hn ih =>
    rw [tokenizeAfter_token (nextToken_concat_blank_token hb hn), ih]

end

/-! ## Trimmed texts -/

theorem tokenizeAfter_trimStart (read : List Token) (cs : List Char) :
    tokenizeAfter read (Unicode.trimStart cs) = tokenizeAfter read cs := by
  refine tokenizeAfter_congr ?_ read
  induction cs with
  | nil => rfl
  | cons c cs ih =>
    rw [Unicode.trimStart, List.dropWhile_cons]
    split
    · rename_i hc
      rw [nextToken_blank hc]
      exact ih
    · rfl

theorem tokenizeAfter_trimEnd (read : List Token) (cs : List Char) :
    tokenizeAfter read (Unicode.trimEnd cs) = tokenizeAfter read cs := by
  induction cs using List.reverseRecOn with
  | nil => rfl
  | append_singleton cs b ih =>
    rw [Unicode.trimEnd, List.reverse_append, List.reverse_singleton, List.singleton_append,
      List.dropWhile_cons]
    split
    · rename_i hb
      rw [tokenizeAfter_concat_blank hb]
      exact ih
    · simp

theorem tokenize_trim (s : String) :
    tokenize (String.ofList (Unicode.trim s.toList)) = tokenize s := by
  rw [tokenize, tokenize, String.toList_ofList, Unicode.trim, tokenizeAfter_trimEnd,
    tokenizeAfter_trimStart]

/-- A document without the blanks around it is the same document, or is refused for the same
reason. -/
theorem parse_trim (s : String) : parse (String.ofList (Unicode.trim s.toList)) = parse s := by
  rw [parse, parse, tokenize_trim]

/-! ## Fences -/

theorem trim_isInfix (cs : List Char) : Unicode.trim cs <:+: cs := by
  have hstart : Unicode.trimStart cs <:+ cs := List.dropWhile_suffix _
  have hend : Unicode.trimEnd (Unicode.trimStart cs) <+: Unicode.trimStart cs := by
    rw [← List.reverse_suffix, Unicode.trimEnd, List.reverse_reverse]
    exact List.dropWhile_suffix _
  exact hend.isInfix.trans hstart.isInfix

theorem fenceStart_eq : fenceStart = fenceEnd ++ ['d', 'b', 'm'] ++ ['l'] := by
  decide

theorem fenceEnd_eq : fenceEnd = ['\x60', '\x60', '\x60'] := by
  decide

theorem getLast?_of_suffix {α : Type} (before : List α) {xs after : List α} {x : α}
    (h : before ++ [x] ++ after <:+ xs ++ after) : xs.getLast? = some x := by
  obtain ⟨first, hfirst⟩ := h
  rw [← List.append_assoc, ← List.append_assoc] at hfirst
  rw [← List.append_cancel_right hfirst, List.getLast?_concat]

/-- A document that does not end in a backtick has no part in a fence. -/
theorem fenceEnd_not_isInfix {body : List Char} (hbody : ¬ fenceEnd <:+: body)
    (hlast : body.getLast? ≠ some '\x60') : ¬ fenceEnd <:+: body ++ fenceEnd.dropLast := by
  have hdrop : body ++ fenceEnd.dropLast = body ++ ['\x60'] ++ ['\x60'] := by
    rw [fenceEnd_eq, List.append_assoc]
    rfl
  rw [hdrop, List.infix_concat_iff, List.infix_concat_iff, fenceEnd_eq, not_or, not_or]
  refine ⟨fun h => hlast ?_, fun h => hlast ?_, fenceEnd_eq ▸ hbody⟩
  · rw [List.append_assoc] at h
    exact getLast?_of_suffix [] h
  · exact getLast?_of_suffix ['\x60'] h

/-- Between its fences, a document is found without the blanks around it. -/
theorem fencedBody?_eq {pre body : List Char} (hpre : ¬ fenceStart <:+: pre)
    (hbody : ¬ fenceEnd <:+: body) (hlast : body.getLast? ≠ some '\x60') (post : List Char) :
    fencedBody? (pre ++ fenceStart ++ (body ++ fenceEnd ++ post)) = some (Unicode.trim body) := by
  have hstart : Text.cutAtFirst fenceStart (pre ++ fenceStart ++ (body ++ fenceEnd ++ post)) =
      some (pre, body ++ fenceEnd ++ post) := by
    refine (Text.cutAtFirst_eq_some_iff (by decide)).2 ⟨rfl, ?_⟩
    rw [fenceStart_eq] at hpre ⊢
    rw [List.dropLast_concat]
    exact Text.not_infix_append (by decide) hpre
  have hend : Text.cutAtFirst fenceEnd (body ++ fenceEnd ++ post) = some (body, post) :=
    (Text.cutAtFirst_eq_some_iff (by decide)).2 ⟨rfl, fenceEnd_not_isInfix hbody hlast⟩
  rw [fencedBody?, hstart]
  simp only [Option.bind_eq_bind, Option.bind_some, hend]

/-- A fenced document holds no fence. -/
theorem not_infix_of_fencedBody? {cs body : List Char} (h : fencedBody? cs = some body) :
    ¬ fenceEnd <:+: body := by
  simp only [fencedBody?, Option.bind_eq_bind, Option.bind_eq_some_iff, Prod.exists] at h
  obtain ⟨_, rest, -, inside, _, hend, h⟩ := h
  obtain rfl := Option.some.inj h
  have hfirst := ((Text.cutAtFirst_eq_some_iff (by decide)).1 hend).2
  intro hin
  exact hfirst ((hin.trans (trim_isInfix inside)).trans (List.prefix_append _ _).isInfix)

theorem fencedBody?_eq_none {cs : List Char} (h : ¬ fenceEnd <:+: cs) :
    fencedBody? cs = none := by
  have hstart : ¬ fenceStart <:+: cs := fun hin => h <| by
    rw [fenceStart_eq, List.append_assoc] at hin
    exact (List.prefix_append _ _).isInfix.trans hin
  rw [fencedBody?, Text.cutAtFirst_eq_none_iff.2 hstart]
  rfl

theorem unfence_of_fencedBody? {raw : String} {body : List Char}
    (h : fencedBody? raw.toList = some body) : unfence raw = String.ofList body := by
  rw [unfence, h]

theorem unfence_of_none {raw : String} (h : fencedBody? raw.toList = none) : unfence raw = raw := by
  rw [unfence, h]

/-- Text around a fenced document does not matter to the parser, and neither do the fences: the
document is read as it is by itself, or refused for the same reason. A text that was taken out of
its fences stays as it is. -/
theorem parse_unfence : (∀ pre body post : String, ¬ fenceStart <:+: pre.toList →
      ¬ fenceEnd <:+: body.toList → body.toList.getLast? ≠ some '\x60' →
      parse (unfence (pre ++ "\x60\x60\x60dbml" ++ body ++ "\x60\x60\x60" ++ post)) =
        parse body) ∧
    ∀ raw, unfence (unfence raw) = unfence raw := by
  constructor
  · intro pre body post hpre hbody hlast
    have hfound := fencedBody?_eq hpre hbody hlast post.toList
    have hraw : (pre ++ "\x60\x60\x60dbml" ++ body ++ "\x60\x60\x60" ++ post).toList =
        pre.toList ++ fenceStart ++ (body.toList ++ fenceEnd ++ post.toList) := by
      simp only [String.toList_append, List.append_assoc]
      rfl
    rw [unfence_of_fencedBody? (hraw ▸ hfound), parse_trim]
  · intro raw
    cases h : fencedBody? raw.toList with
    | none => rw [unfence_of_none h, unfence_of_none h]
    | some body =>
      rw [unfence_of_fencedBody? h]
      refine unfence_of_none (fencedBody?_eq_none ?_)
      rw [String.toList_ofList]
      exact not_infix_of_fencedBody? h

/-- Backticks before the first fence and after the last one; the document ends in an open text,
where a backslash escapes the blank that is trimmed. -/
theorem parse_unfence_open :
    ¬ fenceStart <:+: "see \x60\x60".toList ∧
      parse (unfence ("see \x60\x60" ++ "\x60\x60\x60dbml" ++ "\nTable t \x7b k 'a\\ \n" ++
        "\x60\x60\x60" ++ "\x60dbml")) = parse "\nTable t \x7b k 'a\\ \n" ∧
      parse "\nTable t \x7b k 'a\\ \n" = .error (.lex .unterminatedString) := by
  have hpre : ¬ fenceStart <:+: "see \x60\x60".toList := by decide
  refine ⟨hpre, parse_unfence.1 _ _ _ hpre (by decide) (by decide), ?_⟩
  decide +kernel

end EntityForge.Dbml
