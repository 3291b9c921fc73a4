import EntityForge.Proofs.Dbml.JoinedText
import Mathlib.Data.List.Infix

/-!
# Spellings of tokens

The same tokens have many texts. `IsTrivia` is what may stand between two tokens: blanks, line
comments and block comments. `Token.IsSpelling` is a text of one token: strings have three forms, in
double, single or triple single quotes, and every other token has its canonical text only.
`IsSpelling` is a text of a list of tokens, with trivia around them and some between any two.

Main statement: `tokenize_of_isSpelling`, every spelling of a list of tokens is read as that list.
-/

namespace EntityForge.Dbml

/-! ## Spellings -/

/-- The text is a sequence of blanks, line comments with the newline that ends them, and block
comments that end at their first closing mark. -/
inductive IsTrivia : List Char → Prop where
  | nil : IsTrivia []
  | blank {c : Char} {rest : List Char} (hc : Unicode.isBlank c = true) (h : IsTrivia rest) :
      IsTrivia (c :: rest)
  | line {body rest : List Char} (hbody : '\n' ∉ body) (h : IsTrivia rest) :
      IsTrivia ('/' :: '/' :: (body ++ '\n' :: rest))
  | block {body rest : List Char} (hbody : ¬ ['*', '/'] <:+: body) (h : IsTrivia rest) :
      IsTrivia ('/' :: '*' :: (body ++ '*' :: '/' :: rest))

/-- Three single quotes in a row. -/
def tripleQuote : List Char := ['\'', '\'', '\'']

/-- The text is one that stands for the token. -/
def Token.IsSpelling : Token → List Char → Prop
  | .str s, cs =>
    (∃ q, (q = '"' ∨ q = '\'') ∧ cs = q :: (escapeIn q s.toList ++ [q])) ∨
      (¬ tripleQuote <:+: s.toList ∧ s.toList.getLast? ≠ some '\'' ∧
        cs = tripleQuote ++ (s.toList ++ tripleQuote))
  | t, cs => t.isWritable = true ∧ cs = t.written

/-- The text is one that may follow a token: the given tokens, some trivia before each of them, and
trivia at the end. -/
inductive FollowSpelling : List Token → List Char → Prop where
  | nil {gap : List Char} (hgap : IsTrivia gap) : FollowSpelling [] gap
  | cons {t : Token} {ts : List Token} {gap w rest : List Char} (hgap : IsTrivia gap)
      (hne : gap ≠ []) (ht : t.IsSpelling w) (h : FollowSpelling ts rest) :
      FollowSpelling (t :: ts) (gap ++ (w ++ rest))

/-- The text spells the tokens: trivia before, after and between them, and some between any two. -/
def IsSpelling : List Token → List Char → Prop
  | [], cs => IsTrivia cs
  | t :: ts, cs => ∃ gap w rest, IsTrivia gap ∧ t.IsSpelling w ∧ FollowSpelling ts rest ∧
      cs = gap ++ (w ++ rest)

/-! ## Trivia -/

theorem afterComment_block {body : List Char} (h : ¬ ['*', '/'] <:+: body) (rest : List Char) :
    afterComment (body ++ '*' :: '/' :: rest) = some rest := by
  induction body with
  | nil => rfl
  | cons c body ih =>
    rw [List.cons_append, afterComment]
    · exact ih fun hin => h (hin.trans (List.suffix_cons c body).isInfix)
    · rintro r rfl heq
      -- the mark would lie in the body, or across its end, where a star stands
      cases body with
      | nil => cases heq
      | cons d body =>
        obtain ⟨rfl, -⟩ := List.cons.inj heq
        exact h (List.prefix_append ['*', '/'] body).isInfix

/-- Trivia are skipped, whatever follows. -/
theorem IsTrivia.skipTrivia_append {gap : List Char} (h : IsTrivia gap) (rest : List Char) :
    skipTrivia (gap ++ rest) = skipTrivia rest := by
  induction h with
  | nil => rfl
  | blank hc _ ih => rw [List.cons_append, skipTrivia_blank hc, ih]
  | @line body gap hbody _ ih =>
    have hafter := (afterLine_of_not_mem hbody (gap ++ rest)).2
    simp only [List.cons_append, List.append_assoc]
    rw [skipTrivia, hafter, ih]
  | @block body gap hbody _ ih =>
    have hafter := afterComment_block hbody (gap ++ rest)
    simp only [List.cons_append, List.append_assoc]
    rw [skipTrivia, hafter]
    exact ih

theorem IsTrivia.nextToken_append {gap : List Char} (h : IsTrivia gap) (rest : List Char) :
    nextToken (gap ++ rest) = nextToken rest := by
  rw [nextToken, nextToken, h.skipTrivia_append]

/-- Trivia start with a blank or a slash. -/
theorem IsTrivia.head {gap : List Char} (h : IsTrivia gap) :
    ∀ c ∈ gap.head?, Unicode.isBlank c = true ∨ c = '/' := by
  intro c hc
  cases h with
  | nil => cases hc
  | blank hb _ =>
    obtain rfl := Option.some.inj hc
    exact .inl hb
  | line _ _ =>
    obtain rfl := Option.some.inj hc
    exact .inr rfl
  | block _ _ =>
    obtain rfl := Option.some.inj hc
    exact .inr rfl

/-- What follows a token starts with a blank or a slash. -/
theorem FollowSpelling.head {ts : List Token} {cs : List Char} (h : FollowSpelling ts cs) :
    ∀ c ∈ cs.head?, Unicode.isBlank c = true ∨ c = '/' := by
  cases h with
  | nil hgap => exact hgap.head
  | cons hgap hne _ _ =>
    obtain ⟨c, gap, rfl⟩ := List.exists_cons_of_ne_nil hne
    exact hgap.head

/-! ## One token -/

/-- A blank or a comment prolongs no token. -/
theorem Token.stops_of_head {rest : List Char}
    (h : ∀ c ∈ rest.head?, Unicode.isBlank c = true ∨ c = '/') (t : Token) : t.Stops rest := by
  cases t with
  | ident s =>
    intro c hc
    rcases h c hc with hb | rfl
    · exact isNameChar_of_isBlank hb
    · decide +kernel
  | num s =>
    intro c hc
    rcases h c hc with hb | rfl
    · exact isNumberChar_of_isBlank hb
    · decide
  | lt =>
    intro hc
    rcases h '>' hc with hb | hb <;> exact absurd hb (by decide)
  | _ => trivial

/-- A text without three quotes in a row that ends in none is read up to the closing quotes. -/
theorem readTripleQuoted_tripleQuote {cs : List Char} (hin : ¬ tripleQuote <:+: cs)
    (hlast : cs.getLast? ≠ some '\'') (rest : List Char) :
    readTripleQuoted (cs ++ (tripleQuote ++ rest)) = some (cs, rest) := by
  induction cs with
  | nil => rfl
  | cons c cs ih =>
    have htail : ¬ tripleQuote <:+: cs :=
      fun h => hin (h.trans (List.suffix_cons c cs).isInfix)
    have hend : cs.getLast? ≠ some '\'' := by
      cases cs with
      | nil => simp
      | cons d cs => simpa using hlast
    rw [List.cons_append, readTripleQuoted, ih htail hend, Option.map_some]
    rintro r rfl heq
    -- a text of quotes alone would end in one, so a third character stops them
    rcases cs with - | ⟨d, - | ⟨e, cs⟩⟩
    · exact hlast rfl
    · obtain ⟨rfl, -⟩ := List.cons.inj heq
      exact hlast rfl
    · have hd := (List.cons.inj heq).1
      have he := (List.cons.inj (List.cons.inj heq).2).1
      subst hd he
      exact hin (List.prefix_append tripleQuote cs).isInfix

theorem nextToken_tripleQuote {cs : List Char} (hin : ¬ tripleQuote <:+: cs)
    (hlast : cs.getLast? ≠ some '\'') (rest : List Char) :
    nextToken (tripleQuote ++ (cs ++ (tripleQuote ++ rest))) =
      (.ok (some (.str (String.ofList cs))), rest) := by
  rw [tripleQuote, List.cons_append, nextToken_cons (by decide) (by decide)]
  have hread : readTripleQuoted (cs ++ '\'' :: '\'' :: '\'' :: rest) = some (cs, rest) :=
    readTripleQuoted_tripleQuote hin hlast rest
  simp [tokenAt, mark?, closed, hread]

/-- A text in single or double quotes is read, if no quote follows the closing one: after an empty
text it would open a text in triple quotes. -/
theorem nextToken_escapeIn {q : Char} (hq : q = '"' ∨ q = '\'') (cs : List Char) {rest : List Char}
    (hrest : rest.head? ≠ some '\'') :
    nextToken (q :: (escapeIn q cs ++ q :: rest)) =
      (.ok (some (.str (String.ofList cs))), rest) := by
  have hread := readQuoted_escapeIn hq cs rest
  rcases hq with rfl | rfl
  · rw [nextToken_cons (by decide) (by decide)]
    simp [tokenAt, mark?, closed, hread]
  · rw [nextToken_cons (by decide) (by decide)]
    have hopen : ∀ r, escapeIn '\'' cs ++ '\'' :: rest ≠ '\'' :: '\'' :: r := by
      intro r heq
      cases cs with
      | nil =>
        obtain ⟨-, heq⟩ := List.cons.inj heq
        exact hrest (heq ▸ rfl)
      | cons c cs =>
        unfold escapeIn at heq
        split at heq
        · exact absurd (List.cons.inj heq).1 (by decide)
        · rename_i hc
          exact hc (.inl (List.cons.inj heq).1)
    -- `hopen` rules out the row of the triple quotes
    simp [tokenAt, mark?, closed, hread]

/-- A spelling of a token is read as the token, if trivia or nothing follow. -/
theorem Token.IsSpelling.nextToken_append {t : Token} {w : List Char} (h : t.IsSpelling w)
    {rest : List Char} (hrest : ∀ c ∈ rest.head?, Unicode.isBlank c = true ∨ c = '/') :
    nextToken (w ++ rest) = (.ok (some t), rest) := by
  cases t with
  | str s =>
    rcases h with ⟨q, hq, rfl⟩ | ⟨hin, hlast, rfl⟩
    · have hquote : rest.head? ≠ some '\'' := by
        intro hc
        rcases hrest _ hc with hb | hb <;> exact absurd hb (by decide)
      simpa using nextToken_escapeIn hq s.toList hquote
    · simpa using nextToken_tripleQuote hin hlast rest
  | _ =>
    obtain ⟨hw, rfl⟩ := h
    exact nextToken_written hw (Token.stops_of_head hrest _)

/-! ## Lists of tokens -/

theorem FollowSpelling.tokenizeAfter_eq {ts : List Token} {cs : List Char}
    (h : FollowSpelling ts cs) (read : List Token) :
    tokenizeAfter read cs = .ok (read.reverse ++ ts) := by
  induction h generalizing read with
  | @nil gap hgap =>
    have hskip : nextToken gap = nextToken [] := by simpa using hgap.nextToken_append []
    rw [tokenizeAfter_congr hskip, tokenizeAfter_nil, List.append_nil]
  | @cons t ts gap w rest hgap _ ht hrest ih =>
    have hnext : nextToken (gap ++ (w ++ rest)) = (.ok (some t), rest) :=
      (hgap.nextToken_append _).trans (ht.nextToken_append hrest.head)
    rw [tokenizeAfter_token hnext, ih]
    simp

/-- Every spelling of a list of tokens is read as that list. -/
theorem tokenize_of_isSpelling {ts : List Token} {input : String}
    (h : IsSpelling ts input.toList) : tokenize input = .ok ts := by
  rw [tokenize]
  cases ts with
  | nil => exact (FollowSpelling.nil h).tokenizeAfter_eq []
  | cons t ts =>
    obtain ⟨gap, w, rest, hgap, ht, hrest, heq⟩ := h
    have hnext : nextToken input.toList = (.ok (some t), rest) := by
      rw [heq]
      exact (hgap.nextToken_append _).trans (ht.nextToken_append hrest.head)
    rw [tokenizeAfter_token hnext, hrest.tokenizeAfter_eq]
    rfl

/-- Comments of both kinds and all forms of strings, with an empty text before a comment. -/
theorem tokenize_of_isSpelling_forms :
    IsSpelling [.ident "a", .str "it's", .str "", .str "b'c", .ltGt, .lt, .num "1.5"]
      "/*x**/a// y\n'it\\'s' ''/**/'''b'c'''\t<> < 1.5 ".toList ∧
    tokenize "/*x**/a// y\n'it\\'s' ''/**/'''b'c'''\t<> < 1.5 " =
      .ok [.ident "a", .str "it's", .str "", .str "b'c", .ltGt, .lt, .num "1.5"] := by
  have hspace : IsTrivia " ".toList := .blank (by decide) .nil
  have hline : IsTrivia "// y\n".toList := @IsTrivia.line " y".toList [] (by decide) .nil
  have htab : IsTrivia "\t".toList := .blank (by decide) .nil
  have hstar : IsTrivia "/*x**/".toList := @IsTrivia.block "x*".toList [] (by decide) .nil
  have hblock : IsTrivia "/**/".toList := @IsTrivia.block [] [] (by decide) .nil
  have hescaped : (Token.str "it's").IsSpelling "'it\\'s'".toList :=
    Or.inl ⟨'\'', .inr rfl, rfl⟩
  have hempty : (Token.str "").IsSpelling "''".toList := Or.inl ⟨'\'', .inr rfl, rfl⟩
  have htriple : (Token.str "b'c").IsSpelling "'''b'c'''".toList :=
    Or.inr ⟨by decide, by decide, rfl⟩
  have h : IsSpelling [.ident "a", .str "it's", .str "", .str "b'c", .ltGt, .lt, .num "1.5"]
      "/*x**/a// y\n'it\\'s' ''/**/'''b'c'''\t<> < 1.5 ".toList := by
    refine ⟨"/*x**/".toList, "a".toList, _, hstar, ⟨by decide +kernel, rfl⟩, ?_, rfl⟩
    refine .cons hline (by decide) hescaped ?_
    refine .cons hspace (by decide) hempty ?_
    refine .cons hblock (by decide) htriple ?_
    refine .cons (t := .ltGt) htab (by decide) ⟨rfl, rfl⟩ ?_
    refine .cons (t := .lt) hspace (by decide) ⟨rfl, rfl⟩ ?_
    exact .cons (t := .num "1.5") hspace (by decide) ⟨by decide, rfl⟩ (.nil hspace)
  exact ⟨h, tokenize_of_isSpelling h⟩

end EntityForge.Dbml
