import EntityForge.Dbml.Lexer
import EntityForge.Proofs.Text.Pieces
import EntityForge.Proofs.Unicode.Classes

/-!
# Written tokens

`Token.written` is the canonical text of a token: names and numbers as they are, texts in double
quotes with the quote and the backslash escaped, expressions between backticks. A list of tokens is
written with a space between any two of them, except before and after some marks (`glued`).

* `tokenAt_eq_iff`: what is read at a character, one case for each kind of token (`ReadsAt`).
* `nextToken_written`: a written token is read back, whatever follows, as long as it does not
  prolong the token (`Token.Stops`).
* `tokenize_writeTokens`: a written list is read back, if its names, numbers and expressions are
  what the lexer can give at all (`Token.isWritable`).
* `tokenize_isWritable`: the lexer gives nothing else.
-/

namespace EntityForge.Dbml

/-! ## Texts of tokens -/

/-- The text with a backslash before every double quote and every backslash. -/
def escape : List Char → List Char
  | [] => []
  | c :: rest => if c = '"' ∨ c = '\\' then '\\' :: c :: escape rest else c :: escape rest

/-- The text in double quotes. -/
def quote (cs : List Char) : List Char :=
  '"' :: (escape cs ++ ['"'])

/-- The characters are a bare name. -/
def isName : List Char → Bool
  | [] => false
  | c :: rest => isNameStart c && rest.all isNameChar

/-- The characters are a number. -/
def isNumber : List Char → Bool
  | [] => false
  | c :: rest => c.isDigit && rest.all isNumberChar

namespace Token

/-- The canonical text of the token. -/
def written : Token → List Char
  | ident s => s.toList
  | str s => quote s.toList
  | num s => s.toList
  | expr s => '\x60' :: (s.toList ++ ['\x60'])
  | lbrace => ['\x7b']
  | rbrace => ['\x7d']
  | lparen => ['(']
  | rparen => [')']
  | lbracket => ['[']
  | rbracket => [']']
  | comma => [',']
  | colon => [':']
  | dot => ['.']
  | gt => ['>']
  | lt => ['<']
  | dash => ['-']
  | ltGt => ['<', '>']

/-- The token has a text: names and numbers have the form of one, and no backtick stands in an
expression. -/
def isWritable : Token → Bool
  | ident s => isName s.toList
  | num s => isNumber s.toList
  | expr s => !s.toList.contains '\x60'
  | _ => true

/-- The text that follows does not prolong the token. -/
def Stops : Token → List Char → Prop
  | ident _, rest => ∀ c ∈ rest.head?, isNameChar c = false
  | num _, rest => ∀ c ∈ rest.head?, isNumberChar c = false
  | lt, rest => rest.head? ≠ some '>'
  | _, _ => True

end Token

/-- No space stands between the two tokens. -/
def glued : Token → Token → Bool
  | .str _, .dot => true
  | .dot, .str _ => true
  | .lbracket, _ => true
  | _, .comma => true
  | _, .colon => true
  | _, .rbracket => true
  | _, _ => false

/-- The text of a list of tokens. -/
def writeTokens : List Token → List Char
  | [] => []
  | [t] => t.written
  | t :: u :: rest =>
    t.written ++ ((if glued t u then [] else [' ']) ++ writeTokens (u :: rest))

/-! ## Reading texts -/

/-- The text with a backslash before every `quote` and every backslash. -/
def escapeIn (quote : Char) : List Char → List Char
  | [] => []
  | c :: rest =>
    if c = quote ∨ c = '\\' then '\\' :: c :: escapeIn quote rest else c :: escapeIn quote rest

theorem escapeIn_eq_escape (cs : List Char) : escapeIn '"' cs = escape cs := by
  induction cs with
  | nil => rfl
  | cons c cs ih => rw [escapeIn, escape, ih]

/-- An escaped text is read back, in quotes of either kind. -/
theorem readQuoted_escapeIn {quote : Char} (hq : quote = '"' ∨ quote = '\'') (cs rest : List Char) :
    readQuoted quote (escapeIn quote cs ++ quote :: rest) = some (cs, rest) := by
  have hesc : quote ≠ '\\' := by rcases hq with rfl | rfl <;> decide
  have hplain : unescape quote = quote := by rcases hq with rfl | rfl <;> rfl
  induction cs with
  | nil => simp [escapeIn, readQuoted, hesc]
  | cons c cs ih =>
    unfold escapeIn
    split
    · rename_i hc
      rcases hc with rfl | rfl
      · simp [readQuoted, hplain, ih]
      · simp [readQuoted, unescape, ih]
    · rename_i hc
      rw [not_or] at hc
      rw [List.cons_append, readQuoted]
      · simp [hc.1, ih]
      · intro d r hd
        exact absurd hd hc.2

theorem readQuoted_escape (cs rest : List Char) :
    readQuoted '"' (escape cs ++ '"' :: rest) = some (cs, rest) := by
  rw [← escapeIn_eq_escape]
  exact readQuoted_escapeIn (.inl rfl) cs rest

theorem readExpr_append {cs : List Char} (h : '\x60' ∉ cs) (rest : List Char) :
    readExpr (cs ++ '\x60' :: rest) = some (cs, rest) := by
  induction cs with
  | nil => simp [readExpr]
  | cons c cs ih =>
    rw [List.mem_cons, not_or] at h
    simp [readExpr, Ne.symm h.1, ih h.2]

/-! ## The first character of a name or number -/

theorem isBlank_of_isNameStart {c : Char} (h : isNameStart c = true) :
    Unicode.isBlank c = false := by
  simp only [isNameStart, Bool.or_eq_true, beq_iff_eq] at h
  rcases h with (h | rfl) | rfl
  · exact Unicode.isBlank_of_isAlphabetic h
  · decide
  · decide

theorem isDigit_of_isNameStart {c : Char} (h : isNameStart c = true) : c.isDigit = false := by
  rw [Bool.eq_false_iff]
  intro hd
  simp only [isNameStart, Unicode.isAlphabetic_of_isDigit hd, Bool.false_or, Bool.or_eq_true,
    beq_iff_eq] at h
  rcases h with rfl | rfl <;> exact absurd hd (by decide)

theorem mark?_of_isNameStart {c : Char} (h : isNameStart c = true) : mark? c = none := by
  unfold mark?
  split <;> first | rfl | exact absurd h (by decide +kernel)

theorem mark?_of_isDigit {c : Char} (h : c.isDigit = true) : mark? c = none := by
  unfold mark?
  split <;> first | rfl | exact absurd h (by decide)

/-! ## The kinds of tokens -/

/-- What is read at a character before the rest of a text: one case for each kind of token. -/
inductive ReadsAt (c : Char) (rest : List Char) : Lexed → Prop where
  | mark {t : Token} (h : mark? c = some t) : ReadsAt c rest (.ok (some t), rest)
  | ltGt {r : List Char} (hc : c = '<') (hrest : rest = '>' :: r) :
      ReadsAt c rest (.ok (some .ltGt), r)
  | lt (hc : c = '<') (hrest : ∀ r, rest ≠ '>' :: r) : ReadsAt c rest (.ok (some .lt), rest)
  | tripleQuoted {r : List Char} {x : Lexed} (hc : c = '\'') (hrest : rest = '\'' :: '\'' :: r)
      (hread : closed .str .unterminatedString (readTripleQuoted r) = x) : ReadsAt c rest x
  | quoted {x : Lexed} (hc : c = '"' ∨ c = '\'' ∧ ∀ r, rest ≠ '\'' :: '\'' :: r)
      (hread : closed .str .unterminatedString (readQuoted c rest) = x) : ReadsAt c rest x
  | expr {x : Lexed} (hc : c = '\x60')
      (hread : closed .expr .unterminatedExpr (readExpr rest) = x) : ReadsAt c rest x
  | number (h : c.isDigit = true) :
      ReadsAt c rest (.ok (some (.num (String.ofList (c :: rest.takeWhile isNumberChar)))),
        rest.dropWhile isNumberChar)
  | name (h : isNameStart c = true) :
      ReadsAt c rest (.ok (some (.ident (String.ofList (c :: rest.takeWhile isNameChar)))),
        rest.dropWhile isNameChar)
  | unexpected (hmark : mark? c = none) (hopen : c ∉ ['<', '\'', '"', '\x60'])
      (hdigit : c.isDigit = false) (hname : isNameStart c = false) :
      ReadsAt c rest (.error (.unexpectedChar c), rest)

theorem readsAt_tokenAt (c : Char) (rest : List Char) : ReadsAt c rest (tokenAt c rest) := by
  unfold tokenAt
  split
  · exact .mark ‹_›
  split
  · split
    · exact .ltGt ‹_› rfl
    · exact .lt ‹_› ‹_›
  split
  · split
    · exact .tripleQuoted ‹_› rfl rfl
    · exact .quoted (.inr ⟨‹_›, ‹_›⟩) rfl
  split
  · exact .quoted (.inl ‹_›) rfl
  split
  · exact .expr ‹_› rfl
  split
  · exact .number ‹_›
  split
  · exact .name ‹_›
  · rename_i hmark hlt hsingle hdouble hexpr hdigit hname
    exact .unexpected hmark (by simp [hlt, hsingle, hdouble, hexpr]) (Bool.eq_false_iff.2 hdigit)
      (Bool.eq_false_iff.2 hname)

theorem ReadsAt.tokenAt_eq {c : Char} {rest : List Char} {x : Lexed} (h : ReadsAt c rest x) :
    tokenAt c rest = x := by
  cases h with
  | mark h =>
    unfold tokenAt
    rw [h]
  | ltGt hc hrest =>
    subst hc hrest
    rfl
  | lt hc hrest =>
    subst hc
    simp [tokenAt, mark?]
  | tripleQuoted hc hrest hread =>
    subst hc hrest
    exact hread
  | quoted hc hread =>
    rcases hc with rfl | ⟨rfl, hrest⟩
    · exact hread
    · simpa [tokenAt, mark?] using hread
  | expr hc hread =>
    subst hc
    exact hread
  | number h =>
    have hopen : c ∉ ['<', '\'', '"', '\x60'] := Unicode.not_mem_of_class h (by decide)
    simp only [List.mem_cons, not_or] at hopen
    simp [tokenAt, mark?_of_isDigit h, hopen, h]
  | name h =>
    have hopen : c ∉ ['<', '\'', '"', '\x60'] := Unicode.not_mem_of_class h (by decide +kernel)
    simp only [List.mem_cons, not_or] at hopen
    simp [tokenAt, mark?_of_isNameStart h, hopen, isDigit_of_isNameStart h, h]
  | unexpected hmark hopen hdigit hname =>
    simp only [List.mem_cons, not_or] at hopen
    simp [tokenAt, hmark, hopen, hdigit, hname]

theorem tokenAt_eq_iff {c : Char} {rest : List Char} {x : Lexed} :
    tokenAt c rest = x ↔ ReadsAt c rest x :=
  ⟨fun h => h ▸ readsAt_tokenAt c rest, ReadsAt.tokenAt_eq⟩

/-! ## Blanks -/

theorem isNameChar_of_isBlank {c : Char} (h : Unicode.isBlank c = true) : isNameChar c = false := by
  rw [Bool.eq_false_iff]
  intro hn
  simp only [isNameChar, Bool.or_eq_true, beq_iff_eq] at hn
  rcases hn with hn | rfl
  · rw [Unicode.isBlank_of_isAlphanumeric hn] at h
    cases h
  · exact absurd h (by decide)

theorem isNumberChar_of_isBlank {c : Char} (h : Unicode.isBlank c = true) :
    isNumberChar c = false := by
  rw [Bool.eq_false_iff]
  intro hn
  simp only [isNumberChar, Bool.or_eq_true, beq_iff_eq] at hn
  rcases hn with hn | rfl
  · rw [Unicode.isBlank_of_isDigit hn] at h
    cases h
  · exact absurd h (by decide)

/-! ## One written token -/

theorem skipTrivia_cons {c : Char} (hb : Unicode.isBlank c = false) (hs : c ≠ '/')
    (rest : List Char) : skipTrivia (c :: rest) = some (c :: rest) := by
  unfold skipTrivia
  split
  · rename_i heq
    exact absurd (List.cons.inj heq).1 hs
  · rename_i heq
    exact absurd (List.cons.inj heq).1 hs
  · rename_i heq
    obtain ⟨rfl, rfl⟩ := List.cons.inj heq
    simp [hb]
  · contradiction

theorem skipTrivia_blank {c : Char} (hb : Unicode.isBlank c = true) (rest : List Char) :
    skipTrivia (c :: rest) = skipTrivia rest := by
  rw [skipTrivia.eq_def]
  split
  · rename_i heq
    obtain ⟨rfl, -⟩ := List.cons.inj heq
    exact absurd hb (by decide)
  · rename_i heq
    obtain ⟨rfl, -⟩ := List.cons.inj heq
    exact absurd hb (by decide)
  · rename_i heq
    obtain ⟨rfl, rfl⟩ := List.cons.inj heq
    simp [hb]
  · contradiction

theorem nextToken_cons {c : Char} (hb : Unicode.isBlank c = false) (hs : c ≠ '/')
    (rest : List Char) : nextToken (c :: rest) = tokenAt c rest := by
  rw [nextToken, skipTrivia_cons hb hs]

theorem nextToken_mark {c : Char} {t : Token} (h : mark? c = some t) (rest : List Char) :
    nextToken (c :: rest) = (.ok (some t), rest) := by
  have hb : Unicode.isBlank c = false ∧ c ≠ '/' := by
    unfold mark? at h
    split at h <;> first | exact ⟨by decide, by decide⟩ | cases h
  rw [nextToken_cons hb.1 hb.2]
  exact tokenAt_eq_iff.2 (.mark h)

theorem nextToken_name {cs : List Char} (h : isName cs = true) {rest : List Char}
    (hrest : ∀ c ∈ rest.head?, isNameChar c = false) :
    nextToken (cs ++ rest) = (.ok (some (.ident (String.ofList cs))), rest) := by
  cases cs with
  | nil => cases h
  | cons c cs =>
    simp only [isName, Bool.and_eq_true] at h
    obtain ⟨hc, hcs⟩ := h
    rw [List.cons_append,
      nextToken_cons (isBlank_of_isNameStart hc) (Unicode.ne_of_class hc (by decide +kernel)),
      tokenAt_eq_iff.2 (.name hc), Text.takeWhile_append_stop hcs hrest,
      Text.dropWhile_append_stop hcs hrest]

theorem nextToken_number {cs : List Char} (h : isNumber cs = true) {rest : List Char}
    (hrest : ∀ c ∈ rest.head?, isNumberChar c = false) :
    nextToken (cs ++ rest) = (.ok (some (.num (String.ofList cs))), rest) := by
  cases cs with
  | nil => cases h
  | cons c cs =>
    simp only [isNumber, Bool.and_eq_true] at h
    obtain ⟨hc, hcs⟩ := h
    rw [List.cons_append,
      nextToken_cons (Unicode.isBlank_of_isDigit hc) (Unicode.ne_of_class hc (by decide)),
      tokenAt_eq_iff.2 (.number hc), Text.takeWhile_append_stop hcs hrest,
      Text.dropWhile_append_stop hcs hrest]

theorem nextToken_quote (cs rest : List Char) :
    nextToken (quote cs ++ rest) = (.ok (some (.str (String.ofList cs))), rest) := by
  rw [quote, List.cons_append, nextToken_cons (by decide) (by decide)]
  simp [tokenAt, mark?, closed, readQuoted_escape]

theorem nextToken_expr {cs : List Char} (h : '\x60' ∉ cs) (rest : List Char) :
    nextToken ('\x60' :: (cs ++ ['\x60']) ++ rest) =
      (.ok (some (.expr (String.ofList cs))), rest) := by
  rw [List.cons_append, nextToken_cons (by decide) (by decide)]
  simp [tokenAt, mark?, closed, readExpr_append h]

theorem nextToken_lt {rest : List Char} (h : rest.head? ≠ some '>') :
    nextToken ('<' :: rest) = (.ok (some .lt), rest) := by
  rw [nextToken_cons (by decide) (by decide)]
  exact tokenAt_eq_iff.2 (.lt rfl fun r hr => h (hr ▸ rfl))

theorem nextToken_ltGt (rest : List Char) :
    nextToken ('<' :: '>' :: rest) = (.ok (some .ltGt), rest) := by
  rw [nextToken_cons (by decide) (by decide)]
  exact tokenAt_eq_iff.2 (.ltGt rfl rfl)

/-- A written token is read back. -/
theorem nextToken_written {t : Token} (h : t.isWritable = true) {rest : List Char}
    (hrest : t.Stops rest) : nextToken (t.written ++ rest) = (.ok (some t), rest) := by
  cases t with
  | ident s => simpa [Token.written] using nextToken_name h hrest
  | str s => simpa [Token.written] using nextToken_quote s.toList rest
  | num s => simpa [Token.written] using nextToken_number h hrest
  | expr s =>
    have hs : '\x60' ∉ s.toList := by simpa [Token.isWritable] using h
    simpa [Token.written] using nextToken_expr hs rest
  | lt => exact nextToken_lt hrest
  | ltGt => exact nextToken_ltGt rest
  | _ => exact nextToken_mark rfl rest

/-! ## Written lists -/

theorem nextToken_blank {c : Char} (hb : Unicode.isBlank c = true) (rest : List Char) :
    nextToken (c :: rest) = nextToken rest := by
  rw [nextToken, nextToken, skipTrivia_blank hb]

theorem tokenizeAfter_congr {cs ds : List Char} (h : nextToken cs = nextToken ds)
    (read : List Token) : tokenizeAfter read cs = tokenizeAfter read ds := by
  rw [tokenizeAfter.eq_def, tokenizeAfter.eq_def read ds, h]

theorem tokenizeAfter_token {read : List Token} {cs rest : List Char} {t : Token}
    (h : nextToken cs = (.ok (some t), rest)) :
    tokenizeAfter read cs = tokenizeAfter (t :: read) rest := by
  rw [tokenizeAfter.eq_def, h]

theorem tokenizeAfter_nil (read : List Token) : tokenizeAfter read [] = .ok read.reverse := by
  rw [tokenizeAfter.eq_def, show nextToken [] = (.ok none, []) by simp [nextToken, skipTrivia]]

/-- A mark that may stand right after a token prolongs none. -/
theorem Token.stops_mark {c : Char} (hc : c = ' ' ∨ c = ',' ∨ c = ':' ∨ c = ']') (t : Token)
    (rest : List Char) : t.Stops (c :: rest) := by
  have hname : isNameChar c = false := by
    rcases hc with rfl | rfl | rfl | rfl <;> decide +kernel
  have hnumber : isNumberChar c = false := by
    rcases hc with rfl | rfl | rfl | rfl <;> decide
  have hgt : c ≠ '>' := by
    rcases hc with rfl | rfl | rfl | rfl <;> decide
  cases t <;> simp [Token.Stops, hname, hnumber, hgt]

theorem Token.stops_nil (t : Token) : t.Stops [] := by
  cases t <;> simp [Token.Stops]

theorem Token.stops_glued {t u : Token} (h : glued t u = true) (rest : List Char) :
    t.Stops (u.written ++ rest) := by
  unfold glued at h
  split at h
  · trivial
  · trivial
  · trivial
  · exact t.stops_mark (by simp) rest
  · exact t.stops_mark (by simp) rest
  · exact t.stops_mark (by simp) rest
  · cases h

theorem writeTokens_cons (t : Token) (rest : List Token) :
    ∃ gap, (gap = [] ∨ gap = [' ']) ∧ t.Stops (gap ++ writeTokens rest) ∧
      writeTokens (t :: rest) = t.written ++ (gap ++ writeTokens rest) := by
  cases rest with
  | nil => exact ⟨[], .inl rfl, t.stops_nil, by simp [writeTokens]⟩
  | cons u rest =>
    by_cases hg : glued t u = true
    · refine ⟨[], .inl rfl, ?_, by simp [writeTokens, hg]⟩
      cases rest with
      | nil => simpa [writeTokens] using Token.stops_glued hg []
      | cons v rest => exact Token.stops_glued hg _
    · exact ⟨[' '], .inr rfl, t.stops_mark (.inl rfl) _, by simp [writeTokens, hg]⟩

theorem tokenizeAfter_writeTokens {ts : List Token} (h : ∀ t ∈ ts, t.isWritable = true)
    (read : List Token) : tokenizeAfter read (writeTokens ts) = .ok (read.reverse ++ ts) := by
  induction ts generalizing read with
  | nil => rw [writeTokens, tokenizeAfter_nil, List.append_nil]
  | cons t rest ih =>
    obtain ⟨gap, hgap, hstop, heq⟩ := writeTokens_cons t rest
    have hskip : tokenizeAfter (t :: read) (gap ++ writeTokens rest) =
        tokenizeAfter (t :: read) (writeTokens rest) := by
      rcases hgap with rfl | rfl
      · rfl
      · exact tokenizeAfter_congr (nextToken_blank (by decide) _) _
    rw [heq, tokenizeAfter_token (nextToken_written (h t (.head _)) hstop), hskip,
      ih (fun u hu => h u (.tail _ hu))]
    simp

/-- A written list of tokens is read back. -/
theorem tokenize_writeTokens {ts : List Token} (h : ∀ t ∈ ts, t.isWritable = true) :
    tokenize (String.ofList (writeTokens ts)) = .ok ts := by
  rw [tokenize, String.toList_ofList, tokenizeAfter_writeTokens h]
  rfl

/-! ## The lexer's tokens are writable -/

theorem readExpr_mem {cs text rest : List Char} (h : readExpr cs = some (text, rest)) :
    '\x60' ∉ text := by
  fun_induction readExpr cs generalizing text with
  | case1 => cases h
  | case2 => cases h; simp
  | case3 c cs hc ih =>
    obtain ⟨⟨t, r⟩, h1, h2⟩ := Option.map_eq_some_iff.1 h
    obtain ⟨rfl, rfl⟩ := Prod.mk.inj h2
    rw [List.mem_cons, not_or]
    exact ⟨Ne.symm hc, ih h1⟩

theorem closed_eq_ok {make : String → Token} {e : LexError} {read : Option (List Char × List Char)}
    {t : Token} {rest : List Char} (h : closed make e read = (.ok (some t), rest)) :
    ∃ text, read = some (text, rest) ∧ t = make (String.ofList text) := by
  unfold closed at h
  split at h
  · cases h
    exact ⟨_, rfl, rfl⟩
  · cases h

theorem tokenAt_isWritable {c : Char} {rest rest' : List Char} {t : Token}
    (h : tokenAt c rest = (.ok (some t), rest')) : t.isWritable = true := by
  cases tokenAt_eq_iff.1 h with
  | mark hmark =>
    unfold mark? at hmark
    split at hmark <;> cases hmark <;> rfl
  | ltGt => rfl
  | lt => rfl
  | tripleQuoted _ _ hread =>
    obtain ⟨text, -, rfl⟩ := closed_eq_ok hread
    rfl
  | quoted _ hread =>
    obtain ⟨text, -, rfl⟩ := closed_eq_ok hread
    rfl
  | expr _ hread =>
    obtain ⟨text, hr, rfl⟩ := closed_eq_ok hread
    simpa [Token.isWritable] using readExpr_mem hr
  | number hdigit => simp [Token.isWritable, isNumber, hdigit, List.all_takeWhile]
  | name hname => simp [Token.isWritable, isName, hname, List.all_takeWhile]

theorem nextToken_isWritable {cs rest : List Char} {t : Token}
    (h : nextToken cs = (.ok (some t), rest)) : t.isWritable = true := by
  unfold nextToken at h
  split at h
  · cases h
  · cases h
  · exact tokenAt_isWritable h

theorem tokenizeAfter_isWritable {read ts : List Token} {cs : List Char}
    (h : tokenizeAfter read cs = .ok ts) (hread : ∀ t ∈ read, t.isWritable = true) :
    ∀ t ∈ ts, t.isWritable = true := by
  fun_induction tokenizeAfter read cs with
  | case1 => cases h
  | case2 =>
    cases h
    simpa using hread
  | case3 read cs t rest hn ih =>
    refine ih h fun u hu => ?_
    rcases List.mem_cons.1 hu with rfl | hu
    · exact nextToken_isWritable hn
    · exact hread u hu

/-- The lexer gives writable tokens only. -/
theorem tokenize_isWritable {input : String} {ts : List Token} (h : tokenize input = .ok ts) :
    ∀ t ∈ ts, t.isWritable = true :=
  tokenizeAfter_isWritable h (by simp)

end EntityForge.Dbml
