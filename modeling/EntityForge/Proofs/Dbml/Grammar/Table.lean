import EntityForge.Dbml.Parser.Table
import EntityForge.Proofs.Dbml.Grammar.Column
import EntityForge.Proofs.Dbml.Locality.Table

/-!
# The grammar: tables

The body of a table is a list of columns, notes and index blocks (`ItemPhrase`). Which of them an
item is can be told from its first two tokens, and where one ends the next one starts with a name, so
a table is read in one way only (`parseTableBody_sound`, `parseTableBody_complete`).
-/

namespace EntityForge.Dbml

/-! ## Index blocks -/

/-- What an index entry is on: names in parentheses, one name, or an expression. -/
inductive IsIndexKey : List Token → List String → Prop where
  | listed {inside : List Token}
      (h : ∀ t ∈ inside, t = .comma ∨ (∃ code, t = .expr code) ∨ t.name?.isSome) :
      IsIndexKey (.lparen :: (inside ++ [.rparen])) (inside.filterMap (·.name?))
  | single {t : Token} {name : String} (ht : t.name? = some name) : IsIndexKey [t] [name]
  | expr (code : String) : IsIndexKey [.expr code] []

/-- The settings of an index entry: do they have the word `pk`? -/
inductive IsIndexSettings : List Token → Bool → Prop where
  | absent : IsIndexSettings [] false
  | present {inside : List Token} (h : .rbracket ∉ inside) :
      IsIndexSettings (.lbracket :: (inside ++ [.rbracket]))
        (inside.any fun t => startsWithWord "pk" [t])

/-- An entry of an index block. -/
inductive IsIndexEntry : List Token → IndexEntry → Prop where
  | mk {ks ss : List Token} {columns : List String} {primary : Bool} (hk : IsIndexKey ks columns)
      (hs : IsIndexSettings ss primary) : IsIndexEntry (ks ++ ss) ⟨columns, primary⟩

/-- The tokens of index entries, one after the other. -/
def entryTokens (es : List (Phrase IsIndexEntry)) : List Token :=
  es.flatMap (·.tokens)

/-- An index block. -/
inductive IsIndexes : List Token → List IndexEntry → Prop where
  | mk {w : String} (hw : Text.lowerAscii w = "indexes") (es : List (Phrase IsIndexEntry)) :
      IsIndexes (.ident w :: .lbrace :: (entryTokens es ++ [.rbrace])) (es.map (·.value))

theorem parseIndexColumns_sound {ts rest : List Token} {cs : List String}
    (h : parseIndexColumns ts = .ok (cs, rest)) :
    ∃ inside, ts = inside ++ .rparen :: rest ∧ cs = inside.filterMap (·.name?) ∧
      ∀ t ∈ inside, t = .comma ∨ (∃ code, t = .expr code) ∨ t.name?.isSome := by
  fun_induction parseIndexColumns ts generalizing cs with
  | case1 => cases h
  | case2 =>
    cases h
    exact ⟨[], rfl, rfl, by simp⟩
  | case3 ts ih =>
    obtain ⟨inside, rfl, rfl, hinside⟩ := ih h
    exact ⟨.comma :: inside, rfl, rfl, by simpa using hinside⟩
  | case4 code ts ih =>
    obtain ⟨inside, rfl, rfl, hinside⟩ := ih h
    exact ⟨.expr code :: inside, rfl, rfl, by simpa using hinside⟩
  | case5 t ts _ _ _ c hc ih =>
    obtain ⟨⟨more, r⟩, h1, h2⟩ := map_eq_ok.1 h
    cases h2
    obtain ⟨inside, rfl, rfl, hinside⟩ := ih h1
    exact ⟨t :: inside, rfl, by simp [hc], by simpa [hc] using hinside⟩
  | case6 => cases h

theorem parseIndexColumns_complete {inside : List Token}
    (h : ∀ t ∈ inside, t = .comma ∨ (∃ code, t = .expr code) ∨ t.name?.isSome)
    (rest : List Token) :
    parseIndexColumns (inside ++ .rparen :: rest) = .ok (inside.filterMap (·.name?), rest) := by
  induction inside with
  | nil => rfl
  | cons t inside ih =>
    have ih := ih fun u hu => h u (.tail _ hu)
    rcases h t (.head _) with rfl | ⟨code, rfl⟩ | ht
    · exact ih
    · exact ih
    · obtain ⟨c, hc⟩ := Option.isSome_iff_exists.1 ht
      rw [List.cons_append, parseIndexColumns, hc]
      · simp [ih, hc, Except.map]
      all_goals (intros; subst_vars; cases hc)

theorem parseIndexSettings_sound {primary p : Bool} {ts rest : List Token}
    (h : parseIndexSettings primary ts = .ok (p, rest)) :
    ∃ inside, ts = inside ++ .rbracket :: rest ∧ .rbracket ∉ inside ∧
      p = (primary || inside.any fun t => startsWithWord "pk" [t]) := by
  fun_induction parseIndexSettings primary ts with
  | case1 => cases h
  | case2 =>
    cases h
    exact ⟨[], rfl, by simp, by simp⟩
  | case3 primary s ts ih =>
    obtain ⟨inside, rfl, hinside, rfl⟩ := ih h
    exact ⟨.ident s :: inside, rfl, by simpa using hinside, by simp [startsWithWord, Bool.or_assoc]⟩
  | case4 primary t ts hbracket hident ih =>
    obtain ⟨inside, rfl, hinside, rfl⟩ := ih h
    have hword : startsWithWord "pk" [t] = false := by
      cases t <;> first | rfl | exact absurd rfl (hident _)
    exact ⟨t :: inside, rfl, by simpa using ⟨fun h => hbracket h.symm, hinside⟩, by simp [hword]⟩

theorem parseIndexSettings_complete (primary : Bool) {inside : List Token}
    (h : .rbracket ∉ inside) (rest : List Token) :
    parseIndexSettings primary (inside ++ .rbracket :: rest) =
      .ok (primary || inside.any fun t => startsWithWord "pk" [t], rest) := by
  induction inside generalizing primary with
  | nil => simp [parseIndexSettings]
  | cons t inside ih =>
    rw [List.mem_cons, not_or] at h
    rw [List.cons_append, List.any_cons, ← Bool.or_assoc, ← ih _ h.2]
    cases t <;> first | rfl | exact absurd rfl h.1 | simp [parseIndexSettings, startsWithWord]

theorem parseIndexKey_sound {ts rest : List Token} {cs : List String}
    (h : parseIndexKey ts = .ok (cs, rest)) :
    ∃ taken, ts = taken ++ rest ∧ IsIndexKey taken cs := by
  unfold parseIndexKey at h
  split at h
  · cases h
  · obtain ⟨inside, rfl, rfl, hinside⟩ := parseIndexColumns_sound h
    exact ⟨_, by simp, .listed hinside⟩
  · cases h
    exact ⟨_, rfl, .expr _⟩
  · split at h
    · rename_i c hc
      cases h
      exact ⟨_, rfl, .single hc⟩
    · cases h

theorem parseIndexKey_complete {taken : List Token} {cs : List String} (h : IsIndexKey taken cs)
    (rest : List Token) : parseIndexKey (taken ++ rest) = .ok (cs, rest) := by
  cases h with
  | @listed inside hinside =>
    rw [List.cons_append, List.append_assoc]
    exact parseIndexColumns_complete hinside rest
  | single ht =>
    rw [List.singleton_append, parseIndexKey, ht]
    all_goals (intros; subst_vars; cases ht)
  | expr code => rfl

theorem parseIndexEntry_sound {ts rest : List Token} {e : IndexEntry}
    (h : parseIndexEntry ts = .ok (e, rest)) :
    ∃ taken, ts = taken ++ rest ∧ IsIndexEntry taken e := by
  simp only [parseIndexEntry, bind_eq_ok] at h
  obtain ⟨⟨columns, r⟩, h1, h2⟩ := h
  obtain ⟨ks, rfl, hkey⟩ := parseIndexKey_sound h1
  dsimp only at h2
  split at h2
  · obtain ⟨⟨primary, r'⟩, h3, h4⟩ := bind_eq_ok.1 h2
    obtain ⟨inside, rfl, hinside, rfl⟩ := parseIndexSettings_sound h3
    cases h4
    exact ⟨_, by simp, .mk hkey (.present hinside)⟩
  · cases h2
    exact ⟨_, by simp, .mk hkey .absent⟩

theorem parseIndexEntry_complete {taken rest : List Token} {e : IndexEntry}
    (h : IsIndexEntry taken e) (hrest : rest.head? ≠ some .lbracket) :
    parseIndexEntry (taken ++ rest) = .ok (e, rest) := by
  obtain @⟨ks, ss, columns, primary, hk, hs⟩ := h
  have hkey := parseIndexKey_complete hk (ss ++ rest)
  rw [List.append_assoc]
  refine bind_eq_ok.2 ⟨_, hkey, ?_⟩
  dsimp only
  cases hs with
  | absent =>
    rw [List.nil_append]
    split
    · exact absurd rfl hrest
    · rfl
  | @present inside hinside =>
    rw [List.cons_append, List.append_assoc]
    exact bind_eq_ok.2 ⟨_, parseIndexSettings_complete false hinside rest, rfl⟩

/-- An entry starts with a parenthesis, a name or an expression. -/
theorem IsIndexEntry.eq_cons {taken : List Token} {e : IndexEntry} (h : IsIndexEntry taken e) :
    ∃ t rest, taken = t :: rest ∧ t ≠ .lbracket ∧ t ≠ .rbrace := by
  obtain ⟨hk, -⟩ := h
  cases hk with
  | listed => exact ⟨_, _, rfl, by simp, by simp⟩
  | single ht =>
    refine ⟨_, _, rfl, ?_, ?_⟩
    all_goals rintro rfl; cases ht
  | expr => exact ⟨_, _, rfl, by simp, by simp⟩

theorem entryTokens_head?_ne (es : List (Phrase IsIndexEntry)) (rest : List Token) :
    (entryTokens es ++ .rbrace :: rest).head? ≠ some .lbracket := by
  cases es with
  | nil => simp [entryTokens]
  | cons e es =>
    obtain ⟨t, r, heq, ht, -⟩ := e.valid.eq_cons
    simpa [entryTokens, heq] using ht

theorem parseIndexEntries_sound {read es : List IndexEntry} {ts rest : List Token}
    (h : parseIndexEntries read ts = .ok (es, rest)) :
    ∃ ps, ts = entryTokens ps ++ .rbrace :: rest ∧ es = read.reverse ++ ps.map (·.value) := by
  fun_induction parseIndexEntries read ts with
  | case1 =>
    cases h
    exact ⟨[], rfl, by simp⟩
  | case2 => cases h
  | case3 read ts _ e r he ih =>
    obtain ⟨taken, rfl, hentry⟩ := parseIndexEntry_sound he
    obtain ⟨ps, rfl, rfl⟩ := ih h
    exact ⟨⟨taken, e, hentry⟩ :: ps, by simp [entryTokens], by simp⟩

theorem parseIndexEntries_complete (read : List IndexEntry) (ps : List (Phrase IsIndexEntry))
    (rest : List Token) : parseIndexEntries read (entryTokens ps ++ .rbrace :: rest) =
      .ok (read.reverse ++ ps.map (·.value), rest) := by
  induction ps generalizing read with
  | nil =>
    rw [entryTokens, List.flatMap_nil, List.nil_append, parseIndexEntries, List.map_nil,
      List.append_nil]
  | cons p ps ih =>
    have hentry := parseIndexEntry_complete p.valid (entryTokens_head?_ne ps rest)
    rw [entryTokens, List.flatMap_cons, List.append_assoc]
    refine (parseIndexEntries_step hentry).trans ((ih _).trans ?_)
    simp

/-! ## Notes -/

/-- The text of a quoted text. -/
def Token.text? : Token → Option String
  | str s => some s
  | _ => none

/-- A note in the body of a table: a text after a colon, or the last text of a block. -/
inductive IsNote : List Token → Option String → Prop where
  | text {w : String} (hw : Text.lowerAscii w = "note") (s : String) :
      IsNote [.ident w, .colon, .str s] (some s)
  | block {w : String} (hw : Text.lowerAscii w = "note") {inside : List Token}
      (h : .rbrace ∉ inside) :
      IsNote (.ident w :: .lbrace :: (inside ++ [.rbrace])) (inside.filterMap (·.text?)).getLast?

/-- The last of the texts, or the one before them. -/
theorem getLast?_cons_or {α : Type} (a : α) (l : List α) (b : Option α) :
    (a :: l).getLast?.or b = l.getLast?.or (some a) := by
  rw [List.getLast?_cons]
  cases l.getLast? <;> rfl

theorem parseNoteTexts_sound {note n : Option String} {ts rest : List Token}
    (h : parseNoteTexts note ts = .ok (n, rest)) :
    ∃ inside, ts = inside ++ .rbrace :: rest ∧ .rbrace ∉ inside ∧
      n = (inside.filterMap (·.text?)).getLast?.or note := by
  fun_induction parseNoteTexts note ts with
  | case1 => cases h
  | case2 =>
    cases h
    exact ⟨[], rfl, by simp, rfl⟩
  | case3 note s ts ih =>
    obtain ⟨inside, rfl, hinside, rfl⟩ := ih h
    exact ⟨.str s :: inside, rfl, by simpa using hinside, (getLast?_cons_or s _ note).symm⟩
  | case4 note t ts hbrace hstr ih =>
    obtain ⟨inside, rfl, hinside, rfl⟩ := ih h
    have htext : t.text? = none := by
      cases t <;> first | rfl | exact absurd rfl (hstr _)
    exact ⟨t :: inside, rfl, by simpa using ⟨fun h => hbrace h.symm, hinside⟩, by simp [htext]⟩

theorem parseNoteTexts_complete (note : Option String) {inside : List Token}
    (h : .rbrace ∉ inside) (rest : List Token) :
    parseNoteTexts note (inside ++ .rbrace :: rest) =
      .ok ((inside.filterMap (·.text?)).getLast?.or note, rest) := by
  induction inside generalizing note with
  | nil => rfl
  | cons t inside ih =>
    rw [List.mem_cons, not_or] at h
    by_cases hstr : ∃ s, t = .str s
    · obtain ⟨s, rfl⟩ := hstr
      refine (ih _ h.2).trans ?_
      rw [List.filterMap_cons]
      simp only [Token.text?, getLast?_cons_or]
    · rw [List.cons_append, parseNoteTexts, ih _ h.2, List.filterMap_cons_none]
      · cases t <;> first | rfl | exact absurd ⟨_, rfl⟩ hstr
      · exact fun h' => h.1 h'.symm
      · exact fun s hs => hstr ⟨s, hs⟩

theorem parseNote_sound {w : String} {ts rest : List Token} {n : Option String}
    (hw : Text.lowerAscii w = "note") (hts : ts.head? = some .colon ∨ ts.head? = some .lbrace)
    (h : parseNote ts = .ok (n, rest)) :
    ∃ taken, .ident w :: ts = taken ++ rest ∧ IsNote taken n := by
  unfold parseNote at h
  split at h
  · cases h
    exact ⟨_, rfl, .text hw _⟩
  · cases h
  · obtain ⟨inside, rfl, hinside, rfl⟩ := parseNoteTexts_sound h
    rw [Option.or_none]
    exact ⟨_, by simp, .block hw hinside⟩
  · rcases hts with hts | hts <;> cases hts
  · cases h

/-! ## Items -/

/-- An item of the body of a table. -/
inductive ItemPhrase where
  | column (p : ColumnPhrase)
  | note (p : Phrase IsNote)
  | indexes (p : Phrase IsIndexes)

namespace ItemPhrase

def tokens : ItemPhrase → List Token
  | column p => p.tokens
  | note p => p.tokens
  | indexes p => p.tokens

def value : ItemPhrase → TableItem
  | column p => .column p.column p.refs
  | note p => .note p.value
  | indexes p => .indexes p.value

end ItemPhrase

theorem IsName.eq_cons {taken : List Token} {s : String} (h : IsName taken s) :
    ∃ t, taken = [t] ∧ t.name? = some s := by
  obtain ⟨ht⟩ := h
  exact ⟨_, rfl, ht⟩

theorem IsType.eq_cons {taken : List Token} {s : String} (h : IsType taken s) :
    ∃ t rest, taken = t :: rest ∧ t.name?.isSome = true := by
  obtain ⟨hn, -, -⟩ := h
  cases hn with
  | bare ht => exact ⟨_, _, rfl, by simp [ht]⟩
  | dotted hs => exact ⟨_, _, rfl, by simp [hs]⟩

/-- A column starts with two names. -/
theorem ColumnPhrase.tokens_eq_cons (p : ColumnPhrase) :
    ∃ t u rest, p.tokens = t :: u :: rest ∧ t.name?.isSome = true ∧ u.name?.isSome = true := by
  obtain ⟨t, hname, ht⟩ := p.name.valid.eq_cons
  obtain ⟨u, rest, htype, hu⟩ := p.type.valid.eq_cons
  exact ⟨t, u, _, by rw [tokens, hname, htype]; rfl, by simp [ht], hu⟩

/-- Every item starts with a name. -/
theorem ItemPhrase.tokens_eq_cons (p : ItemPhrase) :
    ∃ t rest, p.tokens = t :: rest ∧ t.name?.isSome = true := by
  cases p with
  | column p =>
    obtain ⟨t, u, rest, heq, ht, -⟩ := p.tokens_eq_cons
    exact ⟨t, _, heq, ht⟩
  | note p =>
    obtain ⟨tokens, n, h⟩ := p
    cases h <;> exact ⟨_, _, rfl, rfl⟩
  | indexes p =>
    obtain ⟨tokens, es, h⟩ := p
    cases h
    exact ⟨_, _, rfl, rfl⟩

/-- A name after the first token tells a column from a note and an index block. -/
theorem itemKind_of_name {t u : Token} (hu : u.name?.isSome = true) (rest : List Token) :
    itemKind (t :: u :: rest) = .column := by
  have hbrace : u ≠ .lbrace := by rintro rfl; cases hu
  have hcolon : u ≠ .colon := by rintro rfl; cases hu
  simp [itemKind, hbrace, hcolon]

theorem itemKind_eq_indexes {ts : List Token} (h : itemKind ts = .indexes) :
    ∃ w rest, ts = .ident w :: .lbrace :: rest ∧ Text.lowerAscii w = "indexes" := by
  unfold itemKind at h
  split at h
  · rename_i hk
    rw [Bool.and_eq_true, startsWithWord_eq_true] at hk
    obtain ⟨⟨w, r, rfl, hw⟩, hnext⟩ := hk
    cases r with
    | nil => cases hnext
    | cons u r => exact ⟨w, r, by rw [Option.some.inj (beq_iff_eq.1 hnext)], hw⟩
  · split at h <;> cases h

theorem itemKind_eq_note {ts : List Token} (h : itemKind ts = .note) :
    ∃ w rest, ts = .ident w :: rest ∧ Text.lowerAscii w = "note" ∧
      (rest.head? = some .colon ∨ rest.head? = some .lbrace) := by
  unfold itemKind at h
  split at h
  · cases h
  · split at h
    · rename_i hk
      rw [Bool.and_eq_true, startsWithWord_eq_true] at hk
      obtain ⟨⟨w, r, rfl, hw⟩, hnext⟩ := hk
      exact ⟨w, r, rfl, hw, by simpa using hnext⟩
    · cases h

theorem parseTableItem_sound {ts rest : List Token} {i : TableItem}
    (h : parseTableItem ts = .ok (i, rest)) :
    ∃ p : ItemPhrase, ts = p.tokens ++ rest ∧ i = p.value := by
  unfold parseTableItem at h
  split at h
  · rename_i hk
    obtain ⟨⟨es, r⟩, h1, h2⟩ := map_eq_ok.1 h
    cases h2
    obtain ⟨w, ts, rfl, hw⟩ := itemKind_eq_indexes hk
    obtain ⟨ps, hts, rfl⟩ := parseIndexEntries_sound h1
    exact ⟨.indexes ⟨_, _, .mk hw ps⟩, by simpa [ItemPhrase.tokens] using hts, rfl⟩
  · rename_i hk
    obtain ⟨⟨n, r⟩, h1, h2⟩ := map_eq_ok.1 h
    cases h2
    obtain ⟨w, ts, rfl, hw, hts⟩ := itemKind_eq_note hk
    obtain ⟨taken, htaken, hnote⟩ := parseNote_sound hw hts h1
    exact ⟨.note ⟨taken, n, hnote⟩, htaken, rfl⟩
  · obtain ⟨⟨⟨c, refs⟩, r⟩, h1, h2⟩ := map_eq_ok.1 h
    cases h2
    obtain ⟨p, rfl, rfl, rfl⟩ := parseColumn_sound h1
    exact ⟨.column p, rfl, rfl⟩

theorem parseTableItem_note_complete {taken : List Token} {n : Option String}
    (h : IsNote taken n) (rest : List Token) :
    parseTableItem (taken ++ rest) = .ok (.note n, rest) := by
  cases h with
  | @text w hw s =>
    have hkind : itemKind ([.ident w, .colon, .str s] ++ rest) = .note := by
      simp [itemKind, startsWithWord, hw]
    rw [parseTableItem, hkind]
    rfl
  | @block w hw inside hinside =>
    have hkind : itemKind (.ident w :: .lbrace :: (inside ++ [.rbrace]) ++ rest) = .note := by
      simp [itemKind, startsWithWord, hw]
    have hread := parseNoteTexts_complete none hinside rest
    rw [Option.or_none] at hread
    rw [parseTableItem, hkind]
    exact map_eq_ok.2 ⟨(_, rest), by simpa [parseNote] using hread, rfl⟩

theorem parseTableItem_indexes_complete {taken : List Token} {es : List IndexEntry}
    (h : IsIndexes taken es) (rest : List Token) :
    parseTableItem (taken ++ rest) = .ok (.indexes es, rest) := by
  obtain @⟨w, hw, ps⟩ := h
  have hkind : itemKind (.ident w :: .lbrace :: (entryTokens ps ++ [.rbrace]) ++ rest) =
      .indexes := by
    simp [itemKind, startsWithWord, hw]
  have hread := parseIndexEntries_complete [] ps rest
  rw [parseTableItem, hkind]
  exact map_eq_ok.2 ⟨(_, rest), by simpa using hread, rfl⟩

theorem parseTableItem_column_complete (p : ColumnPhrase) {rest : List Token}
    (hrest : EndsItem rest) :
    parseTableItem (p.tokens ++ rest) = .ok (.column p.column p.refs, rest) := by
  have hkind : itemKind (p.tokens ++ rest) = .column := by
    obtain ⟨t, u, r, heq, -, hu⟩ := p.tokens_eq_cons
    rw [heq]
    exact itemKind_of_name hu _
  rw [parseTableItem, hkind]
  exact map_eq_ok.2 ⟨_, parseColumn_complete p hrest, rfl⟩

theorem parseTableItem_complete (p : ItemPhrase) {rest : List Token} (hrest : EndsItem rest) :
    parseTableItem (p.tokens ++ rest) = .ok (p.value, rest) := by
  cases p with
  | column p => exact parseTableItem_column_complete p hrest
  | note p => exact parseTableItem_note_complete p.valid rest
  | indexes p => exact parseTableItem_indexes_complete p.valid rest

/-! ## The body -/

/-- The body of a table up to its closing brace. -/
def itemTokens (ps : List ItemPhrase) : List Token :=
  ps.flatMap (·.tokens) ++ [.rbrace]

theorem itemTokens_cons (p : ItemPhrase) (ps : List ItemPhrase) :
    itemTokens (p :: ps) = p.tokens ++ itemTokens ps := by
  simp [itemTokens]

/-- What follows an item ends it. -/
theorem endsItem_itemTokens (ps : List ItemPhrase) (rest : List Token) :
    EndsItem (itemTokens ps ++ rest) := by
  cases ps with
  | nil => exact ⟨.rbrace, rest, rfl, .inr rfl⟩
  | cons p ps =>
    obtain ⟨t, r, heq, ht⟩ := p.tokens_eq_cons
    exact ⟨t, _, by rw [itemTokens_cons, heq]; rfl, .inl ht⟩

/-- The draft with the items added one after the other. -/
def TableDraft.addAll (d : TableDraft) (is : List TableItem) : Except ParseError TableDraft :=
  is.foldlM TableDraft.add d

theorem parseTableBody_sound {d d' : TableDraft} {ts rest : List Token}
    (h : parseTableBody d ts = .ok (d', rest)) :
    ∃ ps : List ItemPhrase, ts = itemTokens ps ++ rest ∧ d.addAll (ps.map (·.value)) = .ok d' := by
  fun_induction parseTableBody d ts with
  | case1 => cases h
  | case2 =>
    cases h
    exact ⟨[], rfl, rfl⟩
  | case3 => cases h
  | case4 => cases h
  | case5 d ts _ _ i r hi d'' hadd ih =>
    obtain ⟨p, rfl, rfl⟩ := parseTableItem_sound hi
    obtain ⟨ps, rfl, hps⟩ := ih h
    refine ⟨p :: ps, by rw [itemTokens_cons, List.append_assoc], ?_⟩
    rw [TableDraft.addAll, List.map_cons, List.foldlM_cons, hadd]
    exact hps

theorem parseTableBody_complete (d : TableDraft) (ps : List ItemPhrase) (rest : List Token) :
    parseTableBody d (itemTokens ps ++ rest) =
      (d.addAll (ps.map (·.value))).map fun d => (d, rest) := by
  induction ps generalizing d with
  | nil =>
    rw [itemTokens, List.flatMap_nil, List.nil_append, List.singleton_append, parseTableBody]
    rfl
  | cons p ps ih =>
    have hitem := parseTableItem_complete p (endsItem_itemTokens ps rest)
    rw [itemTokens_cons, List.append_assoc, parseTableBody_of_item hitem, TableDraft.addAll,
      List.map_cons, List.foldlM_cons]
    cases d.add p.value with
    | error e => rfl
    | ok d' => exact ih d'

/-! ## The header -/

/-- The second name of a table, if there is one. -/
inductive IsAlias : List Token → Option String → Prop where
  | absent : IsAlias [] none
  | present {w name : String} {t : Token} (hw : Text.lowerAscii w = "as")
      (ht : t.name? = some name) : IsAlias [.ident w, t] (some name)

/-- A declaration of a table. -/
structure TablePhrase where
  word : String
  word_valid : Text.lowerAscii word = "table"
  name : Phrase IsQualifiedName
  aliasName : Phrase IsAlias
  settings : List Token
  settings_valid : IsBrackets settings
  items : List ItemPhrase

namespace TablePhrase

/-- The tokens after the word `Table`. -/
def rest (p : TablePhrase) : List Token :=
  p.name.tokens ++ (p.aliasName.tokens ++ (p.settings ++ .lbrace :: itemTokens p.items))

def tokens (p : TablePhrase) : List Token :=
  .ident p.word :: p.rest

/-- The table before any item of its body. -/
def start (p : TablePhrase) : TableDraft :=
  ⟨⟨p.name.value.1, p.name.value.2, p.aliasName.value, [], none⟩, []⟩

/-- The table that is declared, unless a column is declared twice. -/
def draft (p : TablePhrase) : Except ParseError TableDraft :=
  p.start.addAll (p.items.map (·.value))

end TablePhrase

theorem parseTableAlias_sound {ts rest : List Token} {a : Option String}
    (h : parseTableAlias ts = .ok (a, rest)) : ∃ taken, ts = taken ++ rest ∧ IsAlias taken a := by
  unfold parseTableAlias at h
  split at h
  · rename_i has
    obtain ⟨w, r, rfl, hw⟩ := startsWithWord_eq_true.1 has
    obtain ⟨⟨name, r'⟩, h1, h2⟩ := map_eq_ok.1 h
    cases h2
    obtain ⟨t, ht, hname⟩ := parseName_eq_ok.1 h1
    exact ⟨[.ident w, t], congrArg _ ht, .present hw hname⟩
  · cases h
    exact ⟨[], rfl, .absent⟩

theorem parseTableAlias_complete {taken rest : List Token} {a : Option String}
    (h : IsAlias taken a) (hrest : startsWithWord "as" rest = false) :
    parseTableAlias (taken ++ rest) = .ok (a, rest) := by
  cases h with
  | absent => rw [List.nil_append, parseTableAlias, hrest, if_neg Bool.false_ne_true]
  | present hw ht =>
    rw [List.cons_append, parseTableAlias, if_pos (startsWithWord_eq_true.2 ⟨_, _, rfl, hw⟩)]
    exact map_eq_ok.2 ⟨_, parseName_cons ht rest, rfl⟩

theorem parseTable_sound {w : String} (hw : Text.lowerAscii w = "table") {ts rest : List Token}
    {d : TableDraft} (h : parseTable ts = .ok (d, rest)) :
    ∃ p : TablePhrase, p.word = w ∧ ts = p.rest ++ rest ∧ p.draft = .ok d := by
  simp only [parseTable, bind_eq_ok, expectToken_eq_ok] at h
  obtain ⟨⟨⟨schema, name⟩, r1⟩, h1, ⟨aliasName, r2⟩, h2, r3, h3, r4, rfl, h5⟩ := h
  obtain ⟨names, rfl, hname⟩ := parseQualifiedName_sound h1
  obtain ⟨aliases, rfl, halias⟩ := parseTableAlias_sound h2
  obtain ⟨settings, rfl, hsettings⟩ := skipBrackets_sound h3
  obtain ⟨ps, rfl, hps⟩ := parseTableBody_sound h5
  exact ⟨⟨w, hw, ⟨names, _, hname⟩, ⟨aliases, _, halias⟩, settings, hsettings, ps⟩, rfl,
    by simp [TablePhrase.rest], hps⟩

/-- The settings of a table stand before its opening brace. -/
theorem IsBrackets.head?_lbrace {taken : List Token} (h : IsBrackets taken) (rest : List Token) :
    (taken ++ .lbrace :: rest).head? = some .lbrace ∨
      (taken ++ .lbrace :: rest).head? = some .lbracket := by
  cases h with
  | absent => exact .inl rfl
  | present => exact .inr rfl

theorem IsAlias.head?_ne_dot {taken rest : List Token} {a : Option String} (h : IsAlias taken a)
    (hrest : rest.head? ≠ some .dot) : (taken ++ rest).head? ≠ some .dot := by
  cases h with
  | absent => exact hrest
  | present => simp

theorem parseTable_complete (p : TablePhrase) (rest : List Token) :
    parseTable (p.rest ++ rest) = p.draft.map fun d => (d, rest) := by
  -- neither the settings nor the brace is taken for a part of the names before them
  have hhead := p.settings_valid.head?_lbrace (itemTokens p.items ++ rest)
  have hword : startsWithWord "as" (p.settings ++ .lbrace :: (itemTokens p.items ++ rest)) =
      false := by
    unfold startsWithWord
    split
    · rename_i heq
      rcases hhead with hhead | hhead <;> rw [heq] at hhead <;> cases hhead
    · rfl
  have hdot : (p.settings ++ .lbrace :: (itemTokens p.items ++ rest)).head? ≠ some .dot := by
    rcases hhead with hhead | hhead <;> simp [hhead]
  have hname := parseQualifiedName_complete p.name.valid (p.aliasName.valid.head?_ne_dot hdot)
  have halias := parseTableAlias_complete p.aliasName.valid hword
  have hsettings := skipBrackets_complete p.settings_valid
    (show (Token.lbrace :: (itemTokens p.items ++ rest)).head? ≠ some .lbracket by simp)
  have hbrace : expectToken .lbrace .openBrace (.lbrace :: (itemTokens p.items ++ rest)) =
      .ok (itemTokens p.items ++ rest) := expectToken_eq_ok.2 rfl
  simp only [parseTable, TablePhrase.rest, List.append_assoc, List.cons_append, bind, Except.bind,
    hname, halias, hsettings, hbrace]
  exact parseTableBody_complete p.start p.items rest

end EntityForge.Dbml
