import EntityForge.Proofs.Dbml.Locality.Table
import EntityForge.Proofs.Dbml.Truncation.Column

/-!
# Tables whose tokens stop

Readers of tables resume (`parseTable_resumable`). A column at the end of the tokens may have a
longer type than it seems, but not another name, so a table that declares a column twice does so
whatever follows; and what ends in a closing brace is not prolonged by anything
(`parseTable_selfClosed`).
-/

namespace EntityForge.Dbml

/-! ## Index blocks -/

theorem parseIndexColumns_resumable : Resumable [] parseIndexColumns := by
  intro ts us
  fun_induction parseIndexColumns ts with
  | case1 => exact .inl (.inl rfl)
  | case2 => exact .inr rfl
  | case3 ts ih => exact ih.of_suffix (List.suffix_cons Token.comma ts)
  | case4 code ts ih => exact ih.of_suffix (List.suffix_cons (Token.expr code) ts)
  | case5 t ts hparen hcomma hexpr c hc ih =>
    rw [List.cons_append, parseIndexColumns]
    · rw [hc]
      exact (ih.map (c :: ·)).of_suffix (List.suffix_cons t ts)
    · exact hparen
    · exact hcomma
    · exact hexpr
  | case6 t ts hparen hcomma hexpr hc =>
    rw [List.cons_append, parseIndexColumns]
    · rw [hc]
      exact .inr ⟨_, rfl⟩
    · exact hparen
    · exact hcomma
    · exact hexpr

theorem parseIndexSettings_resumable (primary : Bool) :
    Resumable [] (parseIndexSettings primary) := by
  intro ts us
  fun_induction parseIndexSettings primary ts with
  | case1 => exact .inl (.inl rfl)
  | case2 => exact .inr rfl
  | case3 primary s ts ih => exact ih.of_suffix (List.suffix_cons (Token.ident s) ts)
  | case4 primary t ts hbracket hident ih =>
    rw [List.cons_append, parseIndexSettings]
    · exact ih.of_suffix (List.suffix_cons t ts)
    · exact hbracket
    · exact hident

theorem parseIndexKey_resumable : Resumable [] parseIndexKey := by
  intro ts us
  cases ts with
  | nil => exact .inl (.inl rfl)
  | cons t rest =>
    cases t with
    | lparen =>
      exact (parseIndexColumns_resumable rest us).of_suffix (List.suffix_cons Token.lparen rest)
    | _ => first | exact .inr rfl | exact .inr ⟨_, rfl⟩

theorem parseIndexEntry_resumable : Resumable [] parseIndexEntry := by
  refine parseIndexKey_resumable.bind parseIndexKey_local (fun columns => ?_) fun columns => rfl
  intro ts us
  cases ts with
  | nil => exact .inl rfl
  | cons t rest =>
    cases t with
    | lbracket =>
      refine Resumes.of_suffix ?_ (List.suffix_cons Token.lbracket rest)
      exact (parseIndexSettings_resumable false rest us).bind (fun primary r _ _ => .inr rfl)
        fun primary _ => .inl rfl
    | _ => exact .inr rfl

theorem parseIndexEntries_error {read : List IndexEntry} {t : Token} {ts : List Token}
    {e : ParseError} (ht : t ≠ .rbrace) (h : parseIndexEntry (t :: ts) = .error e) :
    parseIndexEntries read (t :: ts) = .error e := by
  rw [parseIndexEntries.eq_def]
  split
  · rename_i heq
    exact absurd (List.cons.inj heq).1 ht
  · rw [h]

theorem parseIndexEntries_nil (read : List IndexEntry) :
    parseIndexEntries read [] = .error .unexpectedEnd := by
  rw [parseIndexEntries.eq_def]
  rfl

theorem parseIndexEntries_resumable (read : List IndexEntry) :
    Resumable [] (parseIndexEntries read) := by
  intro ts us
  fun_induction parseIndexEntries read ts with
  | case1 => exact .inr (by rw [List.cons_append, parseIndexEntries])
  | case2 read ts hbrace e he =>
    have h := parseIndexEntry_resumable ts us
    rw [he] at h
    cases ts with
    | nil =>
      cases he
      exact .inl (.inl rfl)
    | cons t rest =>
      refine h.of_error fun e' he' => ⟨e', parseIndexEntries_error ?_ he'⟩
      rintro rfl
      exact hbrace rest rfl
  | case3 read ts hbrace e rest he ih =>
    have h := parseIndexEntry_resumable ts us
    rw [he] at h
    rcases h with rfl | h
    · rw [parseIndexEntries_nil]
      exact .inl (.inl rfl)
    · rw [parseIndexEntries_step h]
      exact ih.of_suffix (parseIndexEntry_local he).1

/-! ## Notes -/

theorem parseNoteTexts_resumable (note : Option String) : Resumable [] (parseNoteTexts note) := by
  intro ts us
  fun_induction parseNoteTexts note ts with
  | case1 => exact .inl (.inl rfl)
  | case2 => exact .inr rfl
  | case3 note s ts ih => exact ih.of_suffix (List.suffix_cons (Token.str s) ts)
  | case4 note t ts hbrace hstr ih =>
    rw [List.cons_append, parseNoteTexts]
    · exact ih.of_suffix (List.suffix_cons t ts)
    · exact hbrace
    · exact hstr

/-- After the word `note`. -/
theorem parseNote_resumable {s : String} (hs : Text.lowerAscii s = "note") :
    Resumable [.ident s] parseNote := by
  intro ts us
  cases ts with
  | nil => exact .inl (.inl rfl)
  | cons t rest =>
    cases t with
    | colon =>
      cases rest with
      | nil => exact .inl (.inr ⟨_, rfl, .noteText hs []⟩)
      | cons u rest => cases u <;> first | exact .inr rfl | exact .inr ⟨_, rfl⟩
    | lbrace =>
      refine (parseNoteTexts_resumable none rest us).of_suffix ?_
      exact (List.suffix_cons Token.lbrace rest).trans (List.suffix_append _ _)
    | ident n =>
      have h := skipBlock_resumable rest us
      simp only [List.cons_append, parseNote]
      cases hx : skipBlock rest with
      | error e =>
        rw [hx] at h
        rcases h with he | ⟨e', he⟩
        · exact .inl (.inl he)
        · exact .inr ⟨e', by rw [he]; rfl⟩
      | ok r =>
        rw [hx] at h
        exact h.imp_right fun he => by rw [he]; rfl
    | _ => exact .inr ⟨_, rfl⟩

theorem parseNote_selfClosed : SelfClosed parseNote :=
  fun _ _ _ h => (parseNote_closed h).2

/-! ## The body -/

theorem itemKind_cons_cons_append (t u : Token) (ts us : List Token) :
    itemKind (t :: u :: (ts ++ us)) = itemKind (t :: u :: ts) := by
  cases t <;> rfl

theorem itemKind_singleton (t : Token) : itemKind [t] = .column := by
  simp [itemKind]

/-- One token is no item: it is taken for the name of a column. -/
theorem parseTableItem_singleton_resumes (t : Token) (us : List Token) :
    Resumes [t] us (parseTableItem [t]) (parseTableItem (t :: us)) := by
  cases ht : t.name? with
  | some s =>
    have hend : parseColumn [t] = .error .unexpectedEnd := by
      simp [parseColumn, parseName, ht, parseType, bind, Except.bind]
    rw [parseTableItem, itemKind_singleton, hend]
    exact .inl (.inl rfl)
  | none =>
    have hname : ∀ rest, parseColumn (t :: rest) = .error (.unexpected (some t) .name) :=
      fun rest => by simp [parseColumn, parseName, ht, bind, Except.bind]
    have hkind : itemKind (t :: us) = .column := by
      cases t <;> first | rfl | cases ht
    rw [parseTableItem, itemKind_singleton, hname, parseTableItem, hkind, hname]
    exact .inr ⟨_, rfl⟩

theorem parseTableItem_resumable : Resumable [] parseTableItem := by
  intro ts us
  rcases ts with _ | ⟨t, _ | ⟨u, rest⟩⟩
  · exact .inl (.inl rfl)
  · exact parseTableItem_singleton_resumes t us
  · simp only [List.cons_append, parseTableItem, itemKind_cons_cons_append]
    split
    · exact ((parseIndexEntries_resumable [] rest us).map TableItem.indexes).of_suffix
        ((List.suffix_cons u rest).trans (List.suffix_cons t _))
    · rename_i hk
      have hword : startsWithWord "note" (t :: u :: rest) = true := by
        unfold itemKind at hk
        grind
      obtain ⟨s, r, heq, hs⟩ := startsWithWord_eq_true.1 hword
      obtain ⟨rfl, rfl⟩ := List.cons.inj heq
      exact (parseNote_resumable hs (u :: rest) us).map TableItem.note
    · exact (parseColumn_resumable (t :: u :: rest) us).map fun p => TableItem.column p.1 p.2

theorem parseTableItem_eq_column {ts rest : List Token} {c : Column} {refs : List InlineRef}
    (h : parseTableItem ts = .ok (.column c refs, rest)) :
    itemKind ts = .column ∧ parseColumn ts = .ok ((c, refs), rest) := by
  unfold parseTableItem at h
  split at h
  · obtain ⟨_, -, h2⟩ := map_eq_ok.1 h
    cases h2
  · obtain ⟨_, -, h2⟩ := map_eq_ok.1 h
    cases h2
  · rename_i hk
    obtain ⟨⟨⟨c', refs'⟩, r⟩, h1, h2⟩ := map_eq_ok.1 h
    cases h2
    exact ⟨hk, h1⟩

/-- What goes on with a column is a column of that name, or no item. -/
theorem parseTableItem_column_append {ts us rest rest' : List Token} {c : Column}
    {refs : List InlineRef} {i : TableItem} (h : parseTableItem ts = .ok (.column c refs, rest))
    (h' : parseTableItem (ts ++ us) = .ok (i, rest')) :
    ∃ c' refs', i = .column c' refs' ∧ c'.name = c.name := by
  obtain ⟨hk, hc⟩ := parseTableItem_eq_column h
  obtain ⟨t, r, rfl, ht⟩ := parseColumn_name hc
  cases r with
  | nil => simp [parseColumn, parseName, ht, parseType, bind, Except.bind] at hc
  | cons u r =>
    have hk' : itemKind (t :: u :: r ++ us) = .column :=
      (itemKind_cons_cons_append t u r us).trans hk
    rw [parseTableItem, hk'] at h'
    obtain ⟨⟨⟨c', refs'⟩, _⟩, hc', heq⟩ := map_eq_ok.1 h'
    cases heq
    obtain ⟨t', _, heq, ht'⟩ := parseColumn_name hc'
    obtain ⟨rfl, -⟩ := List.cons.inj heq
    exact ⟨c', refs', rfl, Option.some.inj (ht'.symm.trans ht)⟩

/-- Only a column of a name that is taken is refused. -/
theorem TableDraft.add_eq_error {d : TableDraft} {i : TableItem} {e : ParseError}
    (h : d.add i = .error e) :
    ∃ c refs, i = .column c refs ∧ (d.table.column? c.name).isSome = true := by
  cases i with
  | column c refs =>
    refine ⟨c, refs, rfl, ?_⟩
    by_cases hc : (d.table.column? c.name).isSome = true
    · exact hc
    · simp [TableDraft.add, hc] at h
  | note text => cases h
  | indexes entries => cases h

theorem parseTableBody_nil (d : TableDraft) : parseTableBody d [] = .error .unexpectedEnd := by
  rw [parseTableBody]

theorem parseTableBody_selfClosed (d : TableDraft) : SelfClosed (parseTableBody d) := by
  intro ts d' rest h us
  fun_induction parseTableBody d ts with
  | case1 => cases h
  | case2 =>
    cases h
    rw [List.cons_append, parseTableBody]
  | case3 => cases h
  | case4 => cases h
  | case5 d ts _ _ i r hi d'' hd ih =>
    have hitem := parseTableItem_resumable ts us
    rw [hi] at hitem
    rcases hitem with rfl | hitem
    · rw [parseTableBody_nil] at h
      cases h
    · exact (parseTableBody_step hitem hd).trans (ih h)

theorem parseTableBody_error {d : TableDraft} {t : Token} {ts : List Token} {e : ParseError}
    (ht : t ≠ .rbrace) (h : parseTableItem (t :: ts) = .error e) :
    parseTableBody d (t :: ts) = .error e := by
  rw [parseTableBody.eq_def]
  split
  · contradiction
  · rename_i heq
    exact absurd (List.cons.inj heq).1 ht
  · rw [h]

theorem parseTableBody_resumable (d : TableDraft) : Resumable [] (parseTableBody d) := by
  intro ts us
  fun_induction parseTableBody d ts with
  | case1 => exact .inl (.inl rfl)
  | case2 => exact .inr (by rw [List.cons_append, parseTableBody])
  | case3 d ts hnil hbrace e he =>
    have h := parseTableItem_resumable ts us
    rw [he] at h
    obtain ⟨t, rest, rfl⟩ := List.exists_cons_of_ne_nil hnil
    refine h.of_error fun e' he' => ⟨e', parseTableBody_error ?_ he'⟩
    rintro rfl
    exact hbrace rest rfl
  | case4 d ts hnil hbrace i rest hi e hadd =>
    -- a column declared twice: what goes on with it declares it twice too, if it is a column
    obtain ⟨c, refs, rfl, htaken⟩ := TableDraft.add_eq_error hadd
    obtain ⟨t, r, rfl⟩ := List.exists_cons_of_ne_nil hnil
    refine .inr ?_
    cases hlong : parseTableItem (t :: r ++ us) with
    | error e' =>
      refine ⟨e', parseTableBody_error ?_ hlong⟩
      rintro rfl
      exact hbrace r rfl
    | ok p =>
      obtain ⟨i, rest'⟩ := p
      obtain ⟨c', refs', rfl, hname⟩ := parseTableItem_column_append hi hlong
      have hadd' : d.add (.column c' refs') =
          .error (.duplicateColumn d.table.name c'.name) := by
        rw [TableDraft.add, hname, if_pos htaken]
      exact ⟨_, (parseTableBody_of_item hlong d).trans (by rw [hadd']; rfl)⟩
  | case5 d ts hnil hbrace i rest hi d'' hadd ih =>
    have h := parseTableItem_resumable ts us
    rw [hi] at h
    rcases h with rfl | h
    · rw [parseTableBody_nil]
      exact .inl (.inl rfl)
    · rw [parseTableBody_step h hadd]
      exact ih.of_suffix (parseTableItem_local hi).1

/-! ## The header -/

theorem parseTableAlias_resumable : Resumable [] parseTableAlias := by
  intro ts us
  cases ts with
  | nil => exact .inl rfl
  | cons t rest =>
    simp only [List.cons_append, parseTableAlias, startsWithWord_cons_append]
    split
    · exact ((parseName_resumable rest us).map some).of_suffix (List.suffix_cons t rest)
    · exact .inr rfl

theorem parseTable_resumable : Resumable [] parseTable := by
  refine parseQualifiedName_resumable.bind parseQualifiedName_local (fun name => ?_) fun name => rfl
  refine parseTableAlias_resumable.bind parseTableAlias_local (fun aliasName => ?_)
    fun aliasName => rfl
  refine skipBrackets_resumable.bind skipBrackets_local ?_ rfl
  exact (expectToken_resumable _ _).bind (expectToken_local _ _) (parseTableBody_resumable _)
    (by rw [parseTableBody_nil]; rfl)

theorem parseTable_selfClosed : SelfClosed parseTable := by
  refine parseQualifiedName_resumable.bind_selfClosed (fun name => ?_) fun _ _ => nofun
  refine parseTableAlias_resumable.bind_selfClosed (fun aliasName => ?_) fun _ _ => nofun
  refine skipBrackets_resumable.bind_selfClosed ?_ fun _ => nofun
  refine (expectToken_resumable _ _).bind_selfClosed (parseTableBody_selfClosed _) fun d h => ?_
  rw [parseTableBody_nil] at h
  cases h

end EntityForge.Dbml
