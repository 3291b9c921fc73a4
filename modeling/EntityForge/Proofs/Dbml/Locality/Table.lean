import EntityForge.Dbml.Parser.Table
import EntityForge.Proofs.Dbml.Locality.Column

/-!
# Readers of tables are local
-/

namespace EntityForge.Dbml

theorem parseIndexColumns_local : Local parseIndexColumns := by
  intro ts cs rest h
  fun_induction parseIndexColumns ts generalizing cs with
  | case1 => cases h
  | case2 =>
    cases h
    exact ⟨List.suffix_cons _ _, fun us _ => rfl⟩
  | case3 ts ih =>
    obtain ⟨hr, hru⟩ := ih h
    exact ⟨hr.trans (List.suffix_cons _ _), fun us hus => hru us hus⟩
  | case4 code ts ih =>
    obtain ⟨hr, hru⟩ := ih h
    exact ⟨hr.trans (List.suffix_cons _ _), fun us hus => hru us hus⟩
  | case5 t ts hparen hcomma hexpr c hc ih =>
    obtain ⟨⟨more, r⟩, h1, h2⟩ := map_eq_ok.1 h
    cases h2
    obtain ⟨hr, hru⟩ := ih h1
    refine ⟨hr.trans (List.suffix_cons _ _), fun us hus => ?_⟩
    rw [List.cons_append, parseIndexColumns]
    · simp [hc, hru us hus, Except.map]
    · exact hparen
    · exact hcomma
    · exact hexpr
  | case6 => cases h

theorem parseIndexSettings_local (primary : Bool) : Local (parseIndexSettings primary) := by
  intro ts p rest h
  fun_induction parseIndexSettings primary ts with
  | case1 => cases h
  | case2 =>
    cases h
    exact ⟨List.suffix_cons _ _, fun us _ => rfl⟩
  | case3 primary s ts ih =>
    obtain ⟨hr, hru⟩ := ih h
    exact ⟨hr.trans (List.suffix_cons _ _), fun us hus => hru us hus⟩
  | case4 primary t ts hbracket hident ih =>
    obtain ⟨hr, hru⟩ := ih h
    refine ⟨hr.trans (List.suffix_cons _ _), fun us hus => ?_⟩
    rw [List.cons_append, parseIndexSettings]
    · exact hru us hus
    · exact hbracket
    · exact hident

theorem parseIndexKey_local : Local parseIndexKey := by
  intro ts cs rest h
  unfold parseIndexKey at h
  split at h
  · cases h
  · exact parseIndexColumns_local.cons h
  · cases h
    exact ⟨List.suffix_cons _ _, fun us _ => rfl⟩
  · rename_i t r hparen hexpr
    split at h
    · rename_i c hc
      cases h
      refine ⟨List.suffix_cons _ _, fun us _ => ?_⟩
      rw [List.cons_append, parseIndexKey]
      · simp [hc]
      · exact hparen
      · exact hexpr
    · cases h

theorem parseIndexEntry_local : Local parseIndexEntry := by
  refine parseIndexKey_local.bind fun columns => ?_
  intro ts e rest h
  dsimp only at h
  split at h
  · refine Local.cons ((parseIndexSettings_local false).bind fun primary => ?_) h
    exact .pure (IndexEntry.mk columns primary)
  · rename_i hb
    cases h
    refine ⟨List.suffix_refl _, fun us hus => ?_⟩
    dsimp only
    split
    · rename_i heq
      exact absurd heq (hus.append_ne_cons (by simp) hb _)
    · rfl

theorem parseIndexEntries_step {read : List IndexEntry} {ts rest : List Token} {e : IndexEntry}
    (h : parseIndexEntry ts = .ok (e, rest)) :
    parseIndexEntries read ts = parseIndexEntries (e :: read) rest := by
  rw [parseIndexEntries.eq_def]
  split
  · cases h
  · rw [h]

theorem parseIndexEntries_local (read : List IndexEntry) : Local (parseIndexEntries read) := by
  intro ts es rest h
  fun_induction parseIndexEntries read ts with
  | case1 =>
    cases h
    exact ⟨List.suffix_cons _ _, fun us _ => by rw [List.cons_append, parseIndexEntries]⟩
  | case2 => cases h
  | case3 read ts _ e r he ih =>
    obtain ⟨hr1, hu1⟩ := parseIndexEntry_local he
    obtain ⟨hr2, hu2⟩ := ih h
    exact ⟨hr2.trans hr1, fun us hus => (parseIndexEntries_step (hu1 us hus)).trans (hu2 us hus)⟩

theorem parseNoteTexts_closed (note : Option String) : Closed (parseNoteTexts note) := by
  intro ts n rest h
  fun_induction parseNoteTexts note ts with
  | case1 => cases h
  | case2 =>
    cases h
    exact ⟨List.suffix_cons _ _, fun us => rfl⟩
  | case3 note s ts ih =>
    obtain ⟨hr, hru⟩ := ih h
    exact ⟨hr.trans (List.suffix_cons _ _), hru⟩
  | case4 note t ts hbrace hstr ih =>
    obtain ⟨hr, hru⟩ := ih h
    refine ⟨hr.trans (List.suffix_cons _ _), fun us => ?_⟩
    rw [List.cons_append, parseNoteTexts]
    · exact hru us
    · exact hbrace
    · exact hstr

/-- A note ends with its text or with a closing brace. -/
theorem parseNote_closed : Closed parseNote := by
  intro ts n rest h
  unfold parseNote at h
  split at h
  · cases h
    exact ⟨(List.suffix_cons _ _).trans (List.suffix_cons _ _), fun us => rfl⟩
  · cases h
  · obtain ⟨hr, hru⟩ := parseNoteTexts_closed none h
    exact ⟨hr.trans (List.suffix_cons _ _), hru⟩
  · obtain ⟨r, h1, h2⟩ := map_eq_ok.1 h
    cases h2
    obtain ⟨hr, hru⟩ := skipBlock_closed h1
    exact ⟨hr.trans (List.suffix_cons _ _), fun us => map_eq_ok.2 ⟨_, hru us, rfl⟩⟩
  · cases h

/-- What kind of item the tokens start is seen from the first two of them, and no declaration
starts with the second one of a note or an index block. -/
theorem itemKind_append {t : Token} {ts us : List Token} (hus : Opening us) :
    itemKind (t :: ts ++ us) = itemKind (t :: ts) := by
  have hword : ∀ word, startsWithWord word (t :: ts ++ us) = startsWithWord word (t :: ts) := by
    intro word
    cases t <;> rfl
  have hnext : ∀ m : Token, (∀ s, m ≠ .ident s) →
      ((t :: ts ++ us).tail.head? == some m) = ((t :: ts).tail.head? == some m) := by
    intro m hm
    cases ts with
    | nil =>
      obtain rfl | ⟨s, r, rfl, -⟩ := hus
      · rfl
      · simpa using Ne.symm (hm s)
    | cons u r => rfl
  simp only [itemKind, hword, hnext .lbrace (by simp), hnext .colon (by simp)]

theorem tail_tail_append_of_itemKind {ts : List Token} (h : itemKind ts = .indexes)
    (us : List Token) : (ts ++ us).tail.tail = ts.tail.tail ++ us := by
  match ts, h with
  | [], h => cases h
  | [t], h => simp [itemKind] at h
  | t :: u :: r, _ => rfl

theorem parseTableItem_local : Local parseTableItem := by
  intro ts i rest h
  obtain ⟨t, r, rfl⟩ : ∃ t r, ts = t :: r := by
    cases ts with
    | nil => cases h
    | cons t r => exact ⟨t, r, rfl⟩
  unfold parseTableItem at h
  split at h
  · rename_i hk
    obtain ⟨⟨es, r'⟩, h1, h2⟩ := map_eq_ok.1 h
    cases h2
    obtain ⟨hr, hru⟩ := parseIndexEntries_local [] h1
    refine ⟨hr.trans ((List.tail_suffix _).trans (List.tail_suffix _)), fun us hus => ?_⟩
    rw [parseTableItem, itemKind_append hus, hk]
    rw [tail_tail_append_of_itemKind hk]
    exact map_eq_ok.2 ⟨_, hru us hus, rfl⟩
  · rename_i hk
    obtain ⟨⟨n, r'⟩, h1, h2⟩ := map_eq_ok.1 h
    cases h2
    obtain ⟨hr, hru⟩ := parseNote_closed.local h1
    refine ⟨hr.trans (List.tail_suffix _), fun us hus => ?_⟩
    rw [parseTableItem, itemKind_append hus, hk]
    exact map_eq_ok.2 ⟨_, hru us hus, rfl⟩
  · rename_i hk
    obtain ⟨⟨⟨c, refs⟩, r'⟩, h1, h2⟩ := map_eq_ok.1 h
    cases h2
    obtain ⟨hr, hru⟩ := parseColumn_local h1
    refine ⟨hr, fun us hus => ?_⟩
    rw [parseTableItem, itemKind_append hus, hk]
    exact map_eq_ok.2 ⟨_, hru us hus, rfl⟩

/-- An item that is read is added before what follows it is read. -/
theorem parseTableBody_of_item {ts rest : List Token} {i : TableItem}
    (h : parseTableItem ts = .ok (i, rest)) (d : TableDraft) :
    parseTableBody d ts = d.add i >>= fun d => parseTableBody d rest := by
  rw [parseTableBody.eq_def]
  split
  · cases h
  · cases h
  · rw [h]
    cases hd : d.add i with
    | error e => simp only [hd]; rfl
    | ok d' => simp only [hd]; rfl

theorem parseTableBody_step {d d' : TableDraft} {ts rest : List Token} {i : TableItem}
    (h : parseTableItem ts = .ok (i, rest)) (hd : d.add i = .ok d') :
    parseTableBody d ts = parseTableBody d' rest := by
  rw [parseTableBody_of_item h, hd]
  rfl

theorem parseTableBody_local (d : TableDraft) : Local (parseTableBody d) := by
  intro ts d' rest h
  fun_induction parseTableBody d ts with
  | case1 => cases h
  | case2 =>
    cases h
    exact ⟨List.suffix_cons _ _, fun us _ => by rw [List.cons_append, parseTableBody]⟩
  | case3 => cases h
  | case4 => cases h
  | case5 d ts _ _ i r hi d'' hd ih =>
    obtain ⟨hr1, hu1⟩ := parseTableItem_local hi
    obtain ⟨hr2, hu2⟩ := ih h
    exact ⟨hr2.trans hr1, fun us hus => (parseTableBody_step (hu1 us hus) hd).trans (hu2 us hus)⟩

theorem parseTableAlias_local : Local parseTableAlias := by
  intro ts a rest h
  unfold parseTableAlias at h
  split at h
  · rename_i has
    obtain ⟨⟨name, r⟩, h1, h2⟩ := map_eq_ok.1 h
    cases h2
    obtain ⟨hr, hru⟩ := parseName_local h1
    refine ⟨hr.trans (List.tail_suffix _), fun us hus => ?_⟩
    rw [parseTableAlias, hus.startsWithWord_append (by decide), if_pos has,
      tail_append_of_startsWithWord has]
    exact map_eq_ok.2 ⟨_, hru us hus, rfl⟩
  · rename_i has
    cases h
    refine ⟨List.suffix_refl _, fun us hus => ?_⟩
    rw [parseTableAlias, hus.startsWithWord_append (by decide), if_neg has]

theorem parseTable_local : Local parseTable := by
  refine parseQualifiedName_local.bind fun name => ?_
  refine parseTableAlias_local.bind fun aliasName => ?_
  refine skipBrackets_local.bind ?_
  exact (expectToken_local _ _).bind (parseTableBody_local _)

end EntityForge.Dbml
