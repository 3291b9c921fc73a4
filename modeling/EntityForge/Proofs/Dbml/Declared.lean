import EntityForge.Proofs.Dbml.Locality.Document
import EntityForge.Proofs.Dbml.Written
import EntityForge.Proofs.Schema.WellFormed

/-!
# What is declared

A table that is read has columns of different names, and its default values are the texts of tokens
(`parseTable_declared`), so a database that is read is well-formed (`parse_wellFormed`).
-/

namespace EntityForge.Dbml

/-! ## Default values -/

/-- The tokens that a default value is read from. -/
def defaultTokens (text : String) : List Token :=
  match text.toList with
  | '\'' :: cs => [.str (String.ofList cs.dropLast)]
  | '\x60' :: cs => [.expr (String.ofList cs.dropLast)]
  | '-' :: cs => [.dash, .num (String.ofList cs)]
  | c :: _ => if c.isDigit then [.num text] else [.ident text]
  | [] => []

/-- A text that starts with no sign and no quote is one token. -/
theorem defaultTokens_of_cons {s : String} {c : Char} {cs : List Char} (hs : s.toList = c :: cs)
    (hc : c ∉ ['\'', '\x60', '-']) :
    defaultTokens s = if c.isDigit then [.num s] else [.ident s] := by
  simp only [List.mem_cons, List.not_mem_nil, or_false, not_or] at hc
  simp [defaultTokens, hs, hc]

theorem defaultTokens_num {s : String} (h : isNumber s.toList = true) :
    defaultTokens s = [.num s] := by
  cases hs : s.toList with
  | nil => simp [hs, isNumber] at h
  | cons c cs =>
    simp only [hs, isNumber, Bool.and_eq_true] at h
    rw [defaultTokens_of_cons hs (Unicode.not_mem_of_class h.1 (by decide)), if_pos h.1]

theorem defaultTokens_ident {s : String} (h : isName s.toList = true) :
    defaultTokens s = [.ident s] := by
  cases hs : s.toList with
  | nil => simp [hs, isName] at h
  | cons c cs =>
    simp only [hs, isName, Bool.and_eq_true] at h
    rw [defaultTokens_of_cons hs (Unicode.not_mem_of_class h.1 (by decide +kernel)),
      isDigit_of_isNameStart h.1]
    rfl

/-- A default value is read from its tokens, whatever follows. -/
theorem parseDefault_eq_ok {ts rest : List Token} {text : String}
    (h : parseDefault ts = .ok (text, rest)) (hts : ∀ t ∈ ts, t.isWritable = true) :
    ts = defaultTokens text ++ rest ∧
      ∀ us, parseDefault (defaultTokens text ++ us) = .ok (text, us) := by
  have hhead : ∀ t r, ts = t :: r → t.isWritable = true := fun t r heq => hts t (heq ▸ .head _)
  unfold parseDefault at h
  split at h
  · rename_i s r
    cases h
    have : defaultTokens ("'" ++ s ++ "'") = [.str s] := by simp [defaultTokens]
    exact ⟨by rw [this]; rfl, fun us => by rw [this]; rfl⟩
  · rename_i s r
    cases h
    have : defaultTokens ("\x60" ++ s ++ "\x60") = [.expr s] := by simp [defaultTokens]
    exact ⟨by rw [this]; rfl, fun us => by rw [this]; rfl⟩
  · rename_i n r
    cases h
    have := defaultTokens_num (hhead _ _ rfl)
    exact ⟨by rw [this]; rfl, fun us => by rw [this]; rfl⟩
  · rename_i s r
    cases h
    have := defaultTokens_ident (hhead _ _ rfl)
    exact ⟨by rw [this]; rfl, fun us => by rw [this]; rfl⟩
  · rename_i n r
    cases h
    have : defaultTokens ("-" ++ n) = [.dash, .num n] := by simp [defaultTokens]
    exact ⟨by rw [this]; rfl, fun us => by rw [this]; rfl⟩
  · cases h
  · cases h

end EntityForge.Dbml

namespace EntityForge

open Dbml

/-- A default value that is read is the text of tokens that can be written and are read as it.
-/
def Setting.Declared : Setting → Prop
  | .defaultValue text => (∀ t ∈ defaultTokens text, t.isWritable = true) ∧
      ∀ us, parseDefault (defaultTokens text ++ us) = .ok (text, us)
  | _ => True

/-- What holds of the columns of every table that is read. -/
structure ColumnsDeclared (cs : List Column) : Prop where
  nodup : (cs.map (·.name)).Nodup
  settings : ∀ c ∈ cs, ∀ s ∈ c.settings, s.Declared

namespace Dbml

/-! ## Columns -/

theorem writable_of_suffix {ts rest : List Token} (hts : ∀ t ∈ ts, t.isWritable = true)
    (h : rest <:+ ts) : ∀ t ∈ rest, t.isWritable = true :=
  fun t ht => hts t (h.mem ht)

theorem parseSetting_declared {keyword : String} {ts rest : List Token} {i : ColumnItem}
    {s : Setting} (h : parseSetting keyword ts = .ok (i, rest))
    (hts : ∀ t ∈ ts, t.isWritable = true) (hs : i.setting? = some s) : s.Declared := by
  unfold parseSetting at h
  split at h
  · cases h; cases hs; trivial
  · cases h; cases hs; trivial
  · cases h; cases hs; trivial
  · cases h; cases hs; trivial
  · cases h; cases hs; trivial
  · split at h
    · cases h; cases hs; trivial
    · cases h
  · simp only [bind_eq_ok] at h
    obtain ⟨r1, h1, ⟨value, r2⟩, h2, h3⟩ := h
    have hr1 := writable_of_suffix hts (expectToken_local _ _ h1).1
    cases h3
    cases hs
    refine ⟨fun t ht => hr1 t ?_, (parseDefault_eq_ok h2 hr1).2⟩
    rw [(parseDefault_eq_ok h2 hr1).1]
    exact List.mem_append_left _ ht
  · obtain ⟨r1, -, h2⟩ := bind_eq_ok.1 h
    split at h2
    · cases h2; cases hs; trivial
    · cases h2
  · simp only [bind_eq_ok] at h
    obtain ⟨r1, -, ⟨sign, r2⟩, -, ⟨other, r3⟩, -, h4⟩ := h
    cases h4
    cases hs
  · obtain ⟨r1, -, h2⟩ := bind_eq_ok.1 h
    cases h2
    cases hs

theorem parseColumnItem_declared {ts rest : List Token} {i : ColumnItem} {s : Setting}
    (h : parseColumnItem ts = .ok (i, rest)) (hts : ∀ t ∈ ts, t.isWritable = true)
    (hs : i.setting? = some s) : s.Declared := by
  unfold parseColumnItem at h
  split at h
  · exact parseSetting_declared h (writable_of_suffix hts (List.suffix_cons _ _)) hs
  · cases h

theorem parseColumnItems_declared {read is : List ColumnItem} {ts rest : List Token}
    (h : parseColumnItems read ts = .ok (is, rest)) (hts : ∀ t ∈ ts, t.isWritable = true)
    (hread : ∀ s ∈ read.filterMap (·.setting?), s.Declared) :
    ∀ s ∈ is.filterMap (·.setting?), s.Declared := by
  have hcons : ∀ {read : List ColumnItem} {i : ColumnItem},
      (∀ s ∈ read.filterMap (·.setting?), s.Declared) →
      (∀ s, i.setting? = some s → s.Declared) →
      ∀ s ∈ (i :: read).filterMap (·.setting?), s.Declared := by
    intro read i hread hi s hs
    obtain ⟨j, hj, hjs⟩ := List.mem_filterMap.1 hs
    rcases List.mem_cons.1 hj with rfl | hj
    · exact hi s hjs
    · exact hread s (List.mem_filterMap.2 ⟨j, hj, hjs⟩)
  fun_induction parseColumnItems read ts with
  | case1 => cases h
  | case2 read ts i r hi ih =>
    have hr := writable_of_suffix hts (parseColumnItem_local hi).1
    exact ih h (writable_of_suffix hr (List.suffix_cons _ _))
      (hcons hread fun s => parseColumnItem_declared hi hts)
  | case3 read ts i r hi =>
    cases h
    intro s hs
    refine hcons hread (fun s => parseColumnItem_declared hi hts) s ?_
    simpa only [List.filterMap_reverse, List.mem_reverse] using hs
  | case4 => cases h

theorem parseColumnSettings_declared {ts rest : List Token} {is : List ColumnItem}
    (h : parseColumnSettings ts = .ok (is, rest)) (hts : ∀ t ∈ ts, t.isWritable = true) :
    ∀ s ∈ is.filterMap (·.setting?), s.Declared := by
  unfold parseColumnSettings at h
  split at h
  · exact parseColumnItems_declared h (writable_of_suffix hts (List.suffix_cons _ _)) (by simp)
  · cases h
    simp

theorem parseColumn_declared {ts rest : List Token} {c : Column} {refs : List InlineRef}
    (h : parseColumn ts = .ok ((c, refs), rest)) (hts : ∀ t ∈ ts, t.isWritable = true) :
    ∀ s ∈ c.settings, s.Declared := by
  simp only [parseColumn, bind_eq_ok] at h
  obtain ⟨⟨n, r1⟩, h1, ⟨t, r2⟩, h2, ⟨is, r3⟩, h3, h4⟩ := h
  have hr := writable_of_suffix hts ((parseType_local h2).1.trans (parseName_local h1).1)
  cases h4
  exact parseColumnSettings_declared h3 hr

/-! ## Tables -/

theorem promoteColumn_name (c : Column) : (promoteColumn c).name = c.name := by
  unfold promoteColumn
  split <;> rfl

theorem promoteColumn_settings {c : Column} {s : Setting} (h : s ∈ (promoteColumn c).settings) :
    s ∈ c.settings ∨ s = .primaryKey := by
  unfold promoteColumn at h
  split at h
  · exact .inl h
  · simpa using h

theorem promote_eq_map (e : IndexEntry) (cs : List Column) :
    ∃ f : Column → Column, e.promote cs = cs.map f ∧ ∀ c, f c = c ∨ f c = promoteColumn c := by
  unfold IndexEntry.promote
  split
  · exact ⟨_, rfl, fun c => by split <;> simp⟩
  · exact ⟨id, (List.map_id cs).symm, fun c => .inl rfl⟩

theorem columnsDeclared_promote {cs : List Column} (h : ColumnsDeclared cs) (e : IndexEntry) :
    ColumnsDeclared (e.promote cs) := by
  obtain ⟨f, hf, hcases⟩ := promote_eq_map e cs
  have hname : ((cs.map f).map (·.name)) = cs.map (·.name) := by
    rw [List.map_map]
    refine List.map_congr_left fun c _ => ?_
    rcases hcases c with hc | hc
    · simp [hc]
    · simp [hc, promoteColumn_name]
  rw [hf]
  refine ⟨hname ▸ h.nodup, fun c hc s hs => ?_⟩
  obtain ⟨d, hd, rfl⟩ := List.mem_map.1 hc
  rcases hcases d with hc | hc
  · exact h.settings d hd s (hc ▸ hs)
  · rcases promoteColumn_settings (hc ▸ hs) with hs | rfl
    · exact h.settings d hd s hs
    · trivial

/-- What an item of a table's body may be. -/
def TableItem.Declared : TableItem → Prop
  | .column c _ => ∀ s ∈ c.settings, s.Declared
  | _ => True

/-- An item that is added keeps what holds of the columns. -/
theorem columnsDeclared_add {d d' : TableDraft} {i : TableItem}
    (h : ColumnsDeclared d.table.columns) (hi : i.Declared) (heq : d.add i = .ok d') :
    ColumnsDeclared d'.table.columns := by
  cases i with
  | column c refs =>
    simp only [TableDraft.add] at heq
    split at heq
    · cases heq
    · rename_i hnew
      cases heq
      have hfresh : c.name ∉ d.table.columns.map (·.name) := by
        simpa [Table.column?] using hnew
      refine ⟨?_, fun e he => ?_⟩
      · rw [List.map_append, List.nodup_append]
        refine ⟨h.nodup, List.nodup_singleton _, fun n hn m hm => ?_⟩
        rw [List.mem_singleton.1 hm]
        rintro rfl
        exact hfresh hn
      · rcases List.mem_append.1 he with he | he
        · exact h.settings e he
        · exact List.mem_singleton.1 he ▸ hi
  | note text =>
    cases heq
    exact h
  | indexes entries =>
    cases heq
    clear hi
    suffices hfold : ∀ cs, ColumnsDeclared cs →
        ColumnsDeclared (entries.foldl (fun columns e => e.promote columns) cs) from hfold _ h
    induction entries with
    | nil => exact fun cs hcs => hcs
    | cons e entries ih => exact fun cs hcs => ih _ (columnsDeclared_promote hcs e)

theorem parseTableItem_declared {ts rest : List Token} {i : TableItem}
    (h : parseTableItem ts = .ok (i, rest)) (hts : ∀ t ∈ ts, t.isWritable = true) :
    i.Declared := by
  unfold parseTableItem at h
  split at h
  · obtain ⟨_, -, h2⟩ := map_eq_ok.1 h
    cases h2
    trivial
  · obtain ⟨_, -, h2⟩ := map_eq_ok.1 h
    cases h2
    trivial
  · obtain ⟨⟨⟨c, refs⟩, r⟩, h1, h2⟩ := map_eq_ok.1 h
    cases h2
    exact parseColumn_declared h1 hts

theorem parseTableBody_declared {d d' : TableDraft} {ts rest : List Token}
    (h : parseTableBody d ts = .ok (d', rest)) (hts : ∀ t ∈ ts, t.isWritable = true)
    (hd : ColumnsDeclared d.table.columns) : ColumnsDeclared d'.table.columns := by
  fun_induction parseTableBody d ts with
  | case1 => cases h
  | case2 =>
    cases h
    exact hd
  | case3 => cases h
  | case4 => cases h
  | case5 d ts _ _ i r hi d'' hadd ih =>
    exact ih h (writable_of_suffix hts (parseTableItem_local hi).1)
      (columnsDeclared_add hd (parseTableItem_declared hi hts) hadd)

theorem parseTable_declared {ts rest : List Token} {d : TableDraft}
    (h : parseTable ts = .ok (d, rest)) (hts : ∀ t ∈ ts, t.isWritable = true) :
    ColumnsDeclared d.table.columns := by
  simp only [parseTable, bind_eq_ok] at h
  obtain ⟨⟨⟨s, n⟩, r1⟩, h1, ⟨a, r2⟩, h2, r3, h3, r4, h4, h5⟩ := h
  have hr4 : r4 <:+ ts := (expectToken_local _ _ h4).1.trans ((skipBrackets_local h3).1.trans
    ((parseTableAlias_local h2).1.trans (parseQualifiedName_local h1).1))
  exact parseTableBody_declared h5 (writable_of_suffix hts hr4) ⟨List.nodup_nil, by simp⟩

/-! ## Documents -/

theorem parseDeclaration_declared {ts rest : List Token} {t : Table} {refs : List Relationship}
    (h : parseDeclaration ts = .ok (.table t refs, rest))
    (hts : ∀ t ∈ ts, t.isWritable = true) : ColumnsDeclared t.columns := by
  obtain ⟨s, r, rfl, -, htable⟩ := parseDeclaration_eq_table.1 h
  exact parseTable_declared htable (writable_of_suffix hts (List.suffix_cons _ _))

theorem Reads.declared {ts : List Token} {ds : List Declaration} (h : Reads ts ds)
    (hts : ∀ t ∈ ts, t.isWritable = true) {t : Table} {refs : List Relationship}
    (ht : .table t refs ∈ ds) : ColumnsDeclared t.columns := by
  induction h with
  | nil => cases ht
  | cons hd _ ih =>
    rcases List.mem_cons.1 ht with rfl | ht
    · exact parseDeclaration_declared hd hts
    · exact ih (writable_of_suffix hts (parseDeclaration_local hd).1) ht

theorem Reads.wellFormed {ts : List Token} {ds : List Declaration} (h : Reads ts ds)
    (hts : ∀ t ∈ ts, t.isWritable = true) : ∀ d ∈ ds, d.WellFormed := by
  intro d hd
  cases d with
  | table t refs => exact (h.declared hts hd).nodup
  | _ => trivial

/-- A database that is read is well-formed. -/
theorem parse_wellFormed {input : String} {db : Database} (h : parse input = .ok db) :
    db.WellFormed := by
  obtain ⟨ts, ds, hts, hds, heq⟩ := parse_eq_ok.1 h
  exact Database.WellFormed.empty.declareAll (hds.wellFormed (tokenize_isWritable hts)) heq

end Dbml

end EntityForge
