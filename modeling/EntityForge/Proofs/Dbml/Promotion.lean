import EntityForge.Proofs.Dbml.Declared
import EntityForge.Proofs.Dbml.Grammar.Document
import EntityForge.Proofs.Schema.Merge

/-!
# Columns of the primary key

A column is in the primary key if its own settings say so or an index block does, in an entry that
lists the column and has the word `pk`. A block speaks of the columns that stand before it: it is
added to the table as soon as it is read (`TableDraft.addAll_columns`). So a column is what its
declaration says and what the blocks after it add (`parse_table_columns`), and a block before it
adds nothing (`parse_block_before_column`).
-/

namespace EntityForge.Dbml

/-! ## Marks -/

/-- The setting puts its column into the primary key: `pk`, or `primary` with or without `key`. -/
inductive IsKeyMark : List Token → Prop where
  | pk {w : String} (hw : Text.lowerAscii w = "pk") : IsKeyMark [.ident w]
  | primary {w : String} (hw : Text.lowerAscii w = "primary") : IsKeyMark [.ident w]
  | primaryKey {w k : String} (hw : Text.lowerAscii w = "primary")
      (hk : Text.lowerAscii k = "key") : IsKeyMark [.ident w, .ident k]

theorem IsSetting.isKeyMark_iff {ts : List Token} {i : ColumnItem} (h : IsSetting ts i) :
    IsKeyMark ts ↔ i = .setting .primaryKey := by
  constructor
  · intro hmark
    cases hmark with
    | pk hw => cases h <;> simp_all [settingWords]
    | primary hw => cases h <;> simp_all [settingWords]
    | primaryKey hw hk => cases h <;> simp_all [settingWords]
  · rintro rfl
    cases h with
    | pk hw => exact .pk hw
    | primary hw => exact .primary hw
    | primaryKey hw hk => exact .primaryKey hw hk

namespace ColumnPhrase

/-- The settings of the column put it into the primary key. -/
def IsMarked (p : ColumnPhrase) : Prop :=
  ∃ s ∈ p.settings, IsKeyMark s.tokens

theorem isMarked_iff {p : ColumnPhrase} : p.IsMarked ↔ p.column.isPrimaryKey = true := by
  simp only [IsMarked, Column.isPrimaryKey, Column.has, column, List.contains_iff_mem,
    List.mem_filterMap]
  refine exists_congr fun s => and_congr_right fun _ => ?_
  rw [s.valid.isKeyMark_iff]
  cases s.value <;> simp [ColumnItem.setting?]

end ColumnPhrase

/-- An index block among the items has an entry with the word `pk` that lists the name. -/
def Lists (items : List ItemPhrase) (name : String) : Prop :=
  ∃ b, .indexes b ∈ items ∧ ∃ e ∈ b.value, e.primary = true ∧ name ∈ e.columns

/-! ## Promotion by one item -/

/-- Puts the column into the primary key under a condition. -/
def promoteWhen (b : Bool) (c : Column) : Column :=
  if b then promoteColumn c else c

theorem promoteWhen_name (b : Bool) (c : Column) : (promoteWhen b c).name = c.name := by
  cases b
  · rfl
  · exact promoteColumn_name c

theorem promoteWhen_type (b : Bool) (c : Column) : (promoteWhen b c).type = c.type := by
  simp only [promoteWhen, promoteColumn]
  split_ifs <;> rfl

theorem isPrimaryKey_promoteColumn (c : Column) : (promoteColumn c).isPrimaryKey = true := by
  unfold promoteColumn
  split
  · assumption
  · simp [Column.isPrimaryKey, Column.has]

/-- A column is put into the primary key once. -/
theorem promoteWhen_promoteWhen (a b : Bool) (c : Column) :
    promoteWhen b (promoteWhen a c) = promoteWhen (a || b) c := by
  cases a
  · rfl
  · cases b
    · rfl
    · show promoteColumn (promoteColumn c) = promoteColumn c
      rw [promoteColumn, if_pos (isPrimaryKey_promoteColumn c)]

theorem isPrimaryKey_promoteWhen (b : Bool) (c : Column) :
    (promoteWhen b c).isPrimaryKey = true ↔ c.isPrimaryKey = true ∨ b = true := by
  cases b
  · simp [promoteWhen]
  · simp [promoteWhen, isPrimaryKey_promoteColumn]

/-- The settings of a column stay as they are, with one more if it was not in the key before. -/
theorem promoteWhen_settings (b : Bool) (c : Column) :
    (c.isPrimaryKey = true ∨ b = false → (promoteWhen b c).settings = c.settings) ∧
      (c.isPrimaryKey = false → b = true →
        (promoteWhen b c).settings = c.settings ++ [.primaryKey]) := by
  constructor
  · rintro (hc | rfl)
    · cases b
      · rfl
      · simp [promoteWhen, promoteColumn, hc]
    · rfl
  · rintro hc rfl
    simp [promoteWhen, promoteColumn, hc]

namespace TableItem

/-- The item puts columns of that name into the primary key. -/
def promotes (name : String) : TableItem → Bool
  | .indexes es => es.any fun e => e.primary && e.columns.contains name
  | _ => false

/-- The columns that the item declares. -/
def columns : TableItem → List Column
  | .column c _ => [c]
  | _ => []

end TableItem

theorem IndexEntry.promote_eq (e : IndexEntry) (cs : List Column) :
    e.promote cs = cs.map fun c => promoteWhen (e.primary && e.columns.contains c.name) c := by
  unfold promote
  split
  · simp_all [promoteWhen]
  · simp_all [promoteWhen]

theorem promote_entries (es : List IndexEntry) (cs : List Column) :
    es.foldl (fun columns e => e.promote columns) cs =
      cs.map fun c => promoteWhen ((TableItem.indexes es).promotes c.name) c := by
  induction es generalizing cs with
  | nil => simp [TableItem.promotes, promoteWhen]
  | cons e es ih =>
    rw [List.foldl_cons, ih, IndexEntry.promote_eq, List.map_map]
    refine List.map_congr_left fun c _ => ?_
    rw [Function.comp_apply, promoteWhen_promoteWhen, promoteWhen_name]
    rfl

/-- What one item does to the columns. -/
theorem TableDraft.add_columns {d d' : TableDraft} {i : TableItem} (h : d.add i = .ok d') :
    d'.table.columns =
      d.table.columns.map (fun c => promoteWhen (i.promotes c.name) c) ++ i.columns := by
  cases i with
  | column c refs =>
    simp only [add] at h
    split at h
    · cases h
    · cases h
      simp [TableItem.promotes, TableItem.columns, promoteWhen]
  | note text =>
    cases h
    simp [TableItem.promotes, TableItem.columns, promoteWhen]
  | indexes es =>
    cases h
    simp [promote_entries, TableItem.columns]

/-! ## Promotion by a body -/

/-- The columns that items declare, each with what the items after it do to it. -/
def declaredColumns : List TableItem → List Column
  | [] => []
  | i :: is =>
    i.columns.map (fun c => promoteWhen (is.any (·.promotes c.name)) c) ++ declaredColumns is

/-- What items do to the columns. -/
theorem TableDraft.addAll_columns {d d' : TableDraft} {is : List TableItem}
    (h : d.addAll is = .ok d') : d'.table.columns =
      d.table.columns.map (fun c => promoteWhen (is.any (·.promotes c.name)) c) ++
        declaredColumns is := by
  induction is generalizing d with
  | nil =>
    cases h
    simp [declaredColumns, promoteWhen]
  | cons i is ih =>
    obtain ⟨mid, hmid, hrest⟩ := bind_eq_ok.1 h
    rw [ih hrest, add_columns hmid, List.map_append, List.map_map, declaredColumns,
      List.append_assoc]
    congr 1
    refine List.map_congr_left fun c _ => ?_
    rw [Function.comp_apply, promoteWhen_promoteWhen, promoteWhen_name, List.any_cons]

theorem map_name_declaredColumns (is : List TableItem) :
    (declaredColumns is).map (·.name) = (is.flatMap (·.columns)).map (·.name) := by
  induction is with
  | nil => rfl
  | cons i is ih =>
    simp [declaredColumns, ih, promoteWhen_name, Function.comp_def]

/-- A column of a body with what the items after it do to it. -/
theorem mem_declaredColumns {pre post : List TableItem} {c : Column} {refs : List InlineRef} :
    promoteWhen (post.any (·.promotes c.name)) c ∈
      declaredColumns (pre ++ .column c refs :: post) := by
  induction pre with
  | nil => exact List.mem_append_left _ (.head _)
  | cons i pre ih => exact List.mem_append_right _ ih

/-- The name of a table that is read stays. -/
theorem TableDraft.addAll_name {d d' : TableDraft} {is : List TableItem}
    (h : d.addAll is = .ok d') :
    d'.table.schema = d.table.schema ∧ d'.table.name = d.table.name ∧
      d'.table.aliasName = d.table.aliasName := by
  induction is generalizing d with
  | nil =>
    cases h
    exact ⟨rfl, rfl, rfl⟩
  | cons i is ih =>
    obtain ⟨mid, hmid, hrest⟩ := bind_eq_ok.1 h
    have hstep : mid.table.schema = d.table.schema ∧ mid.table.name = d.table.name ∧
        mid.table.aliasName = d.table.aliasName := by
      cases i with
      | column c refs =>
        simp only [add] at hmid
        split at hmid
        · cases hmid
        · cases hmid
          exact ⟨rfl, rfl, rfl⟩
      | note text =>
        cases hmid
        exact ⟨rfl, rfl, rfl⟩
      | indexes es =>
        cases hmid
        exact ⟨rfl, rfl, rfl⟩
    obtain ⟨h1, h2, h3⟩ := ih hrest
    exact ⟨h1.trans hstep.1, h2.trans hstep.2.1, h3.trans hstep.2.2⟩

/-! ## Tables of a document -/

/-- The item, if it is a column. -/
def ItemPhrase.column? : ItemPhrase → Option ColumnPhrase
  | column c => some c
  | _ => none

/-- The columns of a table's declaration. -/
def TablePhrase.columns (p : TablePhrase) : List ColumnPhrase :=
  p.items.filterMap (·.column?)

theorem lists_iff {items : List ItemPhrase} {name : String} :
    Lists items name ↔ (items.map (·.value)).any (·.promotes name) = true := by
  simp only [Lists, List.any_map, List.any_eq_true, Function.comp_apply]
  constructor
  · rintro ⟨b, hb, e, he, hprimary, hname⟩
    refine ⟨_, hb, ?_⟩
    simp only [ItemPhrase.value, TableItem.promotes, List.any_eq_true]
    exact ⟨e, he, by simp [hprimary, hname]⟩
  · rintro ⟨i, hi, hpromotes⟩
    cases i with
    | column p => cases hpromotes
    | note p => cases hpromotes
    | indexes b =>
      simp only [ItemPhrase.value, TableItem.promotes, List.any_eq_true] at hpromotes
      obtain ⟨e, he, h⟩ := hpromotes
      exact ⟨b, hi, e, he, by simpa using h⟩

theorem TablePhrase.map_name_columns (p : TablePhrase) :
    ((p.items.map (·.value)).flatMap (·.columns)).map (·.name) =
      p.columns.map (·.name.value) := by
  unfold columns
  induction p.items with
  | nil => rfl
  | cons i is ih =>
    rw [List.map_cons, List.flatMap_cons, List.map_append, ih]
    cases i <;> rfl

/-- The columns of a table are those of its declaration, and each is what is written of it, in the
primary key if its own settings put it there or an entry of an index block after it does. -/
theorem TablePhrase.draft_columns {p : TablePhrase} {d : TableDraft} (h : p.draft = .ok d)
    (hnodup : (d.table.columns.map (·.name)).Nodup) :
    d.table.columns.map (·.name) = p.columns.map (·.name.value) ∧
      ∀ pre c post, p.items = pre ++ .column c :: post → ∃ k,
        d.table.column? c.name.value = some k ∧ k.type = c.type.value ∧
        (k.isPrimaryKey = true ↔ c.IsMarked ∨ Lists post c.name.value) ∧
        (c.IsMarked ∨ ¬ Lists post c.name.value → k.settings = c.column.settings) ∧
        (¬ c.IsMarked → Lists post c.name.value →
          k.settings = c.column.settings ++ [.primaryKey]) := by
  have hcolumns : d.table.columns = declaredColumns (p.items.map (·.value)) :=
    TableDraft.addAll_columns h
  constructor
  · rw [hcolumns, map_name_declaredColumns, p.map_name_columns]
  · intro pre c post hitems
    have hmem : promoteWhen ((post.map (·.value)).any (·.promotes c.name.value)) c.column ∈
        d.table.columns := by
      rw [hcolumns, hitems, List.map_append, List.map_cons]
      exact mem_declaredColumns
    have hfound := Table.column?_of_mem hnodup hmem
    rw [promoteWhen_name] at hfound
    refine ⟨_, hfound, promoteWhen_type _ _, ?_, fun h => ?_, fun h1 h2 => ?_⟩
    · rw [isPrimaryKey_promoteWhen, c.isMarked_iff, lists_iff]
    · rw [c.isMarked_iff, lists_iff, Bool.not_eq_true] at h
      exact (promoteWhen_settings _ _).1 h
    · rw [c.isMarked_iff, Bool.not_eq_true] at h1
      exact (promoteWhen_settings _ _).2 h1 (lists_iff.1 h2)

/-- Every table of an accepted document is declared by a phrase of the grammar, and its columns are
those of the phrase. A column is in the primary key exactly if one of its own settings puts it there
or an entry with `pk` in an index block after it lists it. Its settings are those written, with
`primaryKey` at the end if only such an entry puts it there. -/
theorem parse_table_columns {input : String} {db : Database} (h : parse input = .ok db)
    {before rest after : List Token} {ds : List Declaration} {t : Table}
    {refs : List Relationship} (hts : tokenize input = .ok (before ++ rest))
    (hbefore : Reads before ds) (ht : parseDeclaration rest = .ok (.table t refs, after)) :
    db.table? t.schema t.name = some t ∧ (∃ p : TablePhrase, rest = p.tokens ++ after) ∧
      ∀ p : TablePhrase, rest = p.tokens ++ after →
        (t.schema, t.name) = p.name.value ∧
        t.columns.map (·.name) = p.columns.map (·.name.value) ∧
        ∀ pre c post, p.items = pre ++ .column c :: post → ∃ k,
          t.column? c.name.value = some k ∧ k.type = c.type.value ∧
          (k.isPrimaryKey = true ↔ c.IsMarked ∨ Lists post c.name.value) ∧
          (c.IsMarked ∨ ¬ Lists post c.name.value → k.settings = c.column.settings) ∧
          (¬ c.IsMarked → Lists post c.name.value →
            k.settings = c.column.settings ++ [.primaryKey]) := by
  have hwf := parse_wellFormed h
  obtain ⟨es, -, hdeclare⟩ := parse_eq_ok_at h hts hbefore ht
  have hmem : t ∈ db.tables := by
    rw [hwf.mem_tables_iff, Database.tablesIn_declareAll hdeclare]
    exact .inr ⟨refs, List.mem_append_right _ (.head _), rfl⟩
  refine ⟨hwf.table?_self hmem, ?_, fun p hp => ?_⟩
  · exact parseDeclaration_table_sound ht
  · subst hp
    have hdraft := p.draft_eq_ok ht
    obtain ⟨hschema, hname, -⟩ := TableDraft.addAll_name hdraft
    exact ⟨Prod.ext hschema hname, p.draft_columns hdraft (hwf.columns_nodup hmem)⟩

/-- A column that a block after it lists. -/
theorem parse_table_columns_listed : ∃ db t k,
    parse "Table t \x7b a int [unique] indexes \x7b a [pk] \x7d \x7d" = .ok db ∧
      db.table? "public" "t" = some t ∧ t.column? "a" = some k ∧ k.isPrimaryKey = true ∧
      k.settings = [.unique, .primaryKey] := by
  have h : parse "Table t \x7b a int [unique] indexes \x7b a [pk] \x7d \x7d" = .ok {
      schemas := [⟨"public",
        [⟨"public", "t", none, [⟨"a", "int", [.unique, .primaryKey]⟩], none⟩]⟩] } := by
    decide +kernel
  have hts : tokenize "Table t \x7b a int [unique] indexes \x7b a [pk] \x7d \x7d" = .ok ([] ++
      [.ident "Table", .ident "t", .lbrace, .ident "a", .ident "int", .lbracket, .ident "unique",
        .rbracket, .ident "indexes", .lbrace, .ident "a", .lbracket, .ident "pk", .rbracket,
        .rbrace, .rbrace]) := by
    decide +kernel
  let c : ColumnPhrase := ⟨⟨_, _, .mk (t := .ident "a") rfl⟩,
    ⟨_, _, .mk (.bare (t := .ident "int") rfl) .absent .absent⟩,
    [⟨_, _, .unique (w := "unique") (by decide)⟩]⟩
  let e : Phrase IsIndexEntry := ⟨_, _, .mk (.single (t := .ident "a") rfl)
    (@IsIndexSettings.present [.ident "pk"] (by decide))⟩
  let b : Phrase IsIndexes := ⟨_, _, .mk (w := "indexes") (by decide) [e]⟩
  let p : TablePhrase := ⟨"Table", by decide, ⟨_, _, .bare (t := .ident "t") rfl⟩,
    ⟨_, _, .absent⟩, [], .absent, [.column c, .indexes b]⟩
  have ht : parseDeclaration (p.tokens ++ []) = .ok (.table ⟨"public", "t", none,
      [⟨"a", "int", [.unique, .primaryKey]⟩], none⟩ [], []) := by
    decide +kernel
  have hmarked : ¬ c.IsMarked := by
    rw [c.isMarked_iff]
    decide
  have hlists : Lists [.indexes b] "a" := ⟨b, .head _, e.value, .head _, by decide, .head _⟩
  obtain ⟨hfound, -, hp⟩ := parse_table_columns h hts .nil ht
  obtain ⟨k, hk, -, hkey, -, hsettings⟩ := (hp p rfl).2.2 [] c [.indexes b] rfl
  exact ⟨_, _, k, h, hfound, hk, hkey.2 (.inr hlists), hsettings hmarked hlists⟩

/-- A block adds nothing to a column after it. -/
theorem parse_block_before_column :
    parse "Table t \x7b a int indexes \x7b a [pk] \x7d \x7d" = .ok { schemas := [⟨"public",
      [⟨"public", "t", none, [⟨"a", "int", [.primaryKey]⟩], none⟩]⟩] } ∧
    parse "Table t \x7b indexes \x7b a [pk] \x7d a int \x7d" = .ok { schemas := [⟨"public",
      [⟨"public", "t", none, [⟨"a", "int", []⟩], none⟩]⟩] } := by
  decide +kernel

end EntityForge.Dbml
