import EntityForge.Proofs.Dbml.Declared
import EntityForge.Proofs.Dbml.Grammar.Column
import EntityForge.Proofs.Schema.Merge

/-!
# Canonical documents

`Database.write` is the document that declares a database and nothing else: the project, the enums,
the tables schema by schema with their names quoted, and one `Ref` for each relationship.

* `Database.reads_tokens`: it is the declarations of the database (`Database.declarations`).
* `Database.declareAll_declarations`: these declare a well-formed database from nothing.
* `parse_write`: what was read from any document is read again from its canonical one.
-/

namespace EntityForge

open Dbml

/-! ## Tokens of a database -/

def Setting.tokens : Setting → List Token
  | .primaryKey => [.ident "pk"]
  | .increment => [.ident "increment"]
  | .notNull => [.ident "not", .ident "null"]
  | .null => [.ident "null"]
  | .unique => [.ident "unique"]
  | .defaultValue text => .ident "default" :: .colon :: defaultTokens text
  | .note text => [.ident "note", .colon, .str text]

/-- Settings with commas between them, up to the closing bracket. -/
def settingsTokens (s : Setting) : List Setting → List Token
  | [] => s.tokens ++ [.rbracket]
  | s' :: rest => s.tokens ++ .comma :: settingsTokens s' rest

/-- The settings of a column in brackets, if there are any. -/
def bracketTokens : List Setting → List Token
  | [] => []
  | s :: rest => .lbracket :: settingsTokens s rest

def Column.tokens (c : Column) : List Token :=
  .str c.name :: .str c.type :: bracketTokens c.settings

namespace Table

def aliasTokens (t : Table) : List Token :=
  match t.aliasName with
  | some name => [.ident "as", .str name]
  | none => []

def noteTokens (t : Table) : List Token :=
  match t.note with
  | some text => [.ident "Note", .colon, .str text]
  | none => []

/-- The columns and the note of a table, up to the closing brace. -/
def bodyTokens (t : Table) : List Token :=
  t.columns.flatMap (·.tokens) ++ (t.noteTokens ++ [.rbrace])

def tokens (t : Table) : List Token :=
  [.ident "Table", .str t.schema, .dot, .str t.name] ++ (t.aliasTokens ++ .lbrace :: t.bodyTokens)

end Table

def Endpoint.tokens (e : Endpoint) : List Token :=
  [.str e.schema, .dot, .str e.table, .dot, .str e.column]

def RelationKind.token : RelationKind → Token
  | .manyToOne => .gt
  | .oneToOne => .dash
  | .manyToMany => .ltGt

def Relationship.tokens (r : Relationship) : List Token :=
  .ident "Ref" :: (r.name.toList.map .str ++
    .colon :: (r.source.tokens ++ r.kind.token :: r.target.tokens))

namespace Database

/-- The tokens of the canonical document. -/
def tokens (db : Database) : List Token :=
  db.project.toList.flatMap (fun name => [.ident "Project", .str name, .lbrace, .rbrace]) ++
    (db.enums.flatMap (fun name => [.ident "Enum", .str name, .lbrace, .rbrace]) ++
      (db.tables.flatMap (·.tokens) ++ db.relationships.flatMap (·.tokens)))

/-- The canonical document. -/
def write (db : Database) : String :=
  String.ofList (writeTokens db.tokens)

/-- The declarations of the canonical document. -/
def declarations (db : Database) : List Declaration :=
  db.project.toList.map .project ++
    (db.enums.map .enum ++
      (db.tables.map (.table · []) ++ db.relationships.map (.refs [·])))

end Database

namespace Dbml

/-! ## Columns -/

theorem parseColumnItem_tokens {s : Setting} (h : s.Declared) (us : List Token) :
    parseColumnItem (s.tokens ++ us) = .ok (.setting s, us) := by
  cases s with
  | primaryKey => rfl
  | increment => rfl
  | notNull => rfl
  | null => rfl
  | unique => rfl
  | defaultValue text =>
    show parseDefault (defaultTokens text ++ us) >>= _ = _
    rw [h.2]
    rfl
  | note text => rfl

theorem parseColumnItems_tokens {s : Setting} {rest : List Setting}
    (h : ∀ s' ∈ s :: rest, s'.Declared) (read : List ColumnItem) (us : List Token) :
    parseColumnItems read (settingsTokens s rest ++ us) =
      .ok (read.reverse ++ (s :: rest).map .setting, us) := by
  induction rest generalizing s read with
  | nil =>
    rw [settingsTokens, List.append_assoc, parseColumnItems.eq_def,
      parseColumnItem_tokens (h s (.head _))]
    simp
  | cons s' rest ih =>
    rw [settingsTokens, List.append_assoc, parseColumnItems.eq_def,
      parseColumnItem_tokens (h s (.head _))]
    refine (ih (fun r hr => h r (.tail _ hr)) _).trans ?_
    simp

/-- A quoted type is the whole type if nothing that goes on with a type follows. -/
theorem parseType_str (type : String) {us : List Token} (hus : EndsType us) :
    parseType (.str type :: us) = .ok (type, us) := by
  have htype : IsType [.str type] (type ++ "" ++ "") := .mk (.bare rfl) .absent .absent
  simpa using parseType_complete htype hus

/-- The first token of a setting is a word. -/
theorem settingsTokens_eq_cons {s : Setting} (rest : List Setting) :
    ∃ word ts, settingsTokens s rest = .ident word :: ts := by
  cases rest <;> cases s <;> exact ⟨_, _, rfl⟩

/-- What can stand after a column: no token that a type or settings start with. -/
def EndsColumn (us : List Token) : Prop :=
  ∀ t ∈ us.head?, t ≠ .dot ∧ t ≠ .lparen ∧ t ≠ .lbracket

theorem parseColumn_tokens {c : Column} (h : ∀ s ∈ c.settings, s.Declared) {us : List Token}
    (hus : EndsColumn us) : parseColumn (c.tokens ++ us) = .ok ((c, []), us) := by
  obtain ⟨name, type, settings⟩ := c
  simp only [parseColumn, bind_eq_ok]
  refine ⟨(name, .str type :: (bracketTokens settings ++ us)), rfl, ?_⟩
  cases settings with
  | nil =>
    have hends : EndsType us := ⟨fun h => (hus .dot h).1 rfl, fun h => (hus .lparen h).2.1 rfl,
      fun r hr => (hus .lbracket (hr ▸ rfl)).2.2 rfl⟩
    have htype := parseType_str type hends
    have hnone : parseColumnSettings us = .ok ([], us) := by
      unfold parseColumnSettings
      split
      · exact absurd rfl (hus .lbracket rfl).2.2
      · rfl
    exact ⟨_, htype, _, hnone, rfl⟩
  | cons s rest =>
    have htype : parseType (.str type :: .lbracket :: (settingsTokens s rest ++ us)) =
        .ok (type, .lbracket :: (settingsTokens s rest ++ us)) := by
      refine parseType_str type ⟨by simp, by simp, fun r hr => ?_⟩
      obtain ⟨word, ts, hword⟩ := settingsTokens_eq_cons (s := s) rest
      rw [hword] at hr
      injection hr with _ hr
      cases hr
    refine ⟨_, htype, _, parseColumnItems_tokens h [] us, ?_⟩
    have hsettings : ((s :: rest).map ColumnItem.setting).filterMap (·.setting?) = s :: rest := by
      rw [List.filterMap_map]
      exact List.filterMap_some
    have hrefs : ((s :: rest).map ColumnItem.setting).filterMap (·.ref?) = [] := by
      rw [List.filterMap_map]
      exact List.filterMap_eq_nil_iff.2 fun _ _ => rfl
    simp only [List.reverse_nil, List.nil_append, hsettings, hrefs]

/-! ## Tables -/

/-- A column starts with a quoted name, so it is no note and no index block. -/
theorem parseTableItem_tokens {c : Column} (h : ∀ s ∈ c.settings, s.Declared) {us : List Token}
    (hus : EndsColumn us) : parseTableItem (c.tokens ++ us) = .ok (.column c [], us) := by
  have hkind : itemKind (c.tokens ++ us) = .column := rfl
  rw [parseTableItem, hkind]
  exact map_eq_ok.2 ⟨_, parseColumn_tokens h hus, rfl⟩

/-- The end of a table's body ends the last column, and so does the next column. -/
theorem endsColumn_body (t : Table) (cs : List Column) (us : List Token) :
    EndsColumn (cs.flatMap (·.tokens) ++ (t.noteTokens ++ .rbrace :: us)) := by
  cases cs with
  | cons c cs => simp [EndsColumn, Column.tokens]
  | nil => cases h : t.note <;> simp [EndsColumn, Table.noteTokens, h]

theorem parseTableBody_columns {d : TableDraft} {cs : List Column}
    (h : ColumnsDeclared (d.table.columns ++ cs)) {us : List Token}
    (hus : ∀ cs' : List Column, EndsColumn (cs'.flatMap (·.tokens) ++ us)) :
    parseTableBody d (cs.flatMap (·.tokens) ++ us) =
      parseTableBody { d with table.columns := d.table.columns ++ cs } us := by
  induction cs generalizing d with
  | nil => simp
  | cons c cs ih =>
    have hitem := parseTableItem_tokens (h.settings c (by simp)) (hus cs)
    have hadd : d.add (.column c []) =
        .ok { d with table.columns := d.table.columns ++ [c] } := by
      have hnew : ¬ (d.table.column? c.name).isSome = true := by
        have hnd := h.nodup
        rw [List.map_append, List.nodup_append] at hnd
        intro hsome
        obtain ⟨c', hc', hname⟩ := List.find?_isSome.1 hsome
        exact hnd.2.2 c'.name (List.mem_map_of_mem hc') c.name (by simp) (by simpa using hname)
      simp [TableDraft.add, hnew]
    rw [List.flatMap_cons, List.append_assoc, parseTableBody_step hitem hadd, ih]
    · simp
    · simpa using h

theorem parseTableBody_note (d : TableDraft) (t : Table) (us : List Token)
    (hd : d.table.note = none) :
    parseTableBody d (t.noteTokens ++ .rbrace :: us) =
      .ok ({ d with table.note := t.note }, us) := by
  cases h : t.note with
  | none =>
    rw [Table.noteTokens, h, List.nil_append, parseTableBody, ← hd]
  | some text =>
    have hitem : parseTableItem (.ident "Note" :: .colon :: .str text :: .rbrace :: us) =
        .ok (.note (some text), .rbrace :: us) := rfl
    rw [Table.noteTokens, h]
    refine (parseTableBody_step hitem rfl).trans ?_
    rw [parseTableBody]

theorem parseTableAlias_tokens (t : Table) (us : List Token) :
    parseTableAlias (t.aliasTokens ++ .lbrace :: us) = .ok (t.aliasName, .lbrace :: us) := by
  cases h : t.aliasName with
  | none =>
    rw [Table.aliasTokens, h]
    rfl
  | some name =>
    rw [Table.aliasTokens, h]
    rfl

theorem parseTable_tokens {t : Table} (h : ColumnsDeclared t.columns) :
    parseTable
      (.str t.schema :: .dot :: .str t.name :: (t.aliasTokens ++ .lbrace :: t.bodyTokens)) =
        .ok (⟨t, []⟩, []) := by
  have hbody : parseTableBody ⟨⟨t.schema, t.name, t.aliasName, [], none⟩, []⟩ t.bodyTokens =
      .ok (⟨t, []⟩, []) := by
    have hcolumns : ColumnsDeclared ([] ++ t.columns) := h
    refine (parseTableBody_columns hcolumns fun cs => endsColumn_body t cs []).trans ?_
    exact parseTableBody_note _ t [] rfl
  simp only [parseTable, bind_eq_ok]
  exact ⟨_, rfl, _, parseTableAlias_tokens t _, _, rfl, _, rfl, hbody⟩

/-! ## Relationships -/

theorem parseEndpoint_tokens (e : Endpoint) {us : List Token} (hus : us.head? ≠ some .dot) :
    parseEndpoint (e.tokens ++ us) = .ok (e, us) :=
  parseEndpoint_complete (.full rfl rfl rfl) hus

theorem parseRelationship_tokens (r : Relationship) :
    parseRelationship r.name (r.source.tokens ++ r.kind.token :: r.target.tokens) =
      .ok (r, []) := by
  obtain ⟨name, source, target, kind⟩ := r
  have htarget : parseEndpoint target.tokens = .ok (target, []) :=
    parseEndpoint_tokens target (by simp)
  simp only [parseRelationship, bind_eq_ok]
  refine ⟨_, parseEndpoint_tokens source ?_, ?_⟩
  · cases kind <;> simp [RelationKind.token]
  · cases kind <;> exact ⟨_, rfl, _, htarget, _, rfl, rfl⟩

/-! ## Declarations -/

theorem parseDeclaration_table {t : Table} (h : ColumnsDeclared t.columns) :
    parseDeclaration t.tokens = .ok (.table t [], []) :=
  map_eq_ok.2 ⟨_, parseTable_tokens h, rfl⟩

theorem parseDeclaration_ref (r : Relationship) :
    parseDeclaration r.tokens = .ok (.refs [r], []) := by
  have hbody : parseRefBody r.name
      (.colon :: (r.source.tokens ++ r.kind.token :: r.target.tokens)) = .ok ([r], []) :=
    map_eq_ok.2 ⟨_, parseRelationship_tokens r, rfl⟩
  refine map_eq_ok.2 ⟨([r], []), ?_, rfl⟩
  cases hname : r.name with
  | none =>
    rw [hname] at hbody
    exact hbody
  | some name =>
    rw [hname] at hbody
    exact hbody

theorem parseDeclaration_enum (name : String) :
    parseDeclaration [.ident "Enum", .str name, .lbrace, .rbrace] = .ok (.enum name, []) :=
  rfl

theorem parseDeclaration_project (name : String) :
    parseDeclaration [.ident "Project", .str name, .lbrace, .rbrace] = .ok (.project name, []) :=
  rfl

/-- The columns of a database that is read are those of tables that are read. -/
theorem parse_columnsDeclared {input : String} {db : Database} (h : parse input = .ok db)
    {t : Table} (ht : t ∈ db.tables) : ColumnsDeclared t.columns := by
  obtain ⟨ts, ds, hts, hds, heq⟩ := parse_eq_ok.1 h
  rw [(parse_wellFormed h).mem_tables_iff, Database.tablesIn_declareAll heq] at ht
  rcases ht with ht | ⟨refs, hmem, -⟩
  · cases ht
  · exact hds.declared (tokenize_isWritable hts) hmem

theorem reads_flatMap {α : Type} {xs : List α} {f : α → List Token} {g : α → Declaration}
    (h : ∀ x ∈ xs, parseDeclaration (f x) = .ok (g x, [])) :
    Reads (xs.flatMap f) (xs.map g) := by
  induction xs with
  | nil => exact .nil
  | cons x xs ih =>
    exact (Reads.cons (h x (.head _)) .nil).append (ih fun y hy => h y (.tail _ hy))

end Dbml

namespace Database

/-- The canonical document is the declarations of the database. -/
theorem reads_tokens {db : Database} (h : ∀ t ∈ db.tables, ColumnsDeclared t.columns) :
    Reads db.tokens db.declarations := by
  refine Reads.append ?project (Reads.append ?enums (Reads.append ?tables ?refs))
  case project => exact reads_flatMap fun name _ => parseDeclaration_project name
  case enums => exact reads_flatMap fun name _ => parseDeclaration_enum name
  case tables => exact reads_flatMap fun t ht => parseDeclaration_table (h t ht)
  case refs => exact reads_flatMap fun r _ => parseDeclaration_ref r

/-! ## Declaring again -/

theorem declareAll_append {db mid : Database} {ds : List Declaration}
    (h : ds.foldlM Database.declare db = .ok mid) (es : List Declaration) :
    (ds ++ es).foldlM Database.declare db = es.foldlM Database.declare mid := by
  rw [List.foldlM_append, h]
  rfl

theorem declareAll_enums (names : List String) (db : Database) :
    (names.map Declaration.enum).foldlM Database.declare db =
      .ok { db with enums := db.enums ++ names } := by
  induction names generalizing db with
  | nil => simp [pure, Except.pure]
  | cons name names ih =>
    refine (ih _).trans ?_
    simp

theorem declareAll_refs (rs : List Relationship) (db : Database) :
    (rs.map fun r => Declaration.refs [r]).foldlM Database.declare db =
      .ok { db with relationships := db.relationships ++ rs } := by
  induction rs generalizing db with
  | nil => simp [pure, Except.pure]
  | cons r rs ih =>
    refine (ih _).trans ?_
    simp [addRelationships]

/-- A table of the last schema, which has tables already. -/
theorem declare_table_last {db : Database} {pre : List Schema} {s : Schema} {t : Table}
    (hdb : db.schemas = pre ++ [s]) (hpre : s.name ∉ pre.map (·.name))
    (hname : t.schema = s.name) (hfresh : ∀ u ∈ s.tables, u.answersTo t.name = false) :
    db.declare (.table t []) =
      .ok { db with schemas := pre ++ [{ s with tables := s.tables ++ [t] }] } := by
  have hfind : db.schema? t.schema = some s := by
    have hnone : pre.find? (·.name == s.name) = none := by simpa using hpre
    rw [schema?, hdb, hname, List.find?_append, hnone]
    simp
  have hmem : t.schema ∈ db.schemas.map (·.name) := by
    rw [hdb, hname]
    simp
  rw [declare_table_eq_ok, tablesIn, hfind]
  refine ⟨hfresh, ?_⟩
  rw [addTable, ensureSchema_of_mem hmem, hdb, hname, pushTable_append_right hpre]
  simp [pushTable, addRelationships]

/-- The first table of a new schema. -/
theorem declare_table_new {db : Database} {t : Table}
    (h : t.schema ∉ db.schemas.map (·.name)) :
    db.declare (.table t []) = .ok { db with schemas := db.schemas ++ [⟨t.schema, [t]⟩] } := by
  rw [declare_table_eq_ok, tablesIn, schema?_eq_none_iff.2 h]
  refine ⟨by simp, ?_⟩
  rw [addTable, ensureSchema_of_not_mem h, pushTable_append_right h]
  simp [pushTable, addRelationships]

theorem declareAll_last {db : Database} {pre : List Schema} {s : Schema} {ts : List Table}
    (hdb : db.schemas = pre ++ [s]) (hpre : s.name ∉ pre.map (·.name))
    (hname : ∀ t ∈ ts, t.schema = s.name)
    (hfresh : (s.tables ++ ts).Pairwise fun t u => t.answersTo u.name = false) :
    (ts.map fun t => Declaration.table t []).foldlM Database.declare db =
      .ok { db with schemas := pre ++ [{ s with tables := s.tables ++ ts }] } := by
  induction ts generalizing db s with
  | nil => simp [← hdb, pure, Except.pure]
  | cons t ts ih =>
    have hnew : ∀ u ∈ s.tables, u.answersTo t.name = false :=
      fun u hu => (List.pairwise_append.1 hfresh).2.2 u hu t (.head _)
    have hstep := declare_table_last hdb hpre (hname t (.head _)) hnew
    rw [List.map_cons, List.foldlM_cons, hstep]
    refine (ih (s := { s with tables := s.tables ++ [t] }) rfl hpre
      (fun u hu => hname u (.tail _ hu)) ?_).trans ?_
    · simpa using hfresh
    · simp

/-- The tables of well-formed schemas declare these schemas. -/
theorem declareAll_schemas {ss : List Schema} {db : Database}
    (hnd : ((db.schemas ++ ss).map (·.name)).Nodup) (hss : ∀ s ∈ ss, s.WellFormed) :
    ((ss.flatMap (·.tables)).map fun t => Declaration.table t []).foldlM Database.declare db =
      .ok { db with schemas := db.schemas ++ ss } := by
  induction ss generalizing db with
  | nil => simp [pure, Except.pure]
  | cons s ss ih =>
    have hs := hss s (.head _)
    have hnew : s.name ∉ db.schemas.map (·.name) := by
      rw [List.map_append, List.nodup_append] at hnd
      exact fun hmem => hnd.2.2 _ hmem s.name (by simp) rfl
    obtain ⟨name, tables⟩ := s
    cases tables with
    | nil => exact absurd rfl hs.tables_ne_nil
    | cons t ts =>
      have hname := hs.table_schema
      obtain rfl : t.schema = name := hname t (.head _)
      have hfirst := declare_table_new hnew
      have hall : ((t :: ts).map fun t => Declaration.table t []).foldlM Database.declare db =
          .ok { db with schemas := db.schemas ++ [⟨t.schema, t :: ts⟩] } := by
        rw [List.map_cons, List.foldlM_cons, hfirst]
        exact declareAll_last (s := ⟨t.schema, [t]⟩) rfl hnew (fun u hu => hname u (.tail _ hu))
          hs.names
      rw [List.flatMap_cons, List.map_append, declareAll_append hall]
      refine (ih ?_ fun r hr => hss r (.tail _ hr)).trans ?_
      · simpa using hnd
      · simp

/-- The declarations of a well-formed database declare it. -/
theorem declareAll_declarations {db : Database} (h : db.WellFormed) :
    db.declarations.foldlM Database.declare {} = .ok db := by
  have hproject : (db.project.toList.map Declaration.project).foldlM Database.declare {} =
      .ok { project := db.project } := by
    cases db.project <;> rfl
  have htables : (db.tables.map fun t => Declaration.table t []).foldlM Database.declare
      { project := db.project, enums := db.enums } =
        .ok { project := db.project, schemas := db.schemas, enums := db.enums } :=
    declareAll_schemas h.schemas_nodup h.schema
  rw [declarations, declareAll_append hproject, declareAll_append (declareAll_enums _ _)]
  exact (declareAll_append htables _).trans (declareAll_refs _ _)

end Database

/-! ## The canonical text -/

/-- The keywords of a canonical document. -/
def keywords : List String :=
  ["pk", "increment", "not", "null", "unique", "default", "note", "Table", "as", "Note", "Ref",
    "Enum", "Project"]

theorem isWritable_of_mem_keywords {word : String} (h : word ∈ keywords) :
    (Token.ident word).isWritable = true := by
  have hall : ∀ word ∈ keywords, (Token.ident word).isWritable = true := by decide +kernel
  exact hall word h

section
variable {t : Token}

theorem Setting.tokens_writable {s : Setting} (h : s.Declared) (ht : t ∈ s.tokens) :
    t.isWritable = true := by
  cases s with
  | defaultValue text =>
    rcases List.mem_cons.1 ht with rfl | ht
    · exact isWritable_of_mem_keywords (by decide)
    rcases List.mem_cons.1 ht with rfl | ht
    · rfl
    · exact h.1 t ht
  | note text =>
    rcases List.mem_cons.1 ht with rfl | ht
    · exact isWritable_of_mem_keywords (by decide)
    · simp only [List.mem_cons, List.not_mem_nil, or_false] at ht
      rcases ht with rfl | rfl <;> rfl
  | notNull =>
    simp only [tokens, List.mem_cons, List.not_mem_nil, or_false] at ht
    rcases ht with rfl | rfl <;> exact isWritable_of_mem_keywords (by decide)
  | _ =>
    obtain rfl := List.mem_singleton.1 ht
    exact isWritable_of_mem_keywords (by decide)

theorem settingsTokens_writable {s : Setting} {rest : List Setting}
    (h : ∀ s' ∈ s :: rest, s'.Declared) (ht : t ∈ settingsTokens s rest) : t.isWritable = true := by
  induction rest generalizing s with
  | nil =>
    rcases List.mem_append.1 ht with ht | ht
    · exact Setting.tokens_writable (h s (.head _)) ht
    · exact List.mem_singleton.1 ht ▸ rfl
  | cons s' rest ih =>
    rcases List.mem_append.1 ht with ht | ht
    · exact Setting.tokens_writable (h s (.head _)) ht
    rcases List.mem_cons.1 ht with rfl | ht
    · rfl
    · exact ih (fun r hr => h r (.tail _ hr)) ht

theorem Column.tokens_writable {c : Column} (h : ∀ s ∈ c.settings, s.Declared)
    (ht : t ∈ c.tokens) : t.isWritable = true := by
  rcases List.mem_cons.1 ht with rfl | ht
  · rfl
  rcases List.mem_cons.1 ht with rfl | ht
  · rfl
  cases hs : c.settings with
  | nil =>
    rw [hs] at ht
    cases ht
  | cons s rest =>
    rw [hs] at ht h
    rcases List.mem_cons.1 ht with rfl | ht
    · rfl
    · exact settingsTokens_writable h ht

theorem Table.tokens_writable {u : Table} (h : ColumnsDeclared u.columns) (ht : t ∈ u.tokens) :
    t.isWritable = true := by
  have halias : t ∈ u.aliasTokens → t.isWritable = true := by
    unfold aliasTokens
    split <;> simp only [List.mem_cons, List.not_mem_nil, or_false, false_implies]
    rintro (rfl | rfl)
    · exact isWritable_of_mem_keywords (by decide)
    · rfl
  have hnote : t ∈ u.noteTokens → t.isWritable = true := by
    unfold noteTokens
    split <;> simp only [List.mem_cons, List.not_mem_nil, or_false, false_implies]
    rintro (rfl | rfl | rfl)
    · exact isWritable_of_mem_keywords (by decide)
    · rfl
    · rfl
  simp only [tokens, bodyTokens, List.mem_append, List.mem_cons, List.not_mem_nil, or_false,
    List.mem_flatMap] at ht
  rcases ht with (rfl | rfl | rfl | rfl) | ht | rfl | ⟨c, hc, ht⟩ | ht | rfl
  · exact isWritable_of_mem_keywords (by decide)
  · rfl
  · rfl
  · rfl
  · exact halias ht
  · rfl
  · exact c.tokens_writable (h.settings c hc) ht
  · exact hnote ht
  · rfl

theorem Relationship.tokens_writable {r : Relationship} (ht : t ∈ r.tokens) :
    t.isWritable = true := by
  simp only [tokens, Endpoint.tokens, List.mem_append, List.mem_cons, List.not_mem_nil, or_false,
    List.mem_map] at ht
  rcases ht with rfl | ⟨name, -, rfl⟩ | rfl | (rfl | rfl | rfl | rfl | rfl) | rfl |
    (rfl | rfl | rfl | rfl | rfl)
  · exact isWritable_of_mem_keywords (by decide)
  case inr.inr.inr.inr.inl => cases r.kind <;> rfl
  all_goals rfl

theorem Database.tokens_writable {db : Database} (h : ∀ u ∈ db.tables, ColumnsDeclared u.columns)
    (ht : t ∈ db.tokens) : t.isWritable = true := by
  simp only [tokens, List.mem_append, List.mem_flatMap, List.mem_cons, List.not_mem_nil,
    or_false] at ht
  rcases ht with ⟨_, -, ht⟩ | ⟨_, -, ht⟩ | ⟨u, hu, ht⟩ | ⟨r, -, ht⟩
  · rcases ht with rfl | rfl | rfl | rfl
    · exact isWritable_of_mem_keywords (by decide)
    all_goals rfl
  · rcases ht with rfl | rfl | rfl | rfl
    · exact isWritable_of_mem_keywords (by decide)
    all_goals rfl
  · exact Table.tokens_writable (h u hu) ht
  · exact r.tokens_writable ht

end

/-- What is read from any document is read again from its canonical one. -/
theorem Dbml.parse_write {input : String} {db : Database} (h : parse input = .ok db) :
    parse db.write = .ok db := by
  have htables : ∀ t ∈ db.tables, ColumnsDeclared t.columns :=
    fun t ht => parse_columnsDeclared h ht
  have htokens : tokenize db.write = .ok db.tokens :=
    tokenize_writeTokens fun t => Database.tokens_writable htables
  exact parse_eq_ok.2 ⟨db.tokens, db.declarations, htokens, Database.reads_tokens htables,
    Database.declareAll_declarations (parse_wellFormed h)⟩

/-- A table with an alias, a default value and a note, and a relationship that uses the alias. -/
theorem Dbml.parse_write_aliased : ∃ db,
    parse "Table a as b \x7b id int [pk, default: -1] Note: 'x' \x7d Ref: b.id < a.id" = .ok db ∧
      parse db.write = .ok db := by
  have h : parse "Table a as b \x7b id int [pk, default: -1] Note: 'x' \x7d Ref: b.id < a.id" =
    .ok {
      schemas := [⟨"public", [⟨"public", "a", some "b",
        [⟨"id", "int", [.primaryKey, .defaultValue "-1"]⟩], some "x"⟩]⟩]
      relationships :=
        [⟨none, ⟨"public", "a", "id"⟩, ⟨"public", "b", "id"⟩, .manyToOne⟩] } := by
    decide +kernel
  exact ⟨_, h, parse_write h⟩

end EntityForge
