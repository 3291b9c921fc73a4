import EntityForge.Dbml.Declaration
import EntityForge.Dbml.Parser.Basic
import EntityForge.Entity.Associations
import Mathlib.Data.List.Nodup

/-!
# Well-formed databases

What declarations keep true of a database (`Database.WellFormed`, kept by `WellFormed.declare`):
schemas have different names and at least one table, a table carries the name of its schema,
answers to no later table's name, and has columns of different names. In such a database a table is
known by its schema and name (`WellFormed.table?_self`, `WellFormed.isSame_iff`).
-/

namespace EntityForge

/-- What holds of every schema of a database that was declared. -/
structure Schema.WellFormed (s : Schema) : Prop where
  tables_ne_nil : s.tables ≠ []
  table_schema : ∀ t ∈ s.tables, t.schema = s.name
  names : s.tables.Pairwise fun t u => t.answersTo u.name = false
  columns : ∀ t ∈ s.tables, (t.columns.map (·.name)).Nodup

/-- What holds of every database that was declared. -/
structure Database.WellFormed (db : Database) : Prop where
  schemas_nodup : (db.schemas.map (·.name)).Nodup
  schema : ∀ s ∈ db.schemas, s.WellFormed

theorem Table.answersTo_iff {t : Table} {name : String} :
    t.answersTo name = true ↔ t.name = name ∨ t.aliasName = some name := by
  simp [Table.answersTo]

/-- The column is found under its name if no name repeats. -/
theorem Table.column?_of_mem {t : Table} (h : (t.columns.map (·.name)).Nodup) {col : Column}
    (hcol : col ∈ t.columns) : t.column? col.name = some col := by
  cases hf : t.column? col.name with
  | none => exact absurd (beq_self_eq_true _) (List.find?_eq_none.1 hf col hcol)
  | some col' =>
    have hname : col'.name = col.name := by simpa using List.find?_some hf
    rw [List.inj_on_of_nodup_map h (List.mem_of_find?_eq_some hf) hcol hname]

/-- A table of a new name makes a well-formed schema longer. -/
theorem Schema.WellFormed.push {s : Schema} (h : s.WellFormed) {t : Table} (hname : t.schema = s.name)
    (hfresh : ∀ u ∈ s.tables, u.answersTo t.name = false)
    (hcols : (t.columns.map (·.name)).Nodup) :
    Schema.WellFormed { s with tables := s.tables ++ [t] } where
  tables_ne_nil := by simp
  table_schema u hu := by
    rcases List.mem_append.1 hu with hu | hu
    · exact h.table_schema u hu
    · rw [List.mem_singleton.1 hu]
      exact hname
  names := by
    rw [List.pairwise_append]
    refine ⟨h.names, List.pairwise_singleton _ _, fun u hu v hv => ?_⟩
    rw [List.mem_singleton.1 hv]
    exact hfresh u hu
  columns u hu := by
    rcases List.mem_append.1 hu with hu | hu
    · exact h.columns u hu
    · rw [List.mem_singleton.1 hu]
      exact hcols

/-- A declared table has columns of different names. -/
def Dbml.Declaration.WellFormed : Dbml.Declaration → Prop
  | .table t _ => (t.columns.map (·.name)).Nodup
  | _ => True

/-! ## Schemas by name -/

namespace Database

/-- The tables of the schema of that name, none if there is no such schema. -/
def tablesIn (db : Database) (name : String) : List Table :=
  match db.schema? name with
  | some s => s.tables
  | none => []

theorem name_of_schema? {db : Database} {name : String} {s : Schema}
    (h : db.schema? name = some s) : s.name = name := by
  simpa using List.find?_some h

theorem mem_of_schema? {db : Database} {name : String} {s : Schema}
    (h : db.schema? name = some s) : s ∈ db.schemas :=
  List.mem_of_find?_eq_some h

theorem schema?_eq_none_iff {db : Database} {name : String} :
    db.schema? name = none ↔ name ∉ db.schemas.map (·.name) := by
  simp [schema?]

theorem schema?_of_mem {db : Database} (h : (db.schemas.map (·.name)).Nodup) {s : Schema}
    (hs : s ∈ db.schemas) : db.schema? s.name = some s := by
  cases hf : db.schema? s.name with
  | none => exact absurd (List.mem_map_of_mem hs) (schema?_eq_none_iff.1 hf)
  | some s' =>
    have hn : s'.name = s.name := name_of_schema? hf
    rw [List.inj_on_of_nodup_map h (mem_of_schema? hf) hs hn]

/-- The tables under a name are none, or those of the schema of that name. -/
theorem tablesIn_cases (db : Database) (name : String) :
    db.tablesIn name = [] ∨ ∃ s ∈ db.schemas, s.name = name ∧ db.tablesIn name = s.tables := by
  unfold tablesIn
  split
  · rename_i s hs
    exact .inr ⟨s, mem_of_schema? hs, name_of_schema? hs, rfl⟩
  · exact .inl rfl

theorem WellFormed.tablesIn_self {db : Database} (h : db.WellFormed) {s : Schema}
    (hs : s ∈ db.schemas) : db.tablesIn s.name = s.tables := by
  rw [tablesIn, schema?_of_mem h.schemas_nodup hs]

theorem mem_tables {db : Database} {t : Table} :
    t ∈ db.tables ↔ ∃ s ∈ db.schemas, t ∈ s.tables := by
  simp [tables]

theorem WellFormed.mem_tables_iff {db : Database} (h : db.WellFormed) {t : Table} :
    t ∈ db.tables ↔ t ∈ db.tablesIn t.schema := by
  rw [mem_tables]
  constructor
  · rintro ⟨s, hs, ht⟩
    rwa [(h.schema s hs).table_schema t ht, h.tablesIn_self hs]
  · intro ht
    rcases db.tablesIn_cases t.schema with hnone | ⟨s, hs, -, heq⟩
    · rw [hnone] at ht
      cases ht
    · exact ⟨s, hs, heq ▸ ht⟩

theorem table?_eq_find? (db : Database) (schema name : String) :
    db.table? schema name = (db.tablesIn schema).find? (·.answersTo name) := by
  unfold table? tablesIn
  cases db.schema? schema <;> rfl

theorem table?_isSome_iff {db : Database} {schema name : String} :
    (db.table? schema name).isSome = true ↔
      ∃ u ∈ db.tablesIn schema, u.answersTo name = true := by
  rw [table?_eq_find?, List.find?_isSome]

/-! ## Adding a table -/

section
variable {name other : String} {t : Table}

theorem map_name_pushTable (name : String) (t : Table) (ss : List Schema) :
    (pushTable name t ss).map (·.name) = ss.map (·.name) := by
  induction ss with
  | nil => rfl
  | cons s ss ih =>
    unfold pushTable
    split
    · rfl
    · rw [List.map_cons, List.map_cons, ih]

theorem map_name_ensureSchema (name : String) (ss : List Schema) :
    (ensureSchema name ss).map (·.name) =
      if name ∈ ss.map (·.name) then ss.map (·.name) else ss.map (·.name) ++ [name] := by
  unfold ensureSchema
  by_cases h : name ∈ ss.map (·.name)
  · have : ss.any (·.name == name) = true := by simpa using h
    rw [if_pos this, if_pos h]
  · have : ¬ ss.any (·.name == name) = true := by simpa using h
    rw [if_neg this, if_neg h, List.map_append]
    rfl

theorem find?_pushTable_self {ss : List Schema} {s : Schema}
    (h : ss.find? (·.name == name) = some s) :
    (pushTable name t ss).find? (·.name == name) = some { s with tables := s.tables ++ [t] } := by
  induction ss with
  | nil => cases h
  | cons r ss ih =>
    by_cases hr : r.name = name
    · have : r = s := by simpa [hr] using h
      simp [pushTable, this ▸ hr, this]
    · have : ss.find? (·.name == name) = some s := by simpa [hr] using h
      simpa [pushTable, hr] using ih this

theorem find?_pushTable_ne (h : other ≠ name) (ss : List Schema) :
    (pushTable name t ss).find? (·.name == other) = ss.find? (·.name == other) := by
  induction ss with
  | nil => rfl
  | cons r ss ih =>
    by_cases hr : r.name = name
    · simp [pushTable, hr, h.symm]
    · simp [pushTable, hr, List.find?_cons, ih]

theorem find?_ensureSchema_self (ss : List Schema) :
    (ensureSchema name ss).find? (·.name == name) =
      some ((ss.find? (·.name == name)).getD ⟨name, []⟩) := by
  unfold ensureSchema
  cases h : ss.find? (·.name == name) with
  | none =>
    have : ss.any (·.name == name) = false := by simpa using h
    simp [this, h]
  | some s =>
    have : ss.any (·.name == name) = true :=
      List.any_eq_true.2 ⟨s, List.mem_of_find?_eq_some h,
        List.find?_some (p := fun r : Schema => r.name == name) h⟩
    simp [this, h]

theorem find?_ensureSchema_ne (h : other ≠ name) (ss : List Schema) :
    (ensureSchema name ss).find? (·.name == other) = ss.find? (·.name == other) := by
  unfold ensureSchema
  split
  · rfl
  · simp [List.find?_append, h.symm]

theorem schema?_addTable_self (db : Database) :
    (db.addTable name t).schema? name = some ⟨name, db.tablesIn name ++ [t]⟩ := by
  have key : (pushTable name t (ensureSchema name db.schemas)).find? (·.name == name) = _ :=
    find?_pushTable_self (find?_ensureSchema_self db.schemas)
  unfold addTable schema?
  rw [key, tablesIn]
  cases h : db.schema? name with
  | none =>
    unfold schema? at h
    simp [h]
  | some s =>
    have hn := name_of_schema? h
    unfold schema? at h
    simp [h, hn]

theorem schema?_addTable_ne (h : other ≠ name) (db : Database) :
    (db.addTable name t).schema? other = db.schema? other := by
  unfold addTable schema?
  rw [find?_pushTable_ne h, find?_ensureSchema_ne h]

theorem tablesIn_addTable_self (db : Database) :
    (db.addTable name t).tablesIn name = db.tablesIn name ++ [t] := by
  rw [tablesIn, schema?_addTable_self]

theorem tablesIn_addTable_ne (h : other ≠ name) (db : Database) :
    (db.addTable name t).tablesIn other = db.tablesIn other := by
  rw [tablesIn, schema?_addTable_ne h, tablesIn]

theorem schemas_nodup_addTable {db : Database} (h : (db.schemas.map (·.name)).Nodup) :
    ((db.addTable name t).schemas.map (·.name)).Nodup := by
  unfold addTable
  rw [map_name_pushTable, map_name_ensureSchema]
  split
  · exact h
  · rename_i hn
    exact List.nodup_append.2 ⟨h, List.nodup_singleton _, fun a ha b hb => by
      rw [List.mem_singleton.1 hb]
      rintro rfl
      exact hn ha⟩

/-- A table with a new name and columns of different names keeps a database well-formed. -/
theorem WellFormed.addTable {db : Database} (h : db.WellFormed)
    (hfresh : ∀ u ∈ db.tablesIn t.schema, u.answersTo t.name = false)
    (hcols : (t.columns.map (·.name)).Nodup) : (db.addTable t.schema t).WellFormed := by
  have hnd : ((db.addTable t.schema t).schemas.map (·.name)).Nodup :=
    schemas_nodup_addTable h.schemas_nodup
  refine ⟨hnd, fun s hs => ?_⟩
  have hfound := schema?_of_mem hnd hs
  by_cases hn : s.name = t.schema
  · rw [hn, schema?_addTable_self] at hfound
    obtain rfl := Option.some.inj hfound
    rcases db.tablesIn_cases t.schema with hold | ⟨s, hs, hname, hold⟩
    · -- the table is the first of a new schema
      rw [hold]
      exact ⟨by simp, by simp, by simp, by simpa using hcols⟩
    · rw [hold] at hfresh ⊢
      rw [← hname]
      exact (h.schema s hs).push hname.symm hfresh hcols
  · rw [schema?_addTable_ne hn] at hfound
    exact h.schema s (mem_of_schema? hfound)

end

/-! ## Declarations -/

open Dbml

theorem declare_table (db : Database) (t : Table) (refs : List Relationship) :
    db.declare (.table t refs) =
      if (db.table? t.schema t.name).isSome then .error (.duplicateTable t.name)
      else .ok ((db.addTable t.schema t).addRelationships refs) :=
  rfl

theorem declare_table_eq_ok {db db' : Database} {t : Table} {refs : List Relationship} :
    db.declare (.table t refs) = .ok db' ↔
      (∀ u ∈ db.tablesIn t.schema, u.answersTo t.name = false) ∧
        db' = (db.addTable t.schema t).addRelationships refs := by
  rw [declare_table]
  split
  · rename_i h
    obtain ⟨u, hu, hn⟩ := table?_isSome_iff.1 h
    refine ⟨fun heq => (nomatch heq), fun heq => ?_⟩
    rw [heq.1 u hu] at hn
    cases hn
  · rename_i h
    rw [table?_isSome_iff] at h
    refine ⟨fun heq => ⟨fun u hu => ?_, (Except.ok.inj heq).symm⟩, fun heq => by rw [heq.2]⟩
    rw [Bool.eq_false_iff]
    exact fun hn => h ⟨u, hu, hn⟩

theorem WellFormed.of_schemas {db db' : Database} (h : db.WellFormed)
    (hs : db'.schemas = db.schemas) : db'.WellFormed :=
  ⟨hs ▸ h.schemas_nodup, hs ▸ h.schema⟩

theorem WellFormed.empty : WellFormed {} :=
  ⟨List.nodup_nil, by simp⟩

/-- Every declaration that is accepted keeps the database well-formed. -/
theorem WellFormed.declare {db db' : Database} {d : Declaration} (h : db.WellFormed)
    (hd : d.WellFormed) (heq : db.declare d = .ok db') : db'.WellFormed := by
  cases d with
  | table t refs =>
    obtain ⟨hfresh, rfl⟩ := declare_table_eq_ok.1 heq
    exact (h.addTable hfresh hd).of_schemas rfl
  | refs rs => exact h.of_schemas (Except.ok.inj heq ▸ rfl)
  | enum name => exact h.of_schemas (Except.ok.inj heq ▸ rfl)
  | project name => exact h.of_schemas (Except.ok.inj heq ▸ rfl)
  | remark => exact h.of_schemas (Except.ok.inj heq ▸ rfl)

/-- What every accepted declaration keeps, a list of them keeps. -/
theorem declareAll_induction {P : Database → Prop} {ds : List Declaration} {db db' : Database}
    (step : ∀ d ∈ ds, ∀ db db', P db → db.declare d = .ok db' → P db')
    (heq : ds.foldlM Database.declare db = .ok db') (h : P db) : P db' := by
  induction ds generalizing db with
  | nil => exact Except.ok.inj heq ▸ h
  | cons d ds ih =>
    obtain ⟨mid, hmid, hrest⟩ := bind_eq_ok.1 heq
    exact ih (fun e he => step e (.tail _ he)) hrest (step d (.head _) db mid h hmid)

theorem WellFormed.declareAll {ds : List Declaration} {db db' : Database} (h : db.WellFormed)
    (hds : ∀ d ∈ ds, d.WellFormed) (heq : ds.foldlM Database.declare db = .ok db') :
    db'.WellFormed :=
  declareAll_induction (fun d hd _ _ h heq => h.declare (hds d hd) heq) heq h

/-! ## Tables by name -/

/-- Among the tables of a schema, a name is that of one table, whatever aliases there are. -/
theorem find?_answersTo_self {ts : List Table}
    (h : ts.Pairwise fun t u => t.answersTo u.name = false) {t : Table} (ht : t ∈ ts) :
    ts.find? (·.answersTo t.name) = some t := by
  induction ts with
  | nil => cases ht
  | cons u ts ih =>
    rw [List.pairwise_cons] at h
    rcases List.mem_cons.1 ht with rfl | ht
    · simp [Table.answersTo]
    · rw [List.find?_cons, h.1 t ht]
      exact ih h.2 ht

/-- No table stands at two places. -/
theorem WellFormed.tables_nodup {db : Database} (h : db.WellFormed) : db.tables.Nodup := by
  have hne : ∀ {t u : Table}, t.answersTo u.name = false → t ≠ u := by
    rintro t _ hf rfl
    simp [Table.answersTo] at hf
  refine List.nodup_flatMap.2 ⟨fun s hs => (h.schema s hs).names.imp hne, ?_⟩
  refine List.Pairwise.imp_of_mem ?_ (List.Pairwise.of_map _ (fun _ _ => id) h.schemas_nodup)
  intro s s' hs hs' hname t ht ht'
  apply hname
  rw [← (h.schema s hs).table_schema t ht, (h.schema s' hs').table_schema t ht']

theorem WellFormed.columns_nodup {db : Database} (h : db.WellFormed) {t : Table}
    (ht : t ∈ db.tables) : (t.columns.map (·.name)).Nodup := by
  obtain ⟨s, hs, hts⟩ := mem_tables.1 ht
  exact (h.schema s hs).columns t hts

/-- A table is found under its schema and name. -/
theorem WellFormed.table?_self {db : Database} (h : db.WellFormed) {t : Table}
    (ht : t ∈ db.tables) : db.table? t.schema t.name = some t := by
  obtain ⟨s, hs, hts⟩ := mem_tables.1 ht
  have hw := h.schema s hs
  rw [table?_eq_find?, hw.table_schema t hts, h.tablesIn_self hs]
  exact find?_answersTo_self hw.names hts

/-- Schema and name tell the tables of a database apart. -/
theorem WellFormed.isSame_iff {db : Database} (h : db.WellFormed) {t u : Table}
    (ht : t ∈ db.tables) (hu : u ∈ db.tables) : t.isSame u = true ↔ t = u := by
  simp only [Table.isSame, Bool.and_eq_true, beq_iff_eq]
  refine ⟨fun hn => ?_, fun heq => heq ▸ ⟨rfl, rfl⟩⟩
  have hself := h.table?_self ht
  rw [hn.1, hn.2, h.table?_self hu] at hself
  exact (Option.some.inj hself).symm

end Database

end EntityForge
