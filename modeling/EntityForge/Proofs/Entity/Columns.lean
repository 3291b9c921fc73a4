import EntityForge.Proofs.Entity.Symmetry

/-!
# Columns of an entity

An entity that compiles is made of the columns of its table and of the links at its table
(`Entity.IsOf`, `WellFormed.entity_isOf`). A column is the source of a relationship
(`Database.IsForeignKey`) or a plain member, and never both: the foreign keys that are collected are
the join columns (`Associations.KeysMatch`, kept by every relationship), and a link starts at a
column of its table, so that plain members and join columns are together the columns of the table
(`columns_partition`).
-/

namespace EntityForge

open Dbml

/-! ## Foreign keys and join columns -/

theorem mem_insertNew {xs : List String} {x y : String} : y ∈ insertNew xs x ↔ y ∈ xs ∨ y = x := by
  unfold insertNew
  split
  · rename_i hx
    have hx : x ∈ xs := by simpa using hx
    exact ⟨.inl, fun h => h.elim id fun heq => heq ▸ hx⟩
  · simp

namespace Associations

/-- The foreign keys are the join columns of the outbound associations. -/
def KeysMatch (a : Associations) : Prop :=
  ∀ name, name ∈ a.foreignKeys ↔ name ∈ a.outbound.map (·.joinColumn)

theorem KeysMatch.add {a : Associations} (h : a.KeysMatch) (t source target : Table)
    (r : Relationship) : (a.add t source target r).KeysMatch := by
  intro name
  unfold Associations.add
  by_cases hs : source.isSame t = true
  · have key : name ∈ insertNew a.foreignKeys r.source.column ↔
        name ∈ (a.outbound ++ [target.reference r.source.column]).map (·.joinColumn) := by
      rw [mem_insertNew, h name, List.map_append, List.mem_append, List.map_singleton,
        List.mem_singleton]
      rfl
    rw [if_pos hs]
    split <;> exact key
  · rw [if_neg hs]
    split <;> exact h name

theorem KeysMatch.addAll {db : Database} {t : Table} {a b : Associations} {rs : List Relationship}
    (h : a.KeysMatch) (heq : addAll db t a rs = .ok b) : b.KeysMatch := by
  induction rs generalizing a with
  | nil => exact Except.ok.inj heq ▸ h
  | cons r rs ih =>
    obtain ⟨source, -, heq⟩ := bind_eq_ok.1 heq
    obtain ⟨target, -, heq⟩ := bind_eq_ok.1 heq
    exact ih (h.add t source target r) heq

end Associations

theorem Database.keysMatch_associations {db : Database} {t : Table} {a : Associations}
    (h : db.associations t = .ok a) : a.KeysMatch :=
  Associations.KeysMatch.addAll (fun _ => by simp) h

/-! ## The ends of a link -/

namespace Database

/-- The column of the table is the one that a relationship of the database leaves. -/
def IsForeignKey (db : Database) (t : Table) (column : String) : Prop :=
  ∃ r ∈ db.relationships, db.tableOf? r.source = some t ∧ r.source.column = column

instance (db : Database) (t : Table) (column : String) : Decidable (db.IsForeignKey t column) :=
  inferInstanceAs (Decidable (∃ r ∈ db.relationships,
    db.tableOf? r.source = some t ∧ r.source.column = column))

/-- The columns of the table that refer to nothing. -/
def plainColumns (db : Database) (t : Table) : List Column :=
  t.columns.filter fun col => ¬ db.IsForeignKey t col.name

theorem endpointTable_eq_ok {db : Database} {e : Endpoint} {t : Table} :
    db.endpointTable e = .ok t ↔
      db.tableOf? e = some t ∧ (t.column? e.column).isSome = true := by
  unfold endpointTable
  cases db.tableOf? e with
  | none => simp
  | some u =>
    by_cases hu : (u.column? e.column).isSome = true
    · simp only [hu, if_true, Except.ok.injEq, Option.some.injEq]
      exact ⟨fun h => ⟨h, h ▸ hu⟩, fun h => h.1⟩
    · simp only [hu, Option.some.injEq]
      exact ⟨fun h => (nomatch h), fun h => absurd (h.1 ▸ h.2) hu⟩

theorem column?_isSome_iff {t : Table} {name : String} :
    (t.column? name).isSome = true ↔ name ∈ t.columns.map (·.name) := by
  simp [Table.column?]

section
variable {db : Database} {ls : List Link} (h : db.links = .ok ls)
include h

theorem map_relationship_links : ls.map (·.relationship) = db.relationships := by
  have hall := links_eq_ok.1 h
  clear h
  generalize db.relationships = rs at hall
  induction hall with
  | nil => rfl
  | cons hr _ ih => rw [List.map_cons, ih, (link_eq_ok.1 hr).1]

theorem link_of_mem_links {l : Link} (hl : l ∈ ls) : db.link l.relationship = .ok l := by
  obtain ⟨r, -, hr⟩ := exists_of_mem_mapM h hl
  rwa [(link_eq_ok.1 hr).1]

theorem source_of_mem_links {l : Link} (hl : l ∈ ls) :
    db.tableOf? l.relationship.source = some l.source ∧
      l.relationship.source.column ∈ l.source.columns.map (·.name) := by
  obtain ⟨-, hs, -⟩ := link_eq_ok.1 (link_of_mem_links h hl)
  obtain ⟨htable, hcolumn⟩ := endpointTable_eq_ok.1 hs
  exact ⟨htable, column?_isSome_iff.1 hcolumn⟩

/-- The foreign keys of a table are the columns at which its links start. -/
theorem isForeignKey_iff {t : Table} {column : String} : db.IsForeignKey t column ↔
    ∃ l ∈ ls, l.source = t ∧ l.relationship.source.column = column := by
  constructor
  · rintro ⟨r, hr, htable, hcolumn⟩
    rw [← map_relationship_links h] at hr
    obtain ⟨l, hl, rfl⟩ := List.mem_map.1 hr
    exact ⟨l, hl, Option.some.inj ((source_of_mem_links h hl).1.symm.trans htable), hcolumn⟩
  · rintro ⟨l, hl, rfl, hcolumn⟩
    refine ⟨l.relationship, ?_, (source_of_mem_links h hl).1, hcolumn⟩
    rw [← map_relationship_links h]
    exact List.mem_map_of_mem hl

theorem mem_joinColumns_iff {t : Table} {name : String} :
    name ∈ ((ls.filter (·.source = t)).map (·.reference)).map (·.joinColumn) ↔
      db.IsForeignKey t name := by
  rw [isForeignKey_iff h, List.map_map]
  simp only [List.mem_map, List.mem_filter, decide_eq_true_iff]
  constructor
  · rintro ⟨l, ⟨hl, hs⟩, hname⟩
    exact ⟨l, hl, hs, hname⟩
  · rintro ⟨l, hl, hs, hname⟩
    exact ⟨l, ⟨hl, hs⟩, hname⟩

/-- A foreign key of a table is one of its columns. -/
theorem IsForeignKey.mem_columns {t : Table} {name : String} (hk : db.IsForeignKey t name) :
    name ∈ t.columns.map (·.name) := by
  obtain ⟨l, hl, rfl, rfl⟩ := (isForeignKey_iff h).1 hk
  exact (source_of_mem_links h hl).2

end

end Database

/-! ## Compiled entities -/

/-- What an entity that compiles is made of: the plain columns of the table, the links that leave
it and those that arrive at it. -/
structure Entity.IsOf (e : Entity) (c : Compiler) (db : Database) (ls : List Link) (t : Table) :
    Prop where
  className : e.className = pascalCase t.name
  id : e.id = t.primaryKey?.map c.identifier
  hasIncrement : e.hasIncrement = t.primaryKey?.any (·.isIncrement)
  fields : e.fields = (db.plainColumns t).map c.plainField
  manyToOne : e.manyToOne = (ls.filter (·.source = t)).map (·.reference)
  oneToMany : e.oneToMany = (ls.filter (·.target = t)).map (·.collection)

namespace Compiler

theorem compile_eq_ok {c : Compiler} {db : Database} {t : Table} {e : Entity} :
    c.compile db t = .ok e ↔ ∃ a, db.associations t = .ok a ∧ c.entity t a = e := by
  unfold compile
  cases db.associations t <;> simp

end Compiler

namespace Database

theorem links_of_associations {db : Database} {t : Table} {a : Associations}
    (h : db.associations t = .ok a) : ∃ ls, db.links = .ok ls := by
  rw [associations, Associations.addAll_eq_links] at h
  change (Except.map _ db.links) = _ at h
  cases hls : db.links with
  | error e => rw [hls] at h; cases h
  | ok ls => exact ⟨ls, rfl⟩

/-- The entity of a table of a well-formed database. -/
theorem WellFormed.entity_isOf {db : Database} (hwf : db.WellFormed) {t : Table}
    (ht : t ∈ db.tables) {ls : List Link} (hls : db.links = .ok ls) {a : Associations}
    (ha : db.associations t = .ok a) (c : Compiler) : (c.entity t a).IsOf c db ls t := by
  obtain ⟨b, hb, hout, hin⟩ := associations_eq_links hls hwf ht
  obtain rfl := Except.ok.inj (ha.symm.trans hb)
  refine ⟨rfl, rfl, rfl, ?_, hout, hin⟩
  refine congrArg (List.map _) (List.filter_congr fun col _ => ?_)
  have hkeys : col.name ∈ a.foreignKeys ↔ db.IsForeignKey t col.name := by
    rw [keysMatch_associations ha, hout, mem_joinColumns_iff hls]
  simp [hkeys]

/-- If one table compiles, the endpoints of all relationships are columns. -/
theorem WellFormed.compile_isOf {db : Database} (hwf : db.WellFormed) {t : Table}
    (ht : t ∈ db.tables) {c : Compiler} {e : Entity} (he : c.compile db t = .ok e) :
    ∃ ls, db.links = .ok ls ∧ e.IsOf c db ls t := by
  obtain ⟨a, ha, rfl⟩ := Compiler.compile_eq_ok.1 he
  obtain ⟨ls, hls⟩ := links_of_associations ha
  exact ⟨ls, hls, hwf.entity_isOf ht hls ha c⟩

/-- If the endpoints of all relationships are columns, every table compiles. -/
theorem WellFormed.exists_compile {db : Database} (hwf : db.WellFormed) {ls : List Link}
    (hls : db.links = .ok ls) {t : Table} (ht : t ∈ db.tables) (c : Compiler) :
    ∃ e, c.compile db t = .ok e ∧ e.IsOf c db ls t := by
  obtain ⟨a, ha, -⟩ := associations_eq_links hls hwf ht
  exact ⟨c.entity t a, Compiler.compile_eq_ok.2 ⟨a, ha, rfl⟩, hwf.entity_isOf ht hls ha c⟩

end Database

section
variable {e : Entity} {c : Compiler} {db : Database} {ls : List Link} {t : Table}

theorem Entity.IsOf.columnNames (h : e.IsOf c db ls t) :
    e.fields.map (·.columnName) = (db.plainColumns t).map (·.name) := by
  rw [h.fields, List.map_map]
  rfl

theorem Entity.IsOf.mem_columnNames (h : e.IsOf c db ls t) {name : String} :
    name ∈ e.fields.map (·.columnName) ↔
      name ∈ t.columns.map (·.name) ∧ ¬ db.IsForeignKey t name := by
  rw [h.columnNames]
  simp only [Database.plainColumns, List.mem_map, List.mem_filter, decide_eq_true_iff]
  constructor
  · rintro ⟨col, ⟨hcol, hk⟩, rfl⟩
    exact ⟨⟨col, hcol, rfl⟩, hk⟩
  · rintro ⟨⟨col, hcol, rfl⟩, hk⟩
    exact ⟨col, ⟨hcol, hk⟩, rfl⟩

theorem Entity.IsOf.mem_joinColumns (h : e.IsOf c db ls t) (hls : db.links = .ok ls)
    {name : String} : name ∈ e.manyToOne.map (·.joinColumn) ↔ db.IsForeignKey t name := by
  rw [h.manyToOne, Database.mem_joinColumns_iff hls]

end

/-- In a database that was read, the plain members of an entity that compiles are the columns of
its table that no relationship leaves, each once and in their order; no plain member is for a join
column, and the plain members and the join columns are together the columns of the table. -/
theorem columns_partition {input : String} {db : Database} (h : parse input = .ok db) {t : Table}
    (ht : t ∈ db.tables) {c : Compiler} {e : Entity} (he : c.compile db t = .ok e) :
    e.fields = (t.columns.filter fun col => ¬ db.IsForeignKey t col.name).map c.plainField ∧
      (e.fields.map (·.columnName)).Nodup ∧
      (e.fields.map (·.columnName)).Disjoint (e.manyToOne.map (·.joinColumn)) ∧
      ∀ name, name ∈ t.columns.map (·.name) ↔
        name ∈ e.fields.map (·.columnName) ∨ name ∈ e.manyToOne.map (·.joinColumn) := by
  have hwf := parse_wellFormed h
  obtain ⟨ls, hls, hof⟩ := hwf.compile_isOf ht he
  refine ⟨hof.fields, ?_, fun name hplain hjoin => ?_, fun name => ?_⟩
  · rw [hof.columnNames]
    exact (hwf.columns_nodup ht).sublist (List.filter_sublist.map _)
  · exact (hof.mem_columnNames.1 hplain).2 ((hof.mem_joinColumns hls).1 hjoin)
  · rw [hof.mem_columnNames, hof.mem_joinColumns hls]
    constructor
    · intro hname
      by_cases hk : db.IsForeignKey t name
      · exact .inr hk
      · exact .inl ⟨hname, hk⟩
    · rintro (hplain | hk)
      · exact hplain.1
      · exact hk.mem_columns hls

/-- Two references share a column, and one of them names its table by an alias. -/
theorem columns_partition_shared : ∃ db t e,
    parse "Table s.a as o { k int u int } Table b { k int } Ref: o.u > b.k Ref: s.a.u > b.k" =
      .ok db ∧ t ∈ db.tables ∧ Compiler.compile {} db t = .ok e ∧
      e.manyToOne.map (·.joinColumn) = ["u", "u"] ∧
      (e.fields.map (·.columnName)).Disjoint ["u", "u"] ∧
      ("k" ∈ e.fields.map (·.columnName) ∨ "k" ∈ ["u", "u"]) := by
  obtain ⟨t, ht⟩ : ∃ t : Table,
    t = ⟨"s", "a", some "o", [⟨"k", "int", []⟩, ⟨"u", "int", []⟩], none⟩ := ⟨_, rfl⟩
  obtain ⟨db, hdb⟩ : ∃ db : Database, db = {
      schemas := [⟨"s", [t]⟩, ⟨"public", [⟨"public", "b", none, [⟨"k", "int", []⟩], none⟩]⟩]
      relationships :=
        [⟨none, ⟨"public", "o", "u"⟩, ⟨"public", "b", "k"⟩, .manyToOne⟩,
          ⟨none, ⟨"s", "a", "u"⟩, ⟨"public", "b", "k"⟩, .manyToOne⟩] } := ⟨_, rfl⟩
  obtain ⟨e, he⟩ : ∃ e : Entity, e = ⟨defaultPackage, "a", "A", none, false,
    [⟨"k", "k", .integer, false⟩], [⟨"u", "B", "b"⟩, ⟨"u", "B", "b"⟩], [], []⟩ := ⟨_, rfl⟩
  have h : parse
      "Table s.a as o { k int u int } Table b { k int } Ref: o.u > b.k Ref: s.a.u > b.k" =
        .ok db := by
    rw [hdb, ht]
    decide +kernel
  have hmem : t ∈ db.tables := by
    rw [hdb]
    exact .head _
  have hcompile : Compiler.compile {} db t = .ok e := by
    rw [hdb, ht, he]
    decide +kernel
  have hjoin : e.manyToOne.map (·.joinColumn) = ["u", "u"] := by
    rw [he]
    rfl
  have hcolumn : "k" ∈ t.columns.map (·.name) := by
    rw [ht]
    decide
  obtain ⟨-, -, hdisjoint, hunion⟩ := columns_partition h hmem hcompile
  rw [hjoin] at hdisjoint hunion
  exact ⟨db, t, e, h, hmem, hcompile, hjoin, hdisjoint, (hunion "k").1 hcolumn⟩

end EntityForge
