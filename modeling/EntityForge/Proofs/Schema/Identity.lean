import EntityForge.Proofs.Dbml.Declared

/-!
# Tables are known by schema and name

In a well-formed database an endpoint with the schema and name of a table means that table
(`WellFormed.tableOf?_self`): an alias is only asked where no name answers, and a table that has the
name as its alias stands after the table that has it as its name. So the lookups of a database that
was read give a table itself back (`parse_tables_identified`).
-/

namespace EntityForge

open Dbml

/-- An endpoint with the schema and name of a table means that table. -/
theorem Database.WellFormed.tableOf?_self {db : Database} (h : db.WellFormed) {t : Table}
    (ht : t ∈ db.tables) {e : Endpoint} (hschema : e.schema = t.schema)
    (htable : e.table = t.name) : db.tableOf? e = some t := by
  unfold tableOf?
  rw [hschema, htable, h.table?_self ht]

/-- In a database that was read, schemas have different names and at least one table each, a table
carries the name of its schema and has columns of different names, no table occurs twice, and each
is what its schema and name are looked up as, directly or through an endpoint, whatever aliases the
tables of any schema have. -/
theorem parse_tables_identified {input : String} {db : Database} (h : parse input = .ok db) :
    (db.schemas.map (·.name)).Nodup ∧
    (∀ s ∈ db.schemas, s.tables ≠ [] ∧ ∀ t ∈ s.tables,
      t.schema = s.name ∧ (t.columns.map (·.name)).Nodup) ∧
    db.tables.Nodup ∧
    ∀ t ∈ db.tables, db.table? t.schema t.name = some t ∧
      ∀ e : Endpoint, e.schema = t.schema → e.table = t.name → db.tableOf? e = some t := by
  have hwf := parse_wellFormed h
  refine ⟨hwf.schemas_nodup, fun s hs => ?_, hwf.tables_nodup, fun t ht => ?_⟩
  · have hschema := hwf.schema s hs
    exact ⟨hschema.tables_ne_nil, fun t ht =>
      ⟨hschema.table_schema t ht, hschema.columns t ht⟩⟩
  · exact ⟨hwf.table?_self ht, fun e => hwf.tableOf?_self ht⟩

/-- A name that a later table of the schema and a table of another schema have as an alias. -/
theorem parse_tables_identified_aliased : ∃ db,
    parse "Table b { k int } Table a as b { k int } Table s.c as a { k int }" = .ok db ∧
      db.table? "public" "b" = some ⟨"public", "b", none, [⟨"k", "int", []⟩], none⟩ ∧
      db.tableOf? ⟨"public", "a", "k"⟩ =
        some ⟨"public", "a", some "b", [⟨"k", "int", []⟩], none⟩ := by
  obtain ⟨db, hdb⟩ : ∃ db : Database, db = {
      schemas := [⟨"public", [⟨"public", "b", none, [⟨"k", "int", []⟩], none⟩,
        ⟨"public", "a", some "b", [⟨"k", "int", []⟩], none⟩]⟩,
        ⟨"s", [⟨"s", "c", some "a", [⟨"k", "int", []⟩], none⟩]⟩] } := ⟨_, rfl⟩
  have h : parse "Table b { k int } Table a as b { k int } Table s.c as a { k int }" = .ok db := by
    rw [hdb]
    decide +kernel
  obtain ⟨-, -, -, htables⟩ := parse_tables_identified h
  refine ⟨db, h, ?_, ?_⟩
  · refine (htables ⟨"public", "b", none, [⟨"k", "int", []⟩], none⟩ ?_).1
    rw [hdb]
    decide
  · refine (htables ⟨"public", "a", some "b", [⟨"k", "int", []⟩], none⟩ ?_).2 _ rfl rfl
    rw [hdb]
    decide

end EntityForge
