import EntityForge.Proofs.Entity.BrokenReferences

/-!
# Entities of a whole schema

The entities of a schema are those of its tables, each of which is compiled under its own name:
a name is that of one table of the schema, whatever aliases there are (`compileTable_of_mem`). A
table fails only for the first broken reference of the whole database, so a schema fails exactly if
each of its tables does, and with the same error (`compileSchema_eq_compileTables`).
-/

namespace EntityForge

open Dbml

/-! ## Results of a list -/

section
variable {α β ε : Type} {f g : α → Except ε β} {xs : List α}

theorem mapM_congr (h : ∀ x ∈ xs, f x = g x) : xs.mapM f = xs.mapM g := by
  induction xs with
  | nil => rfl
  | cons x xs ih =>
    rw [List.mapM_cons, List.mapM_cons, h x (.head _), ih fun y hy => h y (.tail _ hy)]

theorem exists_of_mapM_eq_error {e : ε} (h : xs.mapM f = .error e) : ∃ x ∈ xs, f x = .error e := by
  induction xs with
  | nil => cases h
  | cons x xs ih =>
    rw [List.mapM_cons] at h
    cases hx : f x with
    | error e' =>
      rw [hx] at h
      cases h
      exact ⟨x, .head _, hx⟩
    | ok y =>
      cases hxs : xs.mapM f with
      | error e' =>
        rw [hx, hxs] at h
        cases h
        obtain ⟨z, hz, hze⟩ := ih hxs
        exact ⟨z, .tail _ hz, hze⟩
      | ok ys =>
        rw [hx, hxs] at h
        cases h

end

/-! ## One table -/

namespace Compiler

variable {c : Compiler} {db : Database} {schema : String} {s : Schema} {t : Table}

/-- A table is compiled under its own name, whatever aliases the tables before it have. -/
theorem compileTable_of_mem (hwf : db.WellFormed) (hs : db.schema? schema = some s)
    (ht : t ∈ s.tables) : c.compileTable db schema t.name = c.compile db t := by
  have hnames := (hwf.schema s (Database.mem_of_schema? hs)).names
  have hfound : s.table? t.name = some t := Database.find?_answersTo_self hnames ht
  unfold compileTable
  simp only [hs, hfound]

/-- A table fails to compile for the first broken endpoint of the database. -/
theorem compile_eq_error_iff {err : CompileError} : c.compile db t = .error err ↔
    ∃ e, db.firstBroken? = some e ∧ err = .resolve (.unknownColumn e) := by
  unfold compile
  cases ha : db.associations t with
  | error err' =>
    obtain ⟨e, he, rfl⟩ := Database.associations_eq_error_iff.1 ha
    simp [he, eq_comm]
  | ok a =>
    have hnone : ∀ e, db.firstBroken? ≠ some e := fun e he => by
      rw [Database.associations_eq_error_iff.2 ⟨e, he, rfl⟩] at ha
      cases ha
    simp [hnone]

/-! ## All tables of a schema -/

theorem compileSchema_eq_ok {es : List Entity} : c.compileSchema db schema = .ok es ↔
    ∃ s, db.schema? schema = some s ∧ s.tables.mapM (c.compile db) = .ok es := by
  unfold compileSchema
  cases db.schema? schema <;> simp

/-- What fails a schema fails any table. -/
theorem compile_eq_error_of_schema (hs : db.schema? schema = some s) {err : CompileError}
    (h : c.compileSchema db schema = .error err) (u : Table) : c.compile db u = .error err := by
  unfold compileSchema at h
  rw [hs] at h
  obtain ⟨t, -, ht⟩ := exists_of_mapM_eq_error h
  exact compile_eq_error_iff.2 (compile_eq_error_iff.1 ht)

end Compiler

/-- In a database that was read, a schema compiles exactly if it exists and each of its tables
compiles under its name, and the result is the list of their entities in the order of declaration.
If an existing schema fails, each of its tables fails with the same error. If there is no schema of
that name, that is the error of the schema and of every name in it. -/
theorem compileSchema_eq_compileTables {input : String} {db : Database}
    (h : parse input = .ok db) (c : Compiler) (schema : String) :
    ((∃ es, c.compileSchema db schema = .ok es) ↔ ∃ s, db.schema? schema = some s ∧
      ∀ t ∈ s.tables, ∃ e, c.compileTable db schema t.name = .ok e) ∧
    (∀ es, c.compileSchema db schema = .ok es ↔ ∃ s, db.schema? schema = some s ∧
      List.Forall₂ (fun t e => c.compileTable db schema t.name = .ok e) s.tables es) ∧
    (∀ s err, db.schema? schema = some s → c.compileSchema db schema = .error err →
      ∀ t ∈ s.tables, c.compileTable db schema t.name = .error err) ∧
    (db.schema? schema = none → c.compileSchema db schema = .error (.schemaNotFound schema) ∧
      ∀ name, c.compileTable db schema name = .error (.schemaNotFound schema)) := by
  have hwf := parse_wellFormed h
  have hlist : ∀ es, c.compileSchema db schema = .ok es ↔ ∃ s, db.schema? schema = some s ∧
      s.tables.mapM (fun t => c.compileTable db schema t.name) = .ok es := by
    intro es
    rw [Compiler.compileSchema_eq_ok]
    refine exists_congr fun s => and_congr_right fun hs => ?_
    rw [mapM_congr fun t ht => (Compiler.compileTable_of_mem hwf hs ht).symm]
  refine ⟨⟨?_, ?_⟩, fun es => ?_, fun s err hs herr t ht => ?_, fun hnone => ⟨?_, fun name => ?_⟩⟩
  · rintro ⟨es, hes⟩
    obtain ⟨s, hs, hmap⟩ := (hlist es).1 hes
    exact ⟨s, hs, fun t ht => (exists_mem_of_mapM hmap ht).imp fun _ he => he.2⟩
  · rintro ⟨s, hs, hall⟩
    obtain ⟨es, hmap⟩ := exists_mapM_eq_ok hall
    exact ⟨es, (hlist es).2 ⟨s, hs, hmap⟩⟩
  · simp only [hlist, mapM_eq_ok]
  · rw [Compiler.compileTable_of_mem hwf hs ht]
    exact Compiler.compile_eq_error_of_schema hs herr t
  · rw [Compiler.compileSchema, hnone]
  · rw [Compiler.compileTable, hnone]

/-- A schema with a table whose alias is the name of another table. -/
theorem compileSchema_eq_compileTables_aliased : ∃ db s es,
    parse "Table b \x7b k int \x7d Table a as b \x7b k int [ref: > b.k] \x7d" = .ok db ∧
      db.schema? "public" = some s ∧ Compiler.compileSchema {} db "public" = .ok es ∧
      es.map (·.className) = ["B", "A"] ∧
      List.Forall₂ (fun t e => Compiler.compileTable {} db "public" t.name = .ok e)
        s.tables es := by
  obtain ⟨s, hs⟩ : ∃ s : Schema, s = ⟨"public", [⟨"public", "b", none, [⟨"k", "int", []⟩], none⟩,
    ⟨"public", "a", some "b", [⟨"k", "int", []⟩], none⟩]⟩ := ⟨_, rfl⟩
  obtain ⟨db, hdb⟩ : ∃ db : Database, db = {
      schemas := [s]
      relationships :=
        [⟨none, ⟨"public", "a", "k"⟩, ⟨"public", "b", "k"⟩, .manyToOne⟩] } := ⟨_, rfl⟩
  obtain ⟨es, hes⟩ : ∃ es : List Entity, es =
      [⟨defaultPackage, "b", "B", none, false, [⟨"k", "k", .integer, false⟩], [],
        [⟨"A", "as", "b"⟩], [listImport]⟩,
        ⟨defaultPackage, "a", "A", none, false, [], [⟨"k", "B", "b"⟩], [], []⟩] := ⟨_, rfl⟩
  have h : parse "Table b \x7b k int \x7d Table a as b \x7b k int [ref: > b.k] \x7d" =
      .ok db := by
    rw [hdb, hs]
    decide +kernel
  have hschema : db.schema? "public" = some s := by
    rw [hdb, hs]
    decide
  have hcompile : Compiler.compileSchema {} db "public" = .ok es := by
    rw [hdb, hs, hes]
    decide +kernel
  obtain ⟨-, hlist, -⟩ := compileSchema_eq_compileTables h {} "public"
  obtain ⟨s', hs', hall⟩ := (hlist es).1 hcompile
  obtain rfl := Option.some.inj (hschema.symm.trans hs')
  exact ⟨db, s, es, h, hschema, hcompile, by rw [hes]; rfl, hall⟩

end EntityForge
