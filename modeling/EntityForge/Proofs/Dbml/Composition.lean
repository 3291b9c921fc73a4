import EntityForge.Proofs.Dbml.Declared
import EntityForge.Proofs.Dbml.JoinedText
import EntityForge.Proofs.Schema.Merge

/-!
# Documents compose

Two accepted documents, one after the other, declare what both declare (`Database.merge`), unless a
table of the second has a name that is taken in the first (`Database.Clashes`): then the joined
document is refused for such a table (`parse_append`).
-/

namespace EntityForge

open Dbml

/-- The table is one of `db`, and its name is the name or the alias of a table of `da` in the schema
of the same name. -/
def Database.Clashes (da db : Database) (t : Table) : Prop :=
  ∃ sa ∈ da.schemas, ∃ sb ∈ db.schemas, sa.name = sb.name ∧ t ∈ sb.tables ∧
    ∃ u ∈ sa.tables, t.name = u.name ∨ some t.name = u.aliasName

theorem Database.WellFormed.clashes_iff {da db : Database} (ha : da.WellFormed)
    (hb : db.WellFormed) {t : Table} :
    da.Clashes db t ↔ t ∈ db.tablesIn t.schema ∧ da.Takes t := by
  constructor
  · rintro ⟨sa, hsa, sb, hsb, hname, ht, u, hu, hut⟩
    have hschema : t.schema = sb.name := (hb.schema sb hsb).table_schema t ht
    refine ⟨by rwa [hschema, hb.tablesIn_self hsb], u, ?_, ?_⟩
    · rwa [hschema, ← hname, ha.tablesIn_self hsa]
    · rw [Table.answersTo_iff]
      exact hut.imp Eq.symm Eq.symm
  · rintro ⟨ht, u, hu, hut⟩
    obtain ⟨sb, hsb, htsb⟩ := mem_tables.1 (hb.mem_tables_iff.2 ht)
    have hschema : t.schema = sb.name := (hb.schema sb hsb).table_schema t htsb
    rcases da.tablesIn_cases t.schema with hnone | ⟨sa, hsa, hname, heq⟩
    · rw [hnone] at hu
      cases hu
    · refine ⟨sa, hsa, sb, hsb, hname.trans hschema, htsb, u, heq ▸ hu, ?_⟩
      exact (Table.answersTo_iff.1 hut).imp Eq.symm Eq.symm

namespace Dbml

/-- A table declared in the second document clashes if its name is taken in the first. -/
theorem clashes_of_declared {da db : Database} (ha : da.WellFormed) (hb : db.WellFormed)
    {ds : List Declaration} (heq : ds.foldlM Database.declare {} = .ok db) {t : Table} :
    da.Clashes db t ↔ (∃ refs, .table t refs ∈ ds) ∧ da.Takes t := by
  rw [ha.clashes_iff hb, Database.tablesIn_declareAll heq]
  have hnone : t ∉ ({} : Database).tablesIn t.schema := by
    simp [Database.tablesIn, Database.schema?]
  simp [hnone]

/-- The second of two joined documents is declared for the merge of the first with nothing. -/
theorem parse_joined {a b : String} {da db : Database} (ha : parse a = .ok da)
    (hb : parse b = .ok db) :
    ∃ es : List Declaration, es.foldlM Database.declare {} = .ok db ∧
      parse (a ++ "\n" ++ b) = es.foldlM Database.declare (da.merge {}) := by
  obtain ⟨ts, ds, hts, hds, hda⟩ := parse_eq_ok.1 ha
  obtain ⟨us, es, hus, hes, hdb⟩ := parse_eq_ok.1 hb
  have htokens : tokenize (a ++ "\n" ++ b) = .ok (ts ++ us) := by
    rw [tokenize_append hts, hus]
    rfl
  refine ⟨es, hdb, ?_⟩
  rw [parse, htokens, Database.merge_empty]
  refine (parseDeclarations_of_reads (hds.append hes) {}).trans ?_
  rw [List.foldlM_append, hda]
  rfl

/-- Two accepted documents, joined by a line break, are read as both of them, or refused for a table
of the second whose name the first takes. -/
theorem parse_append {a b : String} {da db : Database} (ha : parse a = .ok da)
    (hb : parse b = .ok db) :
    ((∃ t, da.Clashes db t) →
      ∃ t, da.Clashes db t ∧ parse (a ++ "\n" ++ b) = .error (.duplicateTable t.name)) ∧
    ((¬ ∃ t, da.Clashes db t) → parse (a ++ "\n" ++ b) = .ok (da.merge db)) := by
  have hwa := parse_wellFormed ha
  have hwb := parse_wellFormed hb
  obtain ⟨ts, ds, hts, hds, hda⟩ := parse_eq_ok.1 ha
  obtain ⟨us, es, hus, hes, hdb⟩ := parse_eq_ok.1 hb
  have htokens : tokenize (a ++ "\n" ++ b) = .ok (ts ++ us) := by
    rw [tokenize_append hts, hus]
    rfl
  -- the second document is declared for the merge of the first with nothing
  have hparse : parse (a ++ "\n" ++ b) = es.foldlM Database.declare (da.merge {}) := by
    rw [parse, htokens, Database.merge_empty]
    refine (parseDeclarations_of_reads (hds.append hes) {}).trans ?_
    rw [List.foldlM_append, hda]
    rfl
  rw [hparse]
  simp only [clashes_of_declared hwa hwb hdb]
  constructor
  · rintro ⟨t, ⟨refs, hmem⟩, ht⟩
    obtain ⟨u, refs, hmem, hu, herr⟩ :=
      Database.merge_declareAll_error hwa.schemas_nodup ⟨t, refs, hmem, ht⟩ hdb
    exact ⟨u, ⟨⟨refs, hmem⟩, hu⟩, herr⟩
  · intro hnone
    exact Database.merge_declareAll hwa.schemas_nodup
      (fun t refs hmem ht => hnone ⟨t, ⟨refs, hmem⟩, ht⟩) hdb

/-- The second document adds a table to the schema of the first and refers to its table. -/
theorem parse_append_two_tables :
    parse ("Table a { id int }" ++ "\n" ++ "Table b { id int } Ref: b.id > a.id") = .ok {
      schemas := [⟨"public", [⟨"public", "a", none, [⟨"id", "int", []⟩], none⟩,
        ⟨"public", "b", none, [⟨"id", "int", []⟩], none⟩]⟩]
      relationships :=
        [⟨none, ⟨"public", "b", "id"⟩, ⟨"public", "a", "id"⟩, .manyToOne⟩] } := by
  have ha : parse "Table a { id int }" = .ok {
      schemas := [⟨"public", [⟨"public", "a", none, [⟨"id", "int", []⟩], none⟩]⟩] } := by
    decide +kernel
  have hb : parse "Table b { id int } Ref: b.id > a.id" = .ok {
      schemas := [⟨"public", [⟨"public", "b", none, [⟨"id", "int", []⟩], none⟩]⟩]
      relationships :=
        [⟨none, ⟨"public", "b", "id"⟩, ⟨"public", "a", "id"⟩, .manyToOne⟩] } := by
    decide +kernel
  refine (parse_append ha hb).2 ?_
  rintro ⟨t, sa, hsa, sb, hsb, -, ht, u, hu, hut⟩
  obtain rfl := List.mem_singleton.1 hsa
  obtain rfl := List.mem_singleton.1 hsb
  obtain rfl := List.mem_singleton.1 ht
  obtain rfl := List.mem_singleton.1 hu
  revert hut
  decide

end Dbml

end EntityForge
