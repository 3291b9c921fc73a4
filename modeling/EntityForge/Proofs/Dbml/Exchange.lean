import EntityForge.Proofs.Dbml.Composition

/-!
# Documents in the other order

A table is refused for a name that an earlier table of its schema has as its name or alias; its own
alias is asked for nothing. So a document may follow another one exactly if none of its tables has
such a name (`parse_joined_isOk_iff`), and of two orders one may be refused alone: the one that
declares an alias before the table of that name (`parse_append_exchange`).
-/

namespace EntityForge

open Dbml

namespace Database

/-- A table of the one database and a table of the other have one name, in the same schema. -/
def SharesName (da db : Database) : Prop :=
  ∃ t ∈ da.tables, ∃ u ∈ db.tables, t.schema = u.schema ∧ t.name = u.name

/-- A table of the one database has the name of a table of the other as its alias, in the same
schema. -/
def ShadowsName (da db : Database) : Prop :=
  ∃ t ∈ da.tables, ∃ u ∈ db.tables, t.schema = u.schema ∧ t.aliasName = some u.name

theorem SharesName.symm {da db : Database} (h : da.SharesName db) : db.SharesName da := by
  obtain ⟨t, ht, u, hu, hschema, hname⟩ := h
  exact ⟨u, hu, t, ht, hschema.symm, hname.symm⟩

theorem sharesName_comm (da db : Database) : da.SharesName db ↔ db.SharesName da :=
  ⟨SharesName.symm, SharesName.symm⟩

/-- What clashes is a table with the name or with the alias of a table of the first database. -/
theorem WellFormed.exists_clashes_iff {da db : Database} (ha : da.WellFormed)
    (hb : db.WellFormed) :
    (∃ t, da.Clashes db t) ↔ da.SharesName db ∨ da.ShadowsName db := by
  have hpair : (∃ t, da.Clashes db t) ↔ ∃ t ∈ da.tables, ∃ u ∈ db.tables,
      t.schema = u.schema ∧ (t.name = u.name ∨ t.aliasName = some u.name) := by
    constructor
    · rintro ⟨u, sa, hsa, sb, hsb, hname, hu, t, ht, hut⟩
      have hta := (ha.schema sa hsa).table_schema t ht
      have hub := (hb.schema sb hsb).table_schema u hu
      exact ⟨t, mem_tables.2 ⟨sa, hsa, ht⟩, u, mem_tables.2 ⟨sb, hsb, hu⟩,
        by rw [hta, hub, hname], hut.imp Eq.symm Eq.symm⟩
    · rintro ⟨t, ht, u, hu, hschema, htu⟩
      obtain ⟨sa, hsa, hta⟩ := mem_tables.1 ht
      obtain ⟨sb, hsb, hub⟩ := mem_tables.1 hu
      have hsa' := (ha.schema sa hsa).table_schema t hta
      have hsb' := (hb.schema sb hsb).table_schema u hub
      exact ⟨u, sa, hsa, sb, hsb, by rw [← hsa', ← hsb', hschema], hub, t, hta,
        htu.imp Eq.symm Eq.symm⟩
  rw [hpair]
  simp only [SharesName, ShadowsName, and_or_left, exists_or]

end Database

namespace Dbml

/-- A document may follow another one exactly if no table of it has a name that is taken there. -/
theorem parse_joined_isOk_iff {a b : String} {da db : Database} (ha : parse a = .ok da)
    (hb : parse b = .ok db) :
    (∃ d, parse (a ++ "\n" ++ b) = .ok d) ↔ ¬ da.SharesName db ∧ ¬ da.ShadowsName db := by
  have hwa := parse_wellFormed ha
  have hwb := parse_wellFormed hb
  obtain ⟨es, hdb, hparse⟩ := parse_joined ha hb
  rw [← not_or, ← hwa.exists_clashes_iff hwb, hparse]
  simp only [clashes_of_declared hwa hwb hdb]
  constructor
  · rintro ⟨d, hd⟩ ⟨t, ⟨refs, hmem⟩, ht⟩
    obtain ⟨_, _, _, _, herr⟩ :=
      Database.merge_declareAll_error hwa.schemas_nodup ⟨t, refs, hmem, ht⟩ hdb
    rw [herr] at hd
    cases hd
  · intro hnone
    exact ⟨_, Database.merge_declareAll hwa.schemas_nodup
      (fun t refs hmem ht => hnone ⟨t, ⟨refs, hmem⟩, ht⟩) hdb⟩

/-- Two accepted documents are both accepted or both refused in the two orders, unless one of them
alone has a table whose alias is the name of a table of the other and no two of their tables have
one name. -/
theorem parse_append_exchange {a b : String} {da db : Database} (ha : parse a = .ok da)
    (hb : parse b = .ok db) :
    ((∃ d, parse (a ++ "\n" ++ b) = .ok d) ↔ ¬ da.SharesName db ∧ ¬ da.ShadowsName db) ∧
    (((∃ d, parse (a ++ "\n" ++ b) = .ok d) ↔ ∃ d, parse (b ++ "\n" ++ a) = .ok d) ↔
      da.SharesName db ∨ (da.ShadowsName db ↔ db.ShadowsName da)) := by
  have hab := parse_joined_isOk_iff ha hb
  have hba := parse_joined_isOk_iff hb ha
  refine ⟨hab, ?_⟩
  rw [hab, hba, Database.sharesName_comm db da]
  by_cases hshared : da.SharesName db
  · simp [hshared]
  · simp [hshared, not_iff_not]

/-- Each document has the name of the table of the other as an alias: neither may follow the
other. -/
theorem parse_append_exchange_crossed :
    ¬ (∃ d,
      parse ("Table a as b \x7b k int \x7d" ++ "\n" ++ "Table b as a \x7b k int \x7d") = .ok d) ∧
    ((∃ d,
      parse ("Table a as b \x7b k int \x7d" ++ "\n" ++ "Table b as a \x7b k int \x7d") = .ok d) ↔
      ∃ d, parse ("Table b as a \x7b k int \x7d" ++ "\n" ++ "Table a as b \x7b k int \x7d") =
        .ok d) := by
  have ha : parse "Table a as b \x7b k int \x7d" = .ok {
      schemas := [⟨"public", [⟨"public", "a", some "b", [⟨"k", "int", []⟩], none⟩]⟩] } := by
    decide +kernel
  have hb : parse "Table b as a \x7b k int \x7d" = .ok {
      schemas := [⟨"public", [⟨"public", "b", some "a", [⟨"k", "int", []⟩], none⟩]⟩] } := by
    decide +kernel
  obtain ⟨haccept, hsame⟩ := parse_append_exchange ha hb
  refine ⟨fun h => (haccept.1 h).2 ?_, hsame.2 (.inr (iff_of_true ?_ ?_))⟩
  all_goals exact ⟨_, .head _, _, .head _, rfl, rfl⟩

/-- An alias that a later table has as its name is refused, and accepted after that table. -/
theorem parse_append_alias_first : ∃ da db d,
    parse "Table a as b \x7b k int \x7d" = .ok da ∧ parse "Table b \x7b k int \x7d" = .ok db ∧
      parse ("Table a as b \x7b k int \x7d" ++ "\n" ++ "Table b \x7b k int \x7d") =
        .error (.duplicateTable "b") ∧
      parse ("Table b \x7b k int \x7d" ++ "\n" ++ "Table a as b \x7b k int \x7d") = .ok d := by
  refine ⟨{ schemas := [⟨"public", [⟨"public", "a", some "b", [⟨"k", "int", []⟩], none⟩]⟩] },
    { schemas := [⟨"public", [⟨"public", "b", none, [⟨"k", "int", []⟩], none⟩]⟩] },
    { schemas := [⟨"public", [⟨"public", "b", none, [⟨"k", "int", []⟩], none⟩,
      ⟨"public", "a", some "b", [⟨"k", "int", []⟩], none⟩]⟩] }, ?_⟩
  decide +kernel

end Dbml

end EntityForge
