import EntityForge.Proofs.Dbml.Composition
import EntityForge.Proofs.Dbml.Continued
import EntityForge.Proofs.Entity.BrokenReferences

/-!
# Unrelated declarations

The entity of a table depends on the relationships of its database and on the tables that these
name. Declarations that come later leave it alone if they bring no table that an earlier endpoint
could name, and no relationship at the table itself (`compile_unrelated`). This needs the earlier
relationships to stay what they are: text that starts with a dot goes on with the last of them
(`compile_dotted_differs`).
-/

namespace EntityForge

open Dbml

/-! ## Relationships of other tables -/

namespace Associations

variable {db db' : Database} {t source target : Table}

/-- A relationship between other tables means nothing for a table. -/
theorem add_of_not_isSame (hs : source.isSame t = false) (ht : target.isSame t = false)
    (a : Associations) (r : Relationship) : a.add t source target r = a := by
  simp [add, hs, ht]

theorem addAll_append (db : Database) (t : Table) (a : Associations)
    (rs rs' : List Relationship) :
    addAll db t a (rs ++ rs') = addAll db t a rs >>= fun a => addAll db t a rs' := by
  induction rs generalizing a with
  | nil => rfl
  | cons r rs ih =>
    rw [List.cons_append, addAll, addAll]
    cases db.endpointTable r.source with
    | error e => rfl
    | ok source =>
      cases db.endpointTable r.target with
      | error e => rfl
      | ok target => exact ih _

/-- Two databases in which endpoints mean the same agree on what relationships mean. -/
theorem addAll_congr {rs : List Relationship}
    (h : ∀ r ∈ rs, ∀ e ∈ r.endpoints, db.endpointTable e = db'.endpointTable e)
    (t : Table) (a : Associations) : addAll db t a rs = addAll db' t a rs := by
  induction rs generalizing a with
  | nil => rfl
  | cons r rs ih =>
    have hsource := h r (.head _) r.source (by simp [Relationship.endpoints])
    have htarget := h r (.head _) r.target (by simp [Relationship.endpoints])
    rw [addAll, addAll, hsource, htarget]
    refine bind_congr fun source => bind_congr fun target => ?_
    exact ih (fun r hr => h r (.tail _ hr)) _

/-- Relationships between other tables add nothing. -/
theorem addAll_of_not_isSame {rs : List Relationship}
    (h : ∀ r ∈ rs, ∀ e ∈ r.endpoints, ∃ u, db.endpointTable e = .ok u ∧ u.isSame t = false)
    (a : Associations) : addAll db t a rs = .ok a := by
  induction rs with
  | nil => rfl
  | cons r rs ih =>
    obtain ⟨source, hsource, hs⟩ := h r (.head _) r.source (by simp [Relationship.endpoints])
    obtain ⟨target, htarget, ht⟩ := h r (.head _) r.target (by simp [Relationship.endpoints])
    rw [addAll, hsource, htarget]
    refine Eq.trans ?_ (ih fun r hr => h r (.tail _ hr))
    exact congrArg (addAll db t · rs) (add_of_not_isSame hs ht a r)

end Associations

namespace Database

/-- An endpoint that no table of the second database answers to means what it means in the first. -/
theorem endpointTable_merge {da db : Database} {e : Endpoint}
    (h : ∀ u ∈ db.tables, u.answersTo e.table = false) :
    (da.merge db).endpointTable e = da.endpointTable e := by
  rw [endpointTable, endpointTable, tableOf?_merge h]

theorem associations_merge {da db : Database} (hwf : (da.merge db).WellFormed) {t : Table}
    (ht : t ∈ da.tables)
    (htables : ∀ u ∈ db.tables, ∀ r ∈ da.relationships, ∀ e ∈ r.endpoints,
      u.answersTo e.table = false)
    (hrelationships : ∀ r ∈ db.relationships, ∀ e ∈ r.endpoints,
      ∃ u, (da.merge db).endpointTable e = .ok u ∧ u ≠ t) :
    (da.merge db).associations t = da.associations t := by
  have hold : ∀ r ∈ da.relationships, ∀ e ∈ r.endpoints,
      (da.merge db).endpointTable e = da.endpointTable e := fun r hr e he =>
    endpointTable_merge fun u hu => htables u hu r hr e he
  have hnew : ∀ r ∈ db.relationships, ∀ e ∈ r.endpoints,
      ∃ u, (da.merge db).endpointTable e = .ok u ∧ u.isSame t = false := by
    intro r hr e he
    obtain ⟨u, hu, hne⟩ := hrelationships r hr e he
    refine ⟨u, hu, Bool.eq_false_iff.2 fun hsame => hne ?_⟩
    exact (hwf.isSame_iff (mem_tables_of_endpointTable hu) (mem_tables_merge_left db ht)).1 hsame
  have hsplit : (da.merge db).relationships = da.relationships ++ db.relationships := rfl
  rw [associations, hsplit, Associations.addAll_append, Associations.addAll_congr hold,
    associations]
  cases Associations.addAll da t {} da.relationships with
  | error e => rfl
  | ok a => exact Associations.addAll_of_not_isSame hnew a

end Database

/-! ## Documents that go on -/

/-- The text after an accepted document declares another database, and is read as it, if it starts
with no dot. A table of the document compiles with the declarations of this text as it does without
them if no table of theirs has the name or the alias that an endpoint of the document uses, and the
endpoints of their relationships are columns of other tables. -/
theorem compile_unrelated {a b : String} {da d : Database} (ha : parse a = .ok da)
    (hd : parse (a ++ "\n" ++ b) = .ok d) (hdot : ∀ us, tokenize b ≠ .ok (.dot :: us)) :
    ∃ db, d = da.merge db ∧ (∀ db', parse b = .ok db' → db' = db) ∧
      ∀ t ∈ da.tables,
        (∀ u ∈ db.tables, ∀ r ∈ da.relationships, ∀ e ∈ r.endpoints,
          u.answersTo e.table = false) →
        (∀ r ∈ db.relationships, ∀ e ∈ r.endpoints,
          ∃ u, d.endpointTable e = .ok u ∧ u ≠ t) →
        ∀ c : Compiler, c.compile d t = c.compile da t := by
  obtain ⟨es, hall, hown⟩ := parse_continued ha hd hdot
  rw [← Database.merge_empty da] at hall
  obtain ⟨db, hdb, rfl⟩ :=
    Database.exists_of_merge_declareAll (parse_wellFormed ha).schemas_nodup hall
  refine ⟨db, rfl, fun db' hb => ?_, fun t ht htables hrelationships c => ?_⟩
  · exact Except.ok.inj ((hown db' hb).symm.trans hdb)
  · unfold Compiler.compile
    rw [Database.associations_merge (parse_wellFormed hd) ht htables hrelationships]

/-- A table of another schema, which refers to a table that a relationship of the first document
names by its alias. -/
theorem compile_unrelated_aliased : ∃ da d t,
    parse "Table a as o \x7b k int \x7d Table s.b \x7b a_k int \x7d Ref: s.b.a_k > o.k" = .ok da ∧
      parse ("Table a as o \x7b k int \x7d Table s.b \x7b a_k int \x7d Ref: s.b.a_k > o.k" ++
        "\n" ++ "Table s.c \x7b k int [ref: > a.k] \x7d") = .ok d ∧
      t ∈ da.tables ∧ d.tables ≠ da.tables ∧ d.relationships ≠ da.relationships ∧
      Compiler.compile {} d t = Compiler.compile {} da t := by
  obtain ⟨ta, hta⟩ : ∃ t : Table, t = ⟨"public", "a", some "o", [⟨"k", "int", []⟩], none⟩ :=
    ⟨_, rfl⟩
  obtain ⟨tb, htb⟩ : ∃ t : Table, t = ⟨"s", "b", none, [⟨"a_k", "int", []⟩], none⟩ := ⟨_, rfl⟩
  obtain ⟨tc, htc⟩ : ∃ t : Table, t = ⟨"s", "c", none, [⟨"k", "int", []⟩], none⟩ := ⟨_, rfl⟩
  obtain ⟨da, hda⟩ : ∃ db : Database, db = {
      schemas := [⟨"public", [ta]⟩, ⟨"s", [tb]⟩]
      relationships :=
        [⟨none, ⟨"s", "b", "a_k"⟩, ⟨"public", "o", "k"⟩, .manyToOne⟩] } := ⟨_, rfl⟩
  obtain ⟨db, hdb⟩ : ∃ db : Database, db = {
      schemas := [⟨"s", [tc]⟩]
      relationships :=
        [⟨none, ⟨"s", "c", "k"⟩, ⟨"public", "a", "k"⟩, .manyToOne⟩] } := ⟨_, rfl⟩
  have ha : parse "Table a as o \x7b k int \x7d Table s.b \x7b a_k int \x7d Ref: s.b.a_k > o.k" =
      .ok da := by
    rw [hda, hta, htb]
    decide +kernel
  have hd : parse ("Table a as o \x7b k int \x7d Table s.b \x7b a_k int \x7d Ref: s.b.a_k > o.k" ++
      "\n" ++ "Table s.c \x7b k int [ref: > a.k] \x7d") = .ok (da.merge db) := by
    rw [hda, hdb, hta, htb, htc]
    decide +kernel
  have hb : parse "Table s.c \x7b k int [ref: > a.k] \x7d" = .ok db := by
    rw [hdb, htc]
    decide +kernel
  obtain ⟨db', -, hown, hsame⟩ := compile_unrelated ha hd (tokenize_ne_dot_of_parse hb)
  obtain rfl := hown db hb
  refine ⟨da, da.merge db, tb, ha, hd, ?_, ?_, ?_, hsame tb ?_ ?_ ?_ {}⟩
  all_goals subst hda hdb hta htb htc
  · decide
  · decide
  · decide
  · decide
  · decide
  · intro r hr e he
    obtain rfl := List.mem_singleton.1 hr
    -- the new relationship leaves the new table and arrives at the one with the alias
    rcases List.mem_pair.1 he with rfl | rfl
    · exact ⟨⟨"s", "c", none, [⟨"k", "int", []⟩], none⟩, by decide, by decide⟩
    · exact ⟨⟨"public", "a", some "o", [⟨"k", "int", []⟩], none⟩, by decide, by decide⟩

/-- Text that starts with a dot goes on with the last endpoint of the document before it. It
declares no table and no relationship, and yet the first table, which no relationship is about,
compiles only with it. -/
theorem compile_dotted_differs : ∃ da d t u,
    parse "Table t \x7b k int \x7d Table u \x7b k int \x7d Ref: u.k > public.u" = .ok da ∧
      parse ("Table t \x7b k int \x7d Table u \x7b k int \x7d Ref: u.k > public.u" ++
        "\n" ++ ".k") = .ok d ∧
      t ∈ da.tables ∧ d.tables = da.tables ∧ t ≠ u ∧
      (∀ r ∈ d.relationships, ∀ e ∈ r.endpoints, d.endpointTable e = .ok u) ∧
      Compiler.compile {} da t =
        .error (.resolve (.unknownColumn ⟨"public", "public", "u"⟩)) ∧
      (Compiler.compile {} d t).isOk = true := by
  refine ⟨{
      schemas := [⟨"public", [⟨"public", "t", none, [⟨"k", "int", []⟩], none⟩,
        ⟨"public", "u", none, [⟨"k", "int", []⟩], none⟩]⟩]
      relationships :=
        [⟨none, ⟨"public", "u", "k"⟩, ⟨"public", "public", "u"⟩, .manyToOne⟩] }, {
      schemas := [⟨"public", [⟨"public", "t", none, [⟨"k", "int", []⟩], none⟩,
        ⟨"public", "u", none, [⟨"k", "int", []⟩], none⟩]⟩]
      relationships :=
        [⟨none, ⟨"public", "u", "k"⟩, ⟨"public", "u", "k"⟩, .manyToOne⟩] },
    ⟨"public", "t", none, [⟨"k", "int", []⟩], none⟩,
    ⟨"public", "u", none, [⟨"k", "int", []⟩], none⟩, ?_⟩
  decide +kernel

end EntityForge
