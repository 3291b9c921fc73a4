import EntityForge.Proofs.Entity.Columns

/-!
# Broken references

The associations of a table follow all relationships of its database, so an endpoint that is no
column of the database (`Database.IsBroken`) fails every table. Of several such endpoints the first
is reported, whatever the table and whatever was collected before it, and so all tables fail alike
(`associations_fail_alike`).
-/

namespace EntityForge

open Dbml

/-- The endpoints of a relationship, first the one that it leaves. -/
def Relationship.endpoints (r : Relationship) : List Endpoint :=
  [r.source, r.target]

namespace Database

/-- The endpoints of all relationships, in order. -/
def endpoints (db : Database) : List Endpoint :=
  db.relationships.flatMap (·.endpoints)

/-- The endpoint means no table, or a table without its column. -/
def IsBroken (db : Database) (e : Endpoint) : Prop :=
  ∀ t ∈ db.tableOf? e, t.column? e.column = none

instance (db : Database) (e : Endpoint) : Decidable (db.IsBroken e) :=
  inferInstanceAs (Decidable (∀ t ∈ db.tableOf? e, t.column? e.column = none))

/-- The first endpoint that is no column of the database. -/
def firstBroken? (db : Database) : Option Endpoint :=
  db.endpoints.find? fun e => db.IsBroken e

/-! ## One relationship -/

section
variable {db : Database} {e : Endpoint}

theorem IsBroken.endpointTable_eq (h : db.IsBroken e) :
    db.endpointTable e = .error (.unknownColumn e) := by
  unfold endpointTable
  cases ht : db.tableOf? e with
  | none => rfl
  | some t =>
    have hcolumn : t.column? e.column = none := h t ht
    simp only [hcolumn, Option.isSome_none, Bool.false_eq_true, if_false]

theorem exists_endpointTable_eq_ok (h : ¬ db.IsBroken e) : ∃ t, db.endpointTable e = .ok t := by
  simp only [IsBroken, not_forall] at h
  obtain ⟨t, ht, hcolumn⟩ := h
  exact ⟨t, endpointTable_eq_ok.2 ⟨ht, Option.isSome_iff_ne_none.2 hcolumn⟩⟩

theorem link_eq_error_iff {r : Relationship} {err : ResolveError} : db.link r = .error err ↔
    ∃ e, r.endpoints.find? (fun e => db.IsBroken e) = some e ∧ err = .unknownColumn e := by
  unfold link Relationship.endpoints
  by_cases hs : db.IsBroken r.source
  · simp [hs, hs.endpointTable_eq, bind, Except.bind, eq_comm]
  · obtain ⟨source, hsource⟩ := exists_endpointTable_eq_ok hs
    by_cases ht : db.IsBroken r.target
    · simp [hs, ht, hsource, ht.endpointTable_eq, bind, Except.bind, eq_comm]
    · obtain ⟨target, htarget⟩ := exists_endpointTable_eq_ok ht
      simp [hs, ht, hsource, htarget, bind, Except.bind]

end

/-! ## All relationships -/

/-- Relationships are followed up to the first broken endpoint. -/
theorem mapM_link_eq_error_iff {db : Database} {rs : List Relationship} {err : ResolveError} :
    rs.mapM db.link = .error err ↔
      ∃ e, (rs.flatMap (·.endpoints)).find? (fun e => db.IsBroken e) = some e ∧
        err = .unknownColumn e := by
  induction rs with
  | nil => simp [pure, Except.pure]
  | cons r rs ih =>
    rw [List.mapM_cons, List.flatMap_cons, List.find?_append]
    cases hl : db.link r with
    | error err' =>
      obtain ⟨e, he, rfl⟩ := link_eq_error_iff.1 hl
      simp [he, bind, Except.bind, eq_comm]
    | ok l =>
      have hfound : r.endpoints.find? (fun e => db.IsBroken e) = none := by
        by_contra hfound
        obtain ⟨e, he⟩ := Option.ne_none_iff_exists'.1 hfound
        rw [link_eq_error_iff.2 ⟨e, he, rfl⟩] at hl
        cases hl
      rw [hfound, Option.none_or, ← ih]
      cases rs.mapM db.link <;> simp [bind, Except.bind, pure, Except.pure]

/-- A table fails for the first broken endpoint of the database, and for no other reason. -/
theorem associations_eq_error_iff {db : Database} {t : Table} {err : ResolveError} :
    db.associations t = .error err ↔ ∃ e, db.firstBroken? = some e ∧ err = .unknownColumn e := by
  rw [associations, Associations.addAll_eq_links, firstBroken?, endpoints,
    ← mapM_link_eq_error_iff]
  cases db.relationships.mapM db.link <;> simp [Except.map]

theorem firstBroken?_isSome_iff {db : Database} : db.firstBroken?.isSome = true ↔
    ∃ r ∈ db.relationships, db.IsBroken r.source ∨ db.IsBroken r.target := by
  simp [firstBroken?, endpoints, Relationship.endpoints, List.find?_isSome]

end Database

/-- A table has no associations exactly if some relationship of its database has an endpoint that
means no table or a table without that column. The error names the first such endpoint, in the order
of the relationships and the end they leave before the end they arrive at, and is the same for every
other table. -/
theorem associations_fail_alike (db : Database) (t : Table) :
    ((∃ err, db.associations t = .error err) ↔
      ∃ r ∈ db.relationships, db.IsBroken r.source ∨ db.IsBroken r.target) ∧
    (∀ err, db.associations t = .error err ↔ ∃ pre e post,
      db.relationships.flatMap (fun r => [r.source, r.target]) = pre ++ e :: post ∧
        (∀ x ∈ pre, ¬ db.IsBroken x) ∧ db.IsBroken e ∧ err = .unknownColumn e) ∧
    ∀ u err, db.associations u = .error err ↔ db.associations t = .error err := by
  refine ⟨?_, fun err => ?_, fun u err => ?_⟩
  · rw [← Database.firstBroken?_isSome_iff, Option.isSome_iff_exists]
    simp only [Database.associations_eq_error_iff]
    constructor
    · rintro ⟨_, e, he, -⟩
      exact ⟨e, he⟩
    · rintro ⟨e, he⟩
      exact ⟨_, e, he, rfl⟩
  · rw [Database.associations_eq_error_iff]
    simp only [Database.firstBroken?, List.find?_eq_some_iff_append]
    constructor
    · rintro ⟨e, ⟨he, pre, post, hsplit, hpre⟩, rfl⟩
      exact ⟨pre, e, post, hsplit, by simpa using hpre, by simpa using he, rfl⟩
    · rintro ⟨pre, e, post, hsplit, hpre, he, rfl⟩
      exact ⟨e, ⟨by simpa using he, pre, post, hsplit, by simpa using hpre⟩, rfl⟩
  · rw [Database.associations_eq_error_iff, Database.associations_eq_error_iff]

end EntityForge
