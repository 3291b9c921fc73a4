import EntityForge.Proofs.Schema.WellFormed

/-!
# Two databases as one

`Database.merge` puts what a second database declares after what a first one declares, schema by
schema. Declaring for the second database and merging afterwards is the same as declaring for the
merged one (`merge_declareAll`), unless a table's name is taken in the first database
(`Database.Takes`): then the merged one refuses such a table (`merge_declareAll_error`). An endpoint
that no table of the second database answers to names the table that it names in the first
(`tableOf?_merge`).
-/

namespace EntityForge

open Dbml

namespace Database

/-- The two databases as one. A schema of both holds the tables of the first and then those of the
second; the project is that of the second, if it has one. -/
def merge (da db : Database) : Database where
  project := db.project.or da.project
  schemas :=
    da.schemas.map (fun s => { s with tables := s.tables ++ db.tablesIn s.name }) ++
      db.schemas.filter fun s => (da.schema? s.name).isNone
  relationships := da.relationships ++ db.relationships
  enums := da.enums ++ db.enums

/-- The name of the table is the name or alias of a table of the same schema of the database. -/
def Takes (da : Database) (t : Table) : Prop :=
  ∃ u ∈ da.tablesIn t.schema, u.answersTo t.name = true

/-! ## Lists of schemas -/

section
variable {name : String} {t : Table} {q : String → Bool}

theorem pushTable_append_left {xs : List Schema} (h : name ∈ xs.map (·.name)) (ys : List Schema) :
    pushTable name t (xs ++ ys) = pushTable name t xs ++ ys := by
  induction xs with
  | nil => cases h
  | cons s xs ih =>
    by_cases hs : s.name = name
    · simp [pushTable, hs]
    · have : name ∈ xs.map (·.name) := by simpa [Ne.symm hs] using h
      simp [pushTable, hs, ih this]

theorem pushTable_append_right {xs : List Schema} (h : name ∉ xs.map (·.name))
    (ys : List Schema) : pushTable name t (xs ++ ys) = xs ++ pushTable name t ys := by
  induction xs with
  | nil => rfl
  | cons s xs ih =>
    rw [List.map_cons, List.mem_cons, not_or] at h
    simp [pushTable, Ne.symm h.1, ih h.2]

theorem pushTable_map {ss : List Schema} (hnd : (ss.map (·.name)).Nodup)
    (h : name ∈ ss.map (·.name)) {g g' : String → List Table}
    (hne : ∀ other, other ≠ name → g other = g' other) (hself : g name ++ [t] = g' name) :
    pushTable name t (ss.map fun s => { s with tables := s.tables ++ g s.name }) =
      ss.map fun s => { s with tables := s.tables ++ g' s.name } := by
  induction ss with
  | nil => cases h
  | cons s ss ih =>
    rw [List.map_cons, List.nodup_cons] at hnd
    rw [List.map_cons, List.map_cons]
    by_cases hs : s.name = name
    · have hrest : ss.map (fun s => ({ s with tables := s.tables ++ g s.name } : Schema)) =
          ss.map fun s => { s with tables := s.tables ++ g' s.name } :=
        List.map_congr_left fun r hr => by
          rw [hne r.name fun heq => hnd.1 (hs ▸ heq ▸ List.mem_map_of_mem hr)]
      rw [hrest]
      simp [pushTable, hs, ← hself]
    · have hmem : name ∈ ss.map (·.name) := by simpa [Ne.symm hs] using h
      simp only [pushTable, beq_iff_eq, hs, if_false, ih hnd.2 hmem, hne s.name hs]

theorem ensureSchema_of_mem {ss : List Schema} (h : name ∈ ss.map (·.name)) :
    ensureSchema name ss = ss := by
  have : ss.any (·.name == name) = true := by simpa using h
  rw [ensureSchema, if_pos this]

theorem ensureSchema_of_not_mem {ss : List Schema} (h : name ∉ ss.map (·.name)) :
    ensureSchema name ss = ss ++ [⟨name, []⟩] := by
  have : ¬ ss.any (·.name == name) = true := by simpa using h
  rw [ensureSchema, if_neg this]

theorem ensureSchema_append {xs : List Schema} (h : name ∉ xs.map (·.name)) (ys : List Schema) :
    ensureSchema name (xs ++ ys) = xs ++ ensureSchema name ys := by
  by_cases hy : name ∈ ys.map (·.name)
  · rw [ensureSchema_of_mem hy, ensureSchema_of_mem]
    rw [List.map_append]
    exact List.mem_append_right _ hy
  · rw [ensureSchema_of_not_mem hy, ensureSchema_of_not_mem, List.append_assoc]
    rw [List.map_append, List.mem_append, not_or]
    exact ⟨h, hy⟩

theorem filter_pushTable_of_neg (h : q name = false) (ss : List Schema) :
    (pushTable name t ss).filter (fun s => q s.name) = ss.filter fun s => q s.name := by
  induction ss with
  | nil => rfl
  | cons s ss ih =>
    by_cases hs : s.name = name
    · simp [pushTable, hs, h]
    · simp [pushTable, hs, List.filter_cons, ih]

theorem filter_pushTable_of_pos (h : q name = true) (ss : List Schema) :
    (pushTable name t ss).filter (fun s => q s.name) =
      pushTable name t (ss.filter fun s => q s.name) := by
  induction ss with
  | nil => rfl
  | cons s ss ih =>
    by_cases hs : s.name = name
    · simp [pushTable, hs, h]
    · by_cases hq : q s.name = true
      · simp [pushTable, hs, hq, ih]
      · simp [pushTable, hs, hq, ih]

theorem filter_ensureSchema_of_neg (h : q name = false) (ss : List Schema) :
    (ensureSchema name ss).filter (fun s => q s.name) = ss.filter fun s => q s.name := by
  unfold ensureSchema
  split
  · rfl
  · simp [h]

theorem filter_ensureSchema_of_pos (h : q name = true) (ss : List Schema) :
    (ensureSchema name ss).filter (fun s => q s.name) =
      ensureSchema name (ss.filter fun s => q s.name) := by
  have hmem : name ∈ (ss.filter fun s => q s.name).map (·.name) ↔ name ∈ ss.map (·.name) := by
    simp only [List.mem_map, List.mem_filter]
    constructor
    · rintro ⟨s, ⟨hs, -⟩, hn⟩
      exact ⟨s, hs, hn⟩
    · rintro ⟨s, hs, rfl⟩
      exact ⟨s, ⟨hs, h⟩, rfl⟩
  by_cases hn : name ∈ ss.map (·.name)
  · rw [ensureSchema_of_mem hn, ensureSchema_of_mem (hmem.2 hn)]
  · rw [ensureSchema_of_not_mem hn, ensureSchema_of_not_mem (hmem.not.2 hn)]
    simp [h]

end

/-! ## Merged databases -/

theorem merge_empty (da : Database) : da.merge {} = da := by
  simp [merge, tablesIn, schema?]

theorem schema?_merge (da db : Database) (name : String) :
    (da.merge db).schema? name =
      match da.schema? name with
      | some s => some { s with tables := s.tables ++ db.tablesIn name }
      | none => db.schema? name := by
  have hleft : (da.schemas.map fun s : Schema =>
      { s with tables := s.tables ++ db.tablesIn s.name }).find? (·.name == name) =
        (da.schema? name).map fun s => { s with tables := s.tables ++ db.tablesIn s.name } := by
    rw [List.find?_map]
    rfl
  unfold merge
  rw [schema?, List.find?_append, hleft]
  cases h : da.schema? name with
  | some s => simp [name_of_schema? h]
  | none =>
    rw [Option.map_none, Option.none_or, List.find?_filter, schema?]
    congr 1
    funext s
    by_cases hs : s.name = name
    · simp [hs, h]
    · simp [hs]

theorem tablesIn_merge (da db : Database) (name : String) :
    (da.merge db).tablesIn name = da.tablesIn name ++ db.tablesIn name := by
  have h := schema?_merge da db name
  cases ha : da.schema? name with
  | some s =>
    rw [ha] at h
    simp only [tablesIn, h, ha]
  | none =>
    rw [ha] at h
    simp only [tablesIn, h, ha, List.nil_append]

theorem merge_addTable {da : Database} (h : (da.schemas.map (·.name)).Nodup) (db : Database)
    (name : String) (t : Table) :
    (da.merge db).addTable name t = da.merge (db.addTable name t) := by
  have hnames : (da.schemas.map fun s : Schema =>
      { s with tables := s.tables ++ db.tablesIn s.name }).map (·.name) =
        da.schemas.map (·.name) := by
    rw [List.map_map]
    rfl
  have key : pushTable name t (ensureSchema name (da.merge db).schemas) =
      (da.merge (db.addTable name t)).schemas := by
    unfold merge
    dsimp only
    by_cases hn : name ∈ da.schemas.map (·.name)
    · -- the table goes to a schema of the first database
      have hq : (da.schema? name).isNone = false := by
        rw [Option.isNone_eq_false_iff, Option.isSome_iff_ne_none]
        exact fun hnone => schema?_eq_none_iff.1 hnone hn
      rw [ensureSchema_of_mem (by rw [List.map_append, hnames]; exact List.mem_append_left _ hn),
        pushTable_append_left (hnames ▸ hn),
        pushTable_map h hn (fun o ho => (tablesIn_addTable_ne ho db).symm)
          (tablesIn_addTable_self db).symm]
      unfold addTable
      rw [filter_pushTable_of_neg (q := fun n => (da.schema? n).isNone) hq,
        filter_ensureSchema_of_neg (q := fun n => (da.schema? n).isNone) hq]
    · -- the table goes to a schema of the second database only
      have hq : (da.schema? name).isNone = true := by
        rw [schema?_eq_none_iff.2 hn]
        rfl
      have hmap : da.schemas.map (fun s : Schema =>
          { s with tables := s.tables ++ (db.addTable name t).tablesIn s.name }) =
            da.schemas.map fun s : Schema =>
              { s with tables := s.tables ++ db.tablesIn s.name } :=
        List.map_congr_left fun s hs => by
          have hne : s.name ≠ name := fun heq => hn (heq ▸ List.mem_map_of_mem hs)
          rw [tablesIn_addTable_ne hne]
      rw [hmap, ensureSchema_append (hnames ▸ hn), pushTable_append_right (hnames ▸ hn)]
      unfold addTable
      rw [filter_pushTable_of_pos (q := fun n => (da.schema? n).isNone) hq,
        filter_ensureSchema_of_pos (q := fun n => (da.schema? n).isNone) hq]
  unfold addTable
  rw [key]
  rfl

/-! ## Declaring for one of two databases -/

theorem merge_addRelationships (da db : Database) (rs : List Relationship) :
    (da.merge db).addRelationships rs = da.merge (db.addRelationships rs) := by
  simp [addRelationships, merge, tablesIn, schema?]

theorem table?_merge_isSome {da db : Database} {t : Table} :
    ((da.merge db).table? t.schema t.name).isSome = true ↔
      da.Takes t ∨ (db.table? t.schema t.name).isSome = true := by
  rw [table?_isSome_iff, table?_isSome_iff, tablesIn_merge]
  simp only [List.mem_append, or_and_right, exists_or]
  rfl

/-- A declaration accepted for the second database is accepted for the merged one if it is no
table whose name the first database takes. -/
theorem merge_declare {da db db' : Database} {d : Declaration}
    (h : (da.schemas.map (·.name)).Nodup) (hd : ∀ t refs, d = .table t refs → ¬ da.Takes t)
    (heq : db.declare d = .ok db') : (da.merge db).declare d = .ok (da.merge db') := by
  cases d with
  | table t refs =>
    obtain ⟨hfresh, rfl⟩ := declare_table_eq_ok.1 heq
    have hnew : ¬ ((da.merge db).table? t.schema t.name).isSome = true := by
      rw [table?_merge_isSome, table?_isSome_iff]
      rintro (htaken | ⟨u, hu, hn⟩)
      · exact hd t refs rfl htaken
      · rw [hfresh u hu] at hn
        cases hn
    rw [declare_table, if_neg hnew, merge_addTable h, merge_addRelationships]
  | refs rs =>
    obtain rfl := Except.ok.inj heq
    exact congrArg Except.ok (merge_addRelationships da db rs)
  | enum name =>
    obtain rfl := Except.ok.inj heq
    simp [declare, merge, tablesIn, schema?]
  | project name =>
    obtain rfl := Except.ok.inj heq
    simp [declare, merge, tablesIn, schema?]
  | remark =>
    obtain rfl := Except.ok.inj heq
    rfl

/-- The merged database refuses a table whose name the first one takes. -/
theorem merge_declare_taken {da : Database} (db : Database) {t : Table}
    (refs : List Relationship) (ht : da.Takes t) :
    (da.merge db).declare (.table t refs) = .error (.duplicateTable t.name) := by
  rw [declare_table, if_pos (table?_merge_isSome.2 (.inl ht))]

theorem merge_declareAll {da db db' : Database} {ds : List Declaration}
    (h : (da.schemas.map (·.name)).Nodup)
    (hds : ∀ t refs, .table t refs ∈ ds → ¬ da.Takes t)
    (heq : ds.foldlM Database.declare db = .ok db') :
    ds.foldlM Database.declare (da.merge db) = .ok (da.merge db') := by
  induction ds generalizing db with
  | nil => exact congrArg _ (congrArg _ (Except.ok.inj heq))
  | cons d ds ih =>
    obtain ⟨mid, hmid, hrest⟩ := bind_eq_ok.1 heq
    refine bind_eq_ok.2 ⟨da.merge mid, merge_declare h ?_ hmid, ih ?_ hrest⟩
    · exact fun t refs hd => hds t refs (hd ▸ .head _)
    · exact fun t refs hd => hds t refs (.tail _ hd)

/-- With a taken name among them, declarations for the merged database stop at the first. -/
theorem merge_declareAll_error {da db db' : Database} {ds : List Declaration}
    (h : (da.schemas.map (·.name)).Nodup)
    (hds : ∃ t refs, .table t refs ∈ ds ∧ da.Takes t)
    (heq : ds.foldlM Database.declare db = .ok db') :
    ∃ t refs, .table t refs ∈ ds ∧ da.Takes t ∧
      ds.foldlM Database.declare (da.merge db) = .error (.duplicateTable t.name) := by
  induction ds generalizing db with
  | nil =>
    obtain ⟨_, _, hmem, _⟩ := hds
    cases hmem
  | cons d ds ih =>
    obtain ⟨mid, hmid, hrest⟩ := bind_eq_ok.1 heq
    by_cases hd : ∃ t refs, d = .table t refs ∧ da.Takes t
    · obtain ⟨t, refs, rfl, ht⟩ := hd
      refine ⟨t, refs, .head _, ht, ?_⟩
      rw [List.foldlM_cons, merge_declare_taken db refs ht]
      rfl
    · have hlater : ∃ t refs, .table t refs ∈ ds ∧ da.Takes t := by
        obtain ⟨t, refs, hmem, ht⟩ := hds
        rcases List.mem_cons.1 hmem with rfl | hmem
        · exact absurd ⟨t, refs, rfl, ht⟩ hd
        · exact ⟨t, refs, hmem, ht⟩
      obtain ⟨t, refs, hmem, ht, hstop⟩ := ih hlater hrest
      refine ⟨t, refs, .tail _ hmem, ht, ?_⟩
      have hstep := merge_declare h
        (fun u refs hu => fun hut => hd ⟨u, refs, hu, hut⟩) hmid
      rw [List.foldlM_cons, hstep]
      exact hstop

/-! ## Declared tables -/

theorem tablesIn_declare {db db' : Database} {d : Declaration} (heq : db.declare d = .ok db')
    {t : Table} {name : String} :
    t ∈ db'.tablesIn name ↔
      t ∈ db.tablesIn name ∨ ∃ refs, d = .table t refs ∧ t.schema = name := by
  cases d with
  | table u refs =>
    obtain ⟨-, rfl⟩ := declare_table_eq_ok.1 heq
    have hsame : ((db.addTable u.schema u).addRelationships refs).tablesIn name =
        (db.addTable u.schema u).tablesIn name := rfl
    rw [hsame]
    by_cases hn : name = u.schema
    · subst hn
      rw [tablesIn_addTable_self, List.mem_append, List.mem_singleton]
      refine or_congr_right ⟨fun hu => ⟨refs, by rw [hu], by rw [hu]⟩, ?_⟩
      rintro ⟨_, hu, -⟩
      injection hu with hu
      exact hu.symm
    · rw [tablesIn_addTable_ne hn]
      refine ⟨.inl, ?_⟩
      rintro (ht | ⟨_, hu, hschema⟩)
      · exact ht
      · injection hu with hu
        exact absurd (hu ▸ hschema.symm) hn
  | refs rs =>
    obtain rfl := Except.ok.inj heq
    simp [tablesIn, schema?, addRelationships]
  | enum e =>
    obtain rfl := Except.ok.inj heq
    simp [tablesIn, schema?]
  | project p =>
    obtain rfl := Except.ok.inj heq
    simp [tablesIn, schema?]
  | remark =>
    obtain rfl := Except.ok.inj heq
    simp

/-- The tables of a schema are those declared for it. -/
theorem tablesIn_declareAll {ds : List Declaration} {db db' : Database}
    (heq : ds.foldlM Database.declare db = .ok db') {t : Table} {name : String} :
    t ∈ db'.tablesIn name ↔
      t ∈ db.tablesIn name ∨ ∃ refs, .table t refs ∈ ds ∧ t.schema = name := by
  induction ds generalizing db with
  | nil =>
    obtain rfl := Except.ok.inj heq
    simp
  | cons d ds ih =>
    obtain ⟨mid, hmid, hrest⟩ := bind_eq_ok.1 heq
    rw [ih hrest, tablesIn_declare hmid]
    simp only [List.mem_cons]
    constructor
    · rintro ((ht | ⟨refs, rfl, hn⟩) | ⟨refs, hmem, hn⟩)
      · exact .inl ht
      · exact .inr ⟨refs, .inl rfl, hn⟩
      · exact .inr ⟨refs, .inr hmem, hn⟩
    · rintro (ht | ⟨refs, rfl | hmem, hn⟩)
      · exact .inl (.inl ht)
      · exact .inl (.inr ⟨refs, rfl, hn⟩)
      · exact .inr ⟨refs, hmem, hn⟩

/-! ## Declared after another database -/

/-- What the merged database accepts the second one accepts by itself. -/
theorem exists_of_merge_declare {da db d : Database} {x : Declaration}
    (h : (da.schemas.map (·.name)).Nodup) (heq : (da.merge db).declare x = .ok d) :
    ∃ db', db.declare x = .ok db' ∧ d = da.merge db' := by
  obtain ⟨db', hdb', hfree⟩ : ∃ db', db.declare x = .ok db' ∧
      ∀ t refs, x = .table t refs → ¬ da.Takes t := by
    cases x with
    | table t refs =>
      have hnew : ¬ ((da.merge db).table? t.schema t.name).isSome = true := by
        intro htaken
        rw [declare_table, if_pos htaken] at heq
        cases heq
      rw [table?_merge_isSome, not_or] at hnew
      refine ⟨_, by rw [declare_table, if_neg hnew.2], ?_⟩
      rintro u refs' ⟨⟩
      exact hnew.1
    | refs rs => exact ⟨_, rfl, nofun⟩
    | enum name => exact ⟨_, rfl, nofun⟩
    | project name => exact ⟨_, rfl, nofun⟩
    | remark => exact ⟨_, rfl, nofun⟩
  rw [merge_declare h hfree hdb'] at heq
  exact ⟨db', hdb', (Except.ok.inj heq).symm⟩

theorem exists_of_merge_declareAll {da db d : Database} {ds : List Declaration}
    (h : (da.schemas.map (·.name)).Nodup) (heq : ds.foldlM Database.declare (da.merge db) = .ok d) :
    ∃ db', ds.foldlM Database.declare db = .ok db' ∧ d = da.merge db' := by
  induction ds generalizing db with
  | nil => exact ⟨db, rfl, (Except.ok.inj heq).symm⟩
  | cons x ds ih =>
    obtain ⟨mid, hmid, hrest⟩ := bind_eq_ok.1 heq
    obtain ⟨db', hdb', rfl⟩ := exists_of_merge_declare h hmid
    obtain ⟨db'', hdb'', hd⟩ := ih hrest
    exact ⟨db'', bind_eq_ok.2 ⟨db', hdb', hdb''⟩, hd⟩

/-! ## Tables of the first database -/

theorem mem_tables_of_mem_tablesIn {db : Database} {name : String} {t : Table}
    (h : t ∈ db.tablesIn name) : t ∈ db.tables := by
  rcases db.tablesIn_cases name with hnone | ⟨s, hs, -, heq⟩
  · rw [hnone] at h
    cases h
  · exact mem_tables.2 ⟨s, hs, heq ▸ h⟩

theorem mem_tables_merge_left {da : Database} (db : Database) {t : Table} (h : t ∈ da.tables) :
    t ∈ (da.merge db).tables := by
  obtain ⟨s, hs, ht⟩ := mem_tables.1 h
  refine mem_tables.2 ⟨_, List.mem_append_left _ (List.mem_map_of_mem hs), ?_⟩
  exact List.mem_append_left _ ht

/-- Tables of the second database that are not asked for are not found. -/
theorem find?_tables_merge {da db : Database} {p : Table → Bool}
    (h : ∀ u ∈ db.tables, p u = false) : (da.merge db).tables.find? p = da.tables.find? p := by
  have hleft : ∀ s : Schema, (s.tables ++ db.tablesIn s.name).find? p = s.tables.find? p := by
    intro s
    have hnone : (db.tablesIn s.name).find? p = none :=
      List.find?_eq_none.2 fun u hu => by simp [h u (mem_tables_of_mem_tablesIn hu)]
    rw [List.find?_append, hnone, Option.or_none]
  have hright : ∀ s ∈ db.schemas.filter fun s => (da.schema? s.name).isNone,
      s.tables.find? p = none := fun s hs =>
    List.find?_eq_none.2 fun u hu => by
      simp [h u (mem_tables.2 ⟨s, (List.mem_filter.1 hs).1, hu⟩)]
  simp only [tables, merge, List.flatMap_append, List.flatMap_map, List.find?_append]
  rw [List.find?_flatMap, List.find?_flatMap, List.find?_flatMap]
  simp only [hleft]
  rw [List.findSome?_eq_none_iff.2 hright, Option.or_none]

theorem tableOf?_merge {da db : Database} {e : Endpoint}
    (h : ∀ u ∈ db.tables, u.answersTo e.table = false) :
    (da.merge db).tableOf? e = da.tableOf? e := by
  have htable : (da.merge db).table? e.schema e.table = da.table? e.schema e.table := by
    have hnone : (db.tablesIn e.schema).find? (·.answersTo e.table) = none :=
      List.find?_eq_none.2 fun u hu => by simp [h u (mem_tables_of_mem_tablesIn hu)]
    rw [table?_eq_find?, table?_eq_find?, tablesIn_merge, List.find?_append, hnone,
      Option.or_none]
  have halias : ∀ u ∈ db.tables, (u.aliasName == some e.table) = false := fun u hu =>
    (Bool.or_eq_false_iff.1 (h u hu)).2
  rw [tableOf?, tableOf?, htable, find?_tables_merge halias]

end Database

end EntityForge
