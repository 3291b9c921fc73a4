import EntityForge.Proofs.Entity.SchemaEntities
import EntityForge.Proofs.Project.Paths

/-!
# Classes that entities refer to

An entity refers to the classes of the tables at the other ends of its links
(`Entity.IsOf.mem_targetClasses_iff`). Links join tables of all schemas, while a project has the
entities of one schema, so a project refers to its own classes alone exactly if no link joins a
table of its schema to one whose class the schema lacks (`entities_closed_iff`). The classes that
are missing are those of the projects of other schemas (`Settings.exists_entities`).
-/

namespace EntityForge

open Dbml

/-! ## References of an entity -/

namespace Entity

/-- The classes that the associations of an entity name. -/
def targetClasses (e : Entity) : List String :=
  e.manyToOne.map (·.targetClass) ++ e.oneToMany.map (·.targetClass)

/-- Every class that one of the entities refers to is that of one of them. -/
def Closed (es : List Entity) : Prop :=
  ∀ e ∈ es, ∀ cls ∈ e.targetClasses, cls ∈ es.map (·.className)

instance (es : List Entity) : Decidable (Closed es) :=
  inferInstanceAs (Decidable (∀ e ∈ es, ∀ cls ∈ e.targetClasses, cls ∈ es.map (·.className)))

/-- An entity refers to the classes of the tables at the other ends of its links. -/
theorem IsOf.mem_targetClasses_iff {e : Entity} {c : Compiler} {db : Database} {ls : List Link}
    {t : Table} (h : e.IsOf c db ls t) {cls : String} : cls ∈ e.targetClasses ↔
      ∃ l ∈ ls, (l.source = t ∧ pascalCase l.target.name = cls) ∨
        (l.target = t ∧ pascalCase l.source.name = cls) := by
  rw [targetClasses, h.manyToOne, h.oneToMany, List.map_map, List.map_map]
  simp only [List.mem_append, List.mem_map, List.mem_filter, decide_eq_true_iff]
  constructor
  · rintro (⟨l, ⟨hl, hend⟩, hcls⟩ | ⟨l, ⟨hl, hend⟩, hcls⟩)
    · exact ⟨l, hl, .inl ⟨hend, hcls⟩⟩
    · exact ⟨l, hl, .inr ⟨hend, hcls⟩⟩
  · rintro ⟨l, hl, ⟨hend, hcls⟩ | ⟨hend, hcls⟩⟩
    · exact .inl ⟨l, ⟨hl, hend⟩, hcls⟩
    · exact .inr ⟨l, ⟨hl, hend⟩, hcls⟩

end Entity

/-! ## Entities of a schema -/

namespace Settings

theorem entities_eq_ok {s : Settings} {db : Database} {es : List Entity} :
    s.entities db = .ok es ↔
      ∃ c, s.compiler = .ok c ∧ c.compileSchema db s.schema = .ok es := by
  unfold entities
  cases s.compiler with
  | error e => simp
  | ok c => cases hr : c.compileSchema db s.schema <;> simp [hr]

section
variable {s : Settings} {db : Database} {es : List Entity} (hwf : db.WellFormed)
  (hes : s.entities db = .ok es)
include hwf hes

/-- The entities of a schema are made of its tables, and the links of the whole database. -/
theorem isOf_of_entities : ∃ c ls, s.compiler = .ok c ∧ db.links = .ok ls ∧
    (∀ e ∈ es, ∃ t ∈ db.tables, t.schema = s.schema ∧ e.IsOf c db ls t) ∧
    ∀ t ∈ db.tables, t.schema = s.schema → ∃ e ∈ es, e.IsOf c db ls t := by
  obtain ⟨c, hc, hschema⟩ := entities_eq_ok.1 hes
  obtain ⟨sch, hsch, hmap⟩ := Compiler.compileSchema_eq_ok.1 hschema
  have hmem := Database.mem_of_schema? hsch
  have hname : sch.name = s.schema := Database.name_of_schema? hsch
  have htables : ∀ t ∈ sch.tables, t ∈ db.tables := fun t ht =>
    Database.mem_tables.2 ⟨sch, hmem, ht⟩
  -- a schema has a table, and a table compiles only if all links are found
  obtain ⟨t, ht⟩ := List.exists_mem_of_ne_nil _ (hwf.schema sch hmem).tables_ne_nil
  obtain ⟨e, -, he⟩ := exists_mem_of_mapM hmap ht
  obtain ⟨ls, hls, -⟩ := hwf.compile_isOf (htables t ht) he
  have hisOf : ∀ {t : Table} {e : Entity}, t ∈ sch.tables → c.compile db t = .ok e →
      e.IsOf c db ls t := by
    intro t e ht he
    obtain ⟨ls', hls', hof⟩ := hwf.compile_isOf (htables t ht) he
    obtain rfl := Except.ok.inj (hls.symm.trans hls')
    exact hof
  refine ⟨c, ls, hc, hls, fun e he => ?_, fun t ht htschema => ?_⟩
  · obtain ⟨t, ht, hcompile⟩ := exists_of_mem_mapM hmap he
    exact ⟨t, htables t ht, ((hwf.schema sch hmem).table_schema t ht).trans hname,
      hisOf ht hcompile⟩
  · rw [hwf.mem_tables_iff, htschema, Database.tablesIn, hsch] at ht
    obtain ⟨e, he, hcompile⟩ := exists_mem_of_mapM hmap ht
    exact ⟨e, he, hisOf ht hcompile⟩

/-- If one schema compiles, so does the schema of every table, and the table's class is among
those of its schema. -/
theorem exists_entities {t : Table} (ht : t ∈ db.tables) : ∃ others,
    entities { s with schema := t.schema } db = .ok others ∧
      pascalCase t.name ∈ others.map (·.className) := by
  obtain ⟨c, ls, hc, hls, -⟩ := isOf_of_entities hwf hes
  obtain ⟨sch, hsch, hts⟩ := Database.mem_tables.1 ht
  have hname := (hwf.schema sch hsch).table_schema t hts
  obtain ⟨others, hothers⟩ : ∃ others, sch.tables.mapM (c.compile db) = .ok others :=
    exists_mapM_eq_ok fun u hu =>
      (hwf.exists_compile hls (Database.mem_tables.2 ⟨sch, hsch, hu⟩) c).imp fun _ he => he.1
  have hfound := Database.schema?_of_mem hwf.schemas_nodup hsch
  rw [← hname] at hfound
  have hok := Compiler.compileSchema_eq_ok.2 ⟨sch, hfound, hothers⟩
  refine ⟨others, entities_eq_ok.2 ⟨c, hc, hok⟩, ?_⟩
  obtain ⟨e, he, hcompile⟩ := exists_mem_of_mapM hothers hts
  exact List.mem_map.2 ⟨e, he, Compiler.className_of_compile hcompile⟩

end

end Settings

/-! ## Closed projects -/

section
variable {s : Settings} {db : Database} {es : List Entity}

theorem mem_classNames_iff (hes : s.entities db = .ok es) {cls : String} :
    cls ∈ es.map (·.className) ↔ ∃ t ∈ db.tablesIn s.schema, pascalCase t.name = cls := by
  rw [Settings.classNames_of_entities hes, List.mem_map]

/-- The entities of a schema in terms of the links of the database. -/
theorem Database.WellFormed.closed_iff (hwf : db.WellFormed) (hes : s.entities db = .ok es) :
    ∃ ls, db.links = .ok ls ∧ (Entity.Closed es ↔ ∀ l ∈ ls,
      (l.source.schema = s.schema → pascalCase l.target.name ∈ es.map (·.className)) ∧
      (l.target.schema = s.schema → pascalCase l.source.name ∈ es.map (·.className))) := by
  obtain ⟨c, ls, -, hls, hent, htab⟩ := Settings.isOf_of_entities hwf hes
  refine ⟨ls, hls, fun hclosed l hl => ?_, fun hends e he cls hcls => ?_⟩
  · have htables := mem_tables_of_mem_links hls hl
    constructor
    · intro hschema
      obtain ⟨e, he, hof⟩ := htab l.source htables.1 hschema
      exact hclosed e he _ (hof.mem_targetClasses_iff.2 ⟨l, hl, .inl ⟨rfl, rfl⟩⟩)
    · intro hschema
      obtain ⟨e, he, hof⟩ := htab l.target htables.2 hschema
      exact hclosed e he _ (hof.mem_targetClasses_iff.2 ⟨l, hl, .inr ⟨rfl, rfl⟩⟩)
  · obtain ⟨t, -, hschema, hof⟩ := hent e he
    obtain ⟨l, hl, ⟨rfl, rfl⟩ | ⟨rfl, rfl⟩⟩ := hof.mem_targetClasses_iff.1 hcls
    · exact (hends l hl).1 hschema
    · exact (hends l hl).2 hschema

/-- A class that an entity refers to is generated for the schema of some table. -/
theorem Database.WellFormed.exists_entities_of_mem_targetClasses (hwf : db.WellFormed)
    (hes : s.entities db = .ok es) {e : Entity} (he : e ∈ es) {cls : String}
    (hcls : cls ∈ e.targetClasses) : ∃ t ∈ db.tables, ∃ others,
      Settings.entities { s with schema := t.schema } db = .ok others ∧
        cls ∈ others.map (·.className) := by
  obtain ⟨c, ls, -, hls, hent, -⟩ := Settings.isOf_of_entities hwf hes
  obtain ⟨t, -, -, hof⟩ := hent e he
  obtain ⟨l, hl, ⟨-, rfl⟩ | ⟨-, rfl⟩⟩ := hof.mem_targetClasses_iff.1 hcls
  · have htarget := (mem_tables_of_mem_links hls hl).2
    exact ⟨l.target, htarget, Settings.exists_entities hwf hes htarget⟩
  · have hsource := (mem_tables_of_mem_links hls hl).1
    exact ⟨l.source, hsource, Settings.exists_entities hwf hes hsource⟩

end

/-- The entities of a schema of a database that was read refer to none but their own classes exactly
if every link with an end in the schema has at its other end a table whose class is that of a table
of the schema, as it is if no link leads into the schema or out of it. Every class that is referred
to is generated with the same settings for the schema of some table. -/
theorem entities_closed_iff {input : String} {db : Database} (h : parse input = .ok db)
    {s : Settings} {es : List Entity} (hes : s.entities db = .ok es) : ∃ ls, db.links = .ok ls ∧
      (Entity.Closed es ↔ ∀ l ∈ ls,
        (l.source.schema = s.schema →
          ∃ t ∈ db.tablesIn s.schema, pascalCase t.name = pascalCase l.target.name) ∧
        (l.target.schema = s.schema →
          ∃ t ∈ db.tablesIn s.schema, pascalCase t.name = pascalCase l.source.name)) ∧
      ((∀ l ∈ ls, l.source.schema = s.schema ↔ l.target.schema = s.schema) →
        Entity.Closed es) ∧
      ∀ e ∈ es, ∀ cls ∈ e.targetClasses, ∃ t ∈ db.tables, ∃ others,
        Settings.entities { s with schema := t.schema } db = .ok others ∧
          cls ∈ others.map (·.className) := by
  have hwf := parse_wellFormed h
  obtain ⟨ls, hls, hclosed⟩ := hwf.closed_iff hes
  simp only [mem_classNames_iff hes] at hclosed
  refine ⟨ls, hls, hclosed, fun hends => hclosed.2 fun l hl => ⟨fun hs => ?_, fun ht => ?_⟩,
    fun e he cls => hwf.exists_entities_of_mem_targetClasses hes he⟩
  · have htarget := hwf.mem_tables_iff.1 (Database.mem_tables_of_mem_links hls hl).2
    rw [(hends l hl).1 hs] at htarget
    exact ⟨l.target, htarget, rfl⟩
  · have hsource := hwf.mem_tables_iff.1 (Database.mem_tables_of_mem_links hls hl).1
    rw [(hends l hl).2 ht] at hsource
    exact ⟨l.source, hsource, rfl⟩

/-- Links within two schemas, and none between them. -/
theorem entities_closed_two_schemas : ∃ db es ls,
    parse "Table a { k int } Table b { a_k int [ref: > a.k] } Table s.c { k int [ref: > s.c.k] }" =
      .ok db ∧ Settings.entities {} db = .ok es ∧ db.links = .ok ls ∧ ls.length = 2 ∧
      (∀ l ∈ ls, l.source.schema = defaultSchema ↔ l.target.schema = defaultSchema) ∧
      Entity.Closed es := by
  obtain ⟨db, hdb⟩ : ∃ db : Database, db = {
      schemas := [⟨"public", [⟨"public", "a", none, [⟨"k", "int", []⟩], none⟩,
        ⟨"public", "b", none, [⟨"a_k", "int", []⟩], none⟩]⟩,
        ⟨"s", [⟨"s", "c", none, [⟨"k", "int", []⟩], none⟩]⟩]
      relationships :=
        [⟨none, ⟨"public", "b", "a_k"⟩, ⟨"public", "a", "k"⟩, .manyToOne⟩,
          ⟨none, ⟨"s", "c", "k"⟩, ⟨"s", "c", "k"⟩, .manyToOne⟩] } := ⟨_, rfl⟩
  have h : parse
      "Table a { k int } Table b { a_k int [ref: > a.k] } Table s.c { k int [ref: > s.c.k] }" =
        .ok db := by
    rw [hdb]
    decide +kernel
  have hok : (Settings.entities {} db).isOk = true := by
    rw [hdb]
    decide +kernel
  have hends : (db.links.map fun ls => ls.map fun l =>
      decide (l.source.schema = defaultSchema ↔ l.target.schema = defaultSchema)) =
        .ok [true, true] := by
    rw [hdb]
    decide +kernel
  obtain ⟨es, hes⟩ := isOk_iff.1 hok
  obtain ⟨ls, hls, -, hclosed, -⟩ := entities_closed_iff h hes
  have hpairs : (ls.map fun l =>
      decide (l.source.schema = defaultSchema ↔ l.target.schema = defaultSchema)) =
        [true, true] := by
    rw [hls] at hends
    exact Except.ok.inj hends
  have hwithin : ∀ l ∈ ls, l.source.schema = defaultSchema ↔ l.target.schema = defaultSchema := by
    intro l hl
    have hpair := List.mem_map_of_mem (f := fun l : Link =>
      decide (l.source.schema = defaultSchema ↔ l.target.schema = defaultSchema)) hl
    rw [hpairs] at hpair
    simpa only [List.mem_cons, List.not_mem_nil, or_false, or_self, decide_eq_true_iff] using hpair
  exact ⟨db, es, ls, h, hes, hls, by simpa using congrArg List.length hpairs, hwithin,
    hclosed hwithin⟩

/-- A table that refers to one of another schema: the class is not among those of the project. -/
theorem entities_not_closed : ∃ db es,
    parse "Table a { k int [ref: > s.b.k] } Table s.b { k int }" = .ok db ∧
      Settings.entities {} db = .ok es ∧ es.map (·.className) = ["A"] ∧
      es.flatMap (·.targetClasses) = ["B"] ∧ ¬ Entity.Closed es := by
  obtain ⟨es, hes⟩ : ∃ es : List Entity, es =
      [⟨defaultPackage, "a", "A", none, false, [], [⟨"k", "B", "b"⟩], [], []⟩] := ⟨_, rfl⟩
  refine ⟨{
    schemas := [⟨"public", [⟨"public", "a", none, [⟨"k", "int", []⟩], none⟩]⟩,
      ⟨"s", [⟨"s", "b", none, [⟨"k", "int", []⟩], none⟩]⟩]
    relationships := [⟨none, ⟨"public", "a", "k"⟩, ⟨"s", "b", "k"⟩, .manyToOne⟩] }, es,
    by decide +kernel, ?_, ?_, ?_, ?_⟩
  all_goals
    rw [hes]
    decide +kernel

end EntityForge
