import EntityForge.Proofs.Entity.Members

/-!
# Names of members

Members are named after columns, after tables that are referred to and after tables that refer to
the entity's, so two of them may get one name. `Database.NamesApart` says of a table that no two of
the names agree, and it holds exactly if the members of the table's entity have different names
(`Entity.IsOf.members_nodup_iff`). A list of entities is mapped by a name of the reference at the
other end of its link, which is then the name of one member only (`members_distinct_iff`).
-/

namespace EntityForge

open Dbml

namespace Database

/-- No two of the names that the members of the table's entity are made from agree. -/
structure NamesApart (db : Database) (ls : List Link) (t : Table) : Prop where
  columns : (db.plainColumns t).Pairwise fun c d => camelCase c.name ≠ camelCase d.name
  /-- The links that leave the table arrive at tables of different names. -/
  references : (ls.filter (·.source = t)).Pairwise fun l m =>
    camelCase l.target.name ≠ camelCase m.target.name
  /-- The links that arrive at the table leave tables of different names. -/
  collections : (ls.filter (·.target = t)).Pairwise fun l m =>
    camelCase l.source.name ≠ camelCase m.source.name
  column_ne_reference : ∀ c ∈ db.plainColumns t, ∀ l ∈ ls, l.source = t →
    camelCase c.name ≠ camelCase l.target.name
  column_ne_collection : ∀ c ∈ db.plainColumns t, ∀ l ∈ ls, l.target = t →
    camelCase c.name ≠ pluralize (camelCase l.source.name)
  reference_ne_collection : ∀ l ∈ ls, l.source = t → ∀ m ∈ ls, m.target = t →
    camelCase l.target.name ≠ pluralize (camelCase m.source.name)

end Database

theorem pluralize_inj {s t : String} : pluralize s = pluralize t ↔ s = t := by
  refine ⟨fun h => String.toList_inj.1 ?_, congrArg pluralize⟩
  simpa [pluralize] using congrArg String.toList h

namespace Entity

theorem map_name_members (e : Entity) : e.members.map (·.name) =
    e.fields.map (·.fieldName) ++ e.manyToOne.map (·.fieldName) ++
      e.oneToMany.map (·.fieldName) := by
  simp only [members, List.map_append, List.map_map]
  rfl

section
variable {e : Entity} {c : Compiler} {db : Database} {ls : List Link} {t : Table}

/-- The names of the members in terms of columns and tables. -/
theorem IsOf.map_name_members (h : e.IsOf c db ls t) : e.members.map (·.name) =
    (db.plainColumns t).map (fun col => camelCase col.name) ++
      (ls.filter (·.source = t)).map (fun l => camelCase l.target.name) ++
      (ls.filter (·.target = t)).map fun l => pluralize (camelCase l.source.name) := by
  rw [e.map_name_members, h.fields, h.manyToOne, h.oneToMany, List.map_map, List.map_map,
    List.map_map]
  rfl

theorem IsOf.members_nodup_iff (h : e.IsOf c db ls t) :
    (e.members.map (·.name)).Nodup ↔ db.NamesApart ls t := by
  rw [h.map_name_members, List.nodup_append, List.nodup_append]
  simp only [List.Nodup, List.pairwise_map, List.forall_mem_map, List.mem_append, or_imp,
    forall_and, List.mem_filter, decide_eq_true_iff, and_imp, ne_eq, pluralize_inj]
  constructor
  · rintro ⟨⟨hcolumns, hreferences, hcr⟩, hcollections, hcc, hrc⟩
    exact ⟨hcolumns, hreferences, hcollections, hcr, hcc, hrc⟩
  · rintro ⟨hcolumns, hreferences, hcollections, hcr, hcc, hrc⟩
    exact ⟨⟨hcolumns, hreferences, hcr⟩, hcollections, hcc, hrc⟩

/-- If the names are apart, a list at the other end of a link is mapped by the name of one member
only. -/
theorem IsOf.count_mappedBy (h : e.IsOf c db ls t) (hnames : db.NamesApart ls t) {l : Link}
    (hl : l ∈ ls) (hs : l.source = t) :
    (e.members.map (·.name)).count l.collection.mappedBy = 1 := by
  refine List.count_eq_one_of_mem (h.members_nodup_iff.2 hnames) ?_
  rw [h.map_name_members, List.mem_append, List.mem_append]
  exact .inl (.inr (List.mem_map.2 ⟨l, List.mem_filter.2 ⟨hl, decide_eq_true hs⟩, rfl⟩))

end

end Entity

/-- In a database that was read, the members of an entity that compiles have different names
exactly if the names they are made from are apart. Each list of entities belongs to a link, and is
mapped by the name of exactly one member of the entity at the other end if the names there are
apart. -/
theorem members_distinct_iff {input : String} {db : Database} (h : parse input = .ok db) {t : Table}
    (ht : t ∈ db.tables) {c : Compiler} {e : Entity} (he : c.compile db t = .ok e) :
    ∃ ls, db.links = .ok ls ∧ ((e.members.map (·.name)).Nodup ↔ db.NamesApart ls t) ∧
      e.oneToMany = (ls.filter (·.target = t)).map (·.collection) ∧
      ∀ l ∈ ls, l.target = t → ∃ source, c.compile db l.source = .ok source ∧
        l.collection.targetClass = source.className ∧
        (db.NamesApart ls l.source →
          (source.members.map (·.name)).count l.collection.mappedBy = 1) := by
  have hwf := parse_wellFormed h
  obtain ⟨ls, hls, hof⟩ := hwf.compile_isOf ht he
  refine ⟨ls, hls, hof.members_nodup_iff, hof.oneToMany, fun l hl _ => ?_⟩
  obtain ⟨source, hsource, hofs⟩ :=
    hwf.exists_compile hls (Database.mem_tables_of_mem_links hls hl).1 c
  exact ⟨source, hsource, hofs.className.symm, fun hnames => hofs.count_mappedBy hnames hl rfl⟩

/-- The list of the entities that refer to a table is mapped by the one member for that table. -/
theorem members_distinct_one_reference : ∃ db a b ea eb,
    parse "Table a { k int } Table b { k int x int [ref: > a.k] }" = .ok db ∧
      a ∈ db.tables ∧ Compiler.compile {} db a = .ok ea ∧
      b ∈ db.tables ∧ Compiler.compile {} db b = .ok eb ∧
      ∃ ls, db.links = .ok ls ∧ db.NamesApart ls a ∧ db.NamesApart ls b ∧
        ∃ l ∈ ls, l.collection ∈ ea.oneToMany ∧ l.collection.targetClass = eb.className ∧
          (eb.members.map (·.name)).count l.collection.mappedBy = 1 := by
  obtain ⟨a, ha⟩ : ∃ a : Table, a = ⟨"public", "a", none, [⟨"k", "int", []⟩], none⟩ := ⟨_, rfl⟩
  obtain ⟨b, hb⟩ : ∃ b : Table,
    b = ⟨"public", "b", none, [⟨"k", "int", []⟩, ⟨"x", "int", []⟩], none⟩ := ⟨_, rfl⟩
  obtain ⟨r, hr⟩ : ∃ r : Relationship,
    r = ⟨none, ⟨"public", "b", "x"⟩, ⟨"public", "a", "k"⟩, .manyToOne⟩ := ⟨_, rfl⟩
  obtain ⟨db, hdb⟩ : ∃ db : Database,
    db = { schemas := [⟨"public", [a, b]⟩], relationships := [r] } := ⟨_, rfl⟩
  obtain ⟨ea, hea⟩ : ∃ e : Entity, e = ⟨defaultPackage, "a", "A", none, false,
    [⟨"k", "k", .integer, false⟩], [], [⟨"B", "bs", "a"⟩], ["java.util.List"]⟩ := ⟨_, rfl⟩
  obtain ⟨eb, heb⟩ : ∃ e : Entity, e = ⟨defaultPackage, "b", "B", none, false,
    [⟨"k", "k", .integer, false⟩], [⟨"x", "A", "a"⟩], [], []⟩ := ⟨_, rfl⟩
  have h : parse "Table a { k int } Table b { k int x int [ref: > a.k] }" = .ok db := by
    rw [hdb, ha, hb, hr]
    decide +kernel
  have hmem : a ∈ db.tables ∧ b ∈ db.tables := by
    rw [hdb]
    exact ⟨.head _, .tail _ (.head _)⟩
  have hcompile : Compiler.compile {} db a = .ok ea ∧ Compiler.compile {} db b = .ok eb := by
    rw [hdb, ha, hb, hr, hea, heb]
    decide +kernel
  have hnodup : (ea.members.map (·.name)).Nodup ∧ (eb.members.map (·.name)).Nodup := by
    rw [hea, heb]
    decide
  have hlinks : db.links = .ok [⟨r, b, a⟩] := by
    rw [hdb, ha, hb, hr]
    rfl
  obtain ⟨ls, hls, hapart, hlists, hmapped⟩ := members_distinct_iff h hmem.1 hcompile.1
  obtain ⟨ls', hls', hapart', -⟩ := members_distinct_iff h hmem.2 hcompile.2
  obtain rfl := Except.ok.inj (hlinks.symm.trans hls)
  obtain rfl := Except.ok.inj (hlinks.symm.trans hls')
  obtain ⟨source, hsource, hclass, hcount⟩ := hmapped _ (.head _) rfl
  obtain rfl := Except.ok.inj (hcompile.2.symm.trans hsource)
  refine ⟨db, a, b, ea, eb, h, hmem.1, hcompile.1, hmem.2, hcompile.2, _, hlinks,
    hapart.1 hnodup.1, hapart'.1 hnodup.2, _, .head _, ?_, hclass, hcount (hapart'.1 hnodup.2)⟩
  rw [hlists]
  exact List.mem_map_of_mem (List.mem_filter.2 ⟨.head _, decide_eq_true rfl⟩)

/-- Two references between the same tables give two members of one name at each end. -/
theorem members_clash_two_references : ∃ db a b ea eb,
    parse "Table a { k int } Table b { k int x int [ref: > a.k] y int [ref: > a.k] }" = .ok db ∧
      a ∈ db.tables ∧ Compiler.compile {} db a = .ok ea ∧
      b ∈ db.tables ∧ Compiler.compile {} db b = .ok eb ∧
      ¬ (ea.members.map (·.name)).Nodup ∧ ¬ (eb.members.map (·.name)).Nodup ∧
      ∃ o ∈ ea.oneToMany, o.targetClass = eb.className ∧
        (eb.members.map (·.name)).count o.mappedBy = 2 := by
  refine ⟨{
      schemas := [⟨"public", [⟨"public", "a", none, [⟨"k", "int", []⟩], none⟩,
        ⟨"public", "b", none, [⟨"k", "int", []⟩, ⟨"x", "int", []⟩, ⟨"y", "int", []⟩], none⟩]⟩]
      relationships :=
        [⟨none, ⟨"public", "b", "x"⟩, ⟨"public", "a", "k"⟩, .manyToOne⟩,
          ⟨none, ⟨"public", "b", "y"⟩, ⟨"public", "a", "k"⟩, .manyToOne⟩] },
    _, _,
    ⟨defaultPackage, "a", "A", none, false, [⟨"k", "k", .integer, false⟩], [],
      [⟨"B", "bs", "a"⟩, ⟨"B", "bs", "a"⟩], ["java.util.List"]⟩,
    ⟨defaultPackage, "b", "B", none, false, [⟨"k", "k", .integer, false⟩],
      [⟨"x", "A", "a"⟩, ⟨"y", "A", "a"⟩], [], []⟩,
    ?_, .head _, ?_, .tail _ (.head _), ?_, ?_, ?_, _, .head _, rfl, ?_⟩
  all_goals decide +kernel

end EntityForge
