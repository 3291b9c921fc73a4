import EntityForge.Entity.Compile
import EntityForge.Proofs.Dbml.Declared
import Mathlib.Algebra.BigOperators.Group.List.Basic

/-!
# Associations are symmetric

A relationship with the tables at its ends is a link (`Database.links`). What a table refers to and
is referred to by are the links that leave it and those that arrive at it, in order
(`associations_eq_links`); for tables of a well-formed database these are told apart by the table
itself. Every link therefore makes one record at each of its ends, and the two name each other
(`associations_symmetric`).
-/

namespace EntityForge

open Dbml

/-- A relationship with the tables at its ends. -/
structure Link where
  relationship : Relationship
  source : Table
  target : Table

namespace Link

/-- The record of the link at its source. -/
def reference (l : Link) : ManyToOne :=
  l.target.reference l.relationship.source.column

/-- The record of the link at its target. -/
def collection (l : Link) : OneToMany :=
  l.target.collection l.source

end Link

namespace Database

/-- The link of a relationship, if its endpoints are columns of the database. -/
def link (db : Database) (r : Relationship) : Except ResolveError Link := do
  let source ← db.endpointTable r.source
  let target ← db.endpointTable r.target
  .ok ⟨r, source, target⟩

/-- The links of the relationships, in order. -/
def links (db : Database) : Except ResolveError (List Link) :=
  db.relationships.mapM db.link

/-- Every endpoint of a relationship is a column of the database. -/
def Resolves (db : Database) : Prop :=
  ∀ r ∈ db.relationships,
    (db.endpointTable r.source).isOk = true ∧ (db.endpointTable r.target).isOk = true

instance (db : Database) : Decidable db.Resolves :=
  inferInstanceAs (Decidable (∀ r ∈ db.relationships,
    (db.endpointTable r.source).isOk = true ∧ (db.endpointTable r.target).isOk = true))

end Database

/-! ## Associations and links -/

namespace Associations

theorem addAll_eq_links (db : Database) (t : Table) (a : Associations) (rs : List Relationship) :
    addAll db t a rs = (rs.mapM db.link).map fun ls =>
      ls.foldl (fun a l => a.add t l.source l.target l.relationship) a := by
  induction rs generalizing a with
  | nil => rfl
  | cons r rs ih =>
    rw [addAll, List.mapM_cons, Database.link]
    cases db.endpointTable r.source with
    | error e => rfl
    | ok source =>
      cases db.endpointTable r.target with
      | error e => rfl
      | ok target =>
        refine (ih _).trans ?_
        cases rs.mapM db.link <;> rfl

theorem outbound_add (a : Associations) (t : Table) (l : Link) :
    (a.add t l.source l.target l.relationship).outbound =
      a.outbound ++ if l.source.isSame t then [l.reference] else [] := by
  unfold add
  dsimp only
  split <;> split <;> simp [*, Link.reference]

theorem inbound_add (a : Associations) (t : Table) (l : Link) :
    (a.add t l.source l.target l.relationship).inbound =
      a.inbound ++ if l.target.isSame t then [l.collection] else [] := by
  unfold add
  dsimp only
  split <;> split <;> simp [*, Link.collection]

theorem outbound_foldl_add (a : Associations) (t : Table) (ls : List Link) :
    (ls.foldl (fun a l => a.add t l.source l.target l.relationship) a).outbound =
      a.outbound ++ (ls.filter (·.source.isSame t)).map (·.reference) := by
  induction ls generalizing a with
  | nil => simp
  | cons l ls ih =>
    rw [List.foldl_cons, ih, outbound_add, List.filter_cons]
    split <;> simp

theorem inbound_foldl_add (a : Associations) (t : Table) (ls : List Link) :
    (ls.foldl (fun a l => a.add t l.source l.target l.relationship) a).inbound =
      a.inbound ++ (ls.filter (·.target.isSame t)).map (·.collection) := by
  induction ls generalizing a with
  | nil => simp
  | cons l ls ih =>
    rw [List.foldl_cons, ih, inbound_add, List.filter_cons]
    split <;> simp

end Associations

/-! ## Links of a database -/

theorem isOk_iff {ε α : Type} {x : Except ε α} : x.isOk = true ↔ ∃ a, x = .ok a := by
  cases x <;> simp [Except.isOk, Except.toBool]

theorem mapM_eq_ok {α β ε : Type} {f : α → Except ε β} {xs : List α} {ys : List β} :
    xs.mapM f = .ok ys ↔ List.Forall₂ (fun x y => f x = .ok y) xs ys := by
  induction xs generalizing ys with
  | nil =>
    cases ys with
    | nil => exact ⟨fun _ => .nil, fun _ => rfl⟩
    | cons y ys => exact ⟨fun h => (nomatch h), fun h => (nomatch h)⟩
  | cons x xs ih =>
    rw [List.mapM_cons, bind_eq_ok]
    constructor
    · rintro ⟨y, hy, h⟩
      obtain ⟨ys', hys, h⟩ := bind_eq_ok.1 h
      obtain rfl := Except.ok.inj h
      exact .cons hy (ih.1 hys)
    · rintro (_ | ⟨hy, hys⟩)
      exact ⟨_, hy, bind_eq_ok.2 ⟨_, ih.2 hys, rfl⟩⟩

section
variable {α β ε : Type} {f : α → Except ε β} {xs : List α} {ys : List β}

theorem exists_of_mem_mapM (h : xs.mapM f = .ok ys) {y : β} (hy : y ∈ ys) :
    ∃ x ∈ xs, f x = .ok y := by
  have hall := mapM_eq_ok.1 h
  clear h
  induction hall with
  | nil => cases hy
  | cons hx _ ih =>
    rcases List.mem_cons.1 hy with rfl | hy
    · exact ⟨_, .head _, hx⟩
    · obtain ⟨x, hmem, hx⟩ := ih hy
      exact ⟨x, .tail _ hmem, hx⟩

theorem exists_mem_of_mapM (h : xs.mapM f = .ok ys) {x : α} (hx : x ∈ xs) :
    ∃ y ∈ ys, f x = .ok y := by
  have hall := mapM_eq_ok.1 h
  clear h
  induction hall with
  | nil => cases hx
  | cons hy _ ih =>
    rcases List.mem_cons.1 hx with rfl | hx
    · exact ⟨_, .head _, hy⟩
    · obtain ⟨y, hmem, hy⟩ := ih hx
      exact ⟨y, .tail _ hmem, hy⟩

theorem exists_mapM_eq_ok (h : ∀ x ∈ xs, ∃ y, f x = .ok y) : ∃ ys, xs.mapM f = .ok ys := by
  induction xs with
  | nil => exact ⟨[], rfl⟩
  | cons x xs ih =>
    obtain ⟨y, hy⟩ := h x (.head _)
    obtain ⟨ys, hys⟩ := ih fun x hx => h x (.tail _ hx)
    exact ⟨y :: ys, by rw [List.mapM_cons, hy, hys]; rfl⟩

end

namespace Database

theorem mem_tables_of_table? {db : Database} {schema name : String} {t : Table}
    (h : db.table? schema name = some t) : t ∈ db.tables := by
  obtain ⟨s, hs, ht⟩ := Option.bind_eq_some_iff.1 h
  exact mem_tables.2 ⟨s, mem_of_schema? hs, List.mem_of_find?_eq_some ht⟩

theorem mem_tables_of_endpointTable {db : Database} {e : Endpoint} {t : Table}
    (h : db.endpointTable e = .ok t) : t ∈ db.tables := by
  have htable : db.tableOf? e = some t := by
    unfold endpointTable at h
    split at h
    · split at h
      · cases h
        assumption
      · cases h
    · cases h
  unfold tableOf? at htable
  split at htable
  · rename_i u hu
    obtain rfl := Option.some.inj htable
    exact mem_tables_of_table? hu
  · split at htable
    · exact List.mem_of_find?_eq_some htable
    · cases htable

theorem link_eq_ok {db : Database} {r : Relationship} {l : Link} :
    db.link r = .ok l ↔ l.relationship = r ∧ db.endpointTable r.source = .ok l.source ∧
      db.endpointTable r.target = .ok l.target := by
  simp only [link, bind_eq_ok]
  constructor
  · rintro ⟨source, hs, target, ht, h⟩
    cases h
    exact ⟨rfl, hs, ht⟩
  · rintro ⟨rfl, hs, ht⟩
    exact ⟨_, hs, _, ht, rfl⟩

/-- The links are those of the relationships, one for each and in order. -/
theorem links_eq_ok {db : Database} {ls : List Link} : db.links = .ok ls ↔
    List.Forall₂ (fun r l => db.link r = .ok l) db.relationships ls :=
  mapM_eq_ok

theorem Resolves.links_eq_ok {db : Database} (h : db.Resolves) : ∃ ls, db.links = .ok ls := by
  refine exists_mapM_eq_ok fun r hr => ?_
  obtain ⟨source, hs⟩ := isOk_iff.1 (h r hr).1
  obtain ⟨target, ht⟩ := isOk_iff.1 (h r hr).2
  exact ⟨⟨r, source, target⟩, link_eq_ok.2 ⟨rfl, hs, ht⟩⟩

section
variable {db : Database} {ls : List Link} (h : db.links = .ok ls)
include h

theorem length_links : ls.length = db.relationships.length :=
  (links_eq_ok.1 h).length_eq.symm

/-- The ends of a link are tables of the database. -/
theorem mem_tables_of_mem_links {l : Link} (hl : l ∈ ls) :
    l.source ∈ db.tables ∧ l.target ∈ db.tables := by
  obtain ⟨r, -, hr⟩ := exists_of_mem_mapM h hl
  obtain ⟨-, hs, ht⟩ := link_eq_ok.1 hr
  exact ⟨mem_tables_of_endpointTable hs, mem_tables_of_endpointTable ht⟩

/-- The associations of a table are the links that leave it and those that arrive at it. -/
theorem associations_eq_links (hwf : db.WellFormed) {t : Table} (ht : t ∈ db.tables) :
    ∃ a, db.associations t = .ok a ∧
      a.outbound = (ls.filter (·.source = t)).map (·.reference) ∧
      a.inbound = (ls.filter (·.target = t)).map (·.collection) := by
  have hsource : ls.filter (·.source.isSame t) = ls.filter (·.source = t) :=
    List.filter_congr fun l hl => by
      rw [Bool.eq_iff_iff, hwf.isSame_iff (mem_tables_of_mem_links h hl).1 ht, decide_eq_true_iff]
  have htarget : ls.filter (·.target.isSame t) = ls.filter (·.target = t) :=
    List.filter_congr fun l hl => by
      rw [Bool.eq_iff_iff, hwf.isSame_iff (mem_tables_of_mem_links h hl).2 ht, decide_eq_true_iff]
  refine ⟨ls.foldl (fun a l => a.add t l.source l.target l.relationship) {}, ?_, ?_, ?_⟩
  · rw [associations, Associations.addAll_eq_links]
    exact congrArg _ h
  · rw [Associations.outbound_foldl_add, hsource]
    rfl
  · rw [Associations.inbound_foldl_add, htarget]
    rfl

end

/-! ## Counting -/

/-- A list sorted by different keys loses and repeats nothing. -/
theorem flatMap_filter_perm {α β : Type} [DecidableEq β] {ks : List β} (hnd : ks.Nodup)
    (f : α → β) (xs : List α) :
    (ks.flatMap fun k => xs.filter (f · = k)).Perm (xs.filter (f · ∈ ks)) := by
  induction ks with
  | nil => simp
  | cons k ks ih =>
    rw [List.nodup_cons] at hnd
    have hk : (xs.filter (f · ∈ k :: ks)).filter (f · = k) = xs.filter (f · = k) := by
      rw [List.filter_filter]
      refine List.filter_congr fun x _ => ?_
      by_cases hx : f x = k <;> simp [hx]
    have hks : (xs.filter (f · ∈ k :: ks)).filter (fun x => !decide (f x = k)) =
        xs.filter (f · ∈ ks) := by
      rw [List.filter_filter]
      refine List.filter_congr fun x _ => ?_
      by_cases hx : f x = k
      · simp [hx, hnd.1]
      · simp [hx]
    have hsplit := List.filter_append_perm (f · = k) (xs.filter (f · ∈ k :: ks))
    rw [hk, hks] at hsplit
    rw [List.flatMap_cons]
    exact ((ih hnd.2).append_left _).trans hsplit

theorem length_flatMap_filter {α β : Type} [DecidableEq β] {ks : List β} (hnd : ks.Nodup)
    {f : α → β} {xs : List α} (h : ∀ x ∈ xs, f x ∈ ks) :
    (ks.flatMap fun k => xs.filter (f · = k)).length = xs.length := by
  rw [(flatMap_filter_perm hnd f xs).length_eq, List.filter_eq_self.2 (by simpa using h)]

section
variable {db : Database} {ls : List Link} (h : db.links = .ok ls) (hwf : db.WellFormed)
include h hwf

theorem mapM_associations {ts : List Table} (hts : ∀ t ∈ ts, t ∈ db.tables) :
    ∃ as, ts.mapM db.associations = .ok as ∧
      as.flatMap (·.outbound) =
        (ts.flatMap fun t => ls.filter (·.source = t)).map (·.reference) ∧
      as.flatMap (·.inbound) =
        (ts.flatMap fun t => ls.filter (·.target = t)).map (·.collection) := by
  induction ts with
  | nil => exact ⟨[], rfl, rfl, rfl⟩
  | cons t ts ih =>
    obtain ⟨a, ha, hout, hin⟩ := associations_eq_links h hwf (hts t (.head _))
    obtain ⟨as, has, houts, hins⟩ := ih fun u hu => hts u (.tail _ hu)
    refine ⟨a :: as, ?_, ?_, ?_⟩
    · rw [List.mapM_cons, ha, has]
      rfl
    · rw [List.flatMap_cons, hout, houts, List.flatMap_cons, List.map_append]
    · rw [List.flatMap_cons, hin, hins, List.flatMap_cons, List.map_append]

/-- Over all tables there are as many records of each kind as relationships. -/
theorem length_associations : ∃ as, db.tables.mapM db.associations = .ok as ∧
    (as.flatMap (·.outbound)).length = db.relationships.length ∧
    (as.flatMap (·.inbound)).length = db.relationships.length := by
  obtain ⟨as, has, hout, hin⟩ := mapM_associations h hwf fun t ht => ht
  have hnd := hwf.tables_nodup
  refine ⟨as, has, ?_, ?_⟩
  · rw [hout, List.length_map, length_flatMap_filter hnd fun l hl =>
      (mem_tables_of_mem_links h hl).1, length_links h]
  · rw [hin, List.length_map, length_flatMap_filter hnd fun l hl =>
      (mem_tables_of_mem_links h hl).2, length_links h]

/-- The entities at the ends of a link hold its two records, each behind those of the links before
it. -/
theorem compile_link (c : Compiler) {pre post : List Link} {l : Link}
    (hl : ls = pre ++ l :: post) : ∃ ef et,
      c.compile db l.source = .ok ef ∧ c.compile db l.target = .ok et ∧
      ef.className = pascalCase l.source.name ∧ et.className = pascalCase l.target.name ∧
      ef.manyToOne[(pre.filter (·.source = l.source)).length]? = some l.reference ∧
      et.oneToMany[(pre.filter (·.target = l.target)).length]? = some l.collection := by
  have hmem := mem_tables_of_mem_links h (l := l) (by simp [hl])
  obtain ⟨a, ha, hout, -⟩ := associations_eq_links h hwf hmem.1
  obtain ⟨b, hb, -, hin⟩ := associations_eq_links h hwf hmem.2
  refine ⟨c.entity l.source a, c.entity l.target b, ?_, ?_, rfl, rfl, ?_, ?_⟩
  · rw [Compiler.compile, ha]
  · rw [Compiler.compile, hb]
  · show a.outbound[_]? = _
    rw [hout, hl, List.filter_append, List.filter_cons, if_pos (by simp), List.map_append,
      List.getElem?_append_right (by simp)]
    simp
  · show b.inbound[_]? = _
    rw [hin, hl, List.filter_append, List.filter_cons, if_pos (by simp), List.map_append,
      List.getElem?_append_right (by simp)]
    simp

end

end Database

open Database in
/-- In a database that was read, and whose endpoints are all columns of it, every relationship makes
one record at the table it leaves and one at the table it arrives at, in order and nothing else. The
two records name the classes of each other's entities, and the second the member of the first. -/
theorem associations_symmetric {input : String} {db : Database} (h : parse input = .ok db)
    (hres : db.Resolves) (c : Compiler) : ∃ ls, db.links = .ok ls ∧
      (∀ t ∈ db.tables, ∃ a, db.associations t = .ok a ∧
        a.outbound = (ls.filter (·.source = t)).map (·.reference) ∧
        a.inbound = (ls.filter (·.target = t)).map (·.collection)) ∧
      (∃ as, db.tables.mapM db.associations = .ok as ∧
        (as.flatMap (·.outbound)).length = db.relationships.length ∧
        (as.flatMap (·.inbound)).length = db.relationships.length) ∧
      ∀ pre l post, ls = pre ++ l :: post → ∃ ef et m o,
        c.compile db l.source = .ok ef ∧ c.compile db l.target = .ok et ∧
        ef.manyToOne[(pre.filter (·.source = l.source)).length]? = some m ∧
        et.oneToMany[(pre.filter (·.target = l.target)).length]? = some o ∧
        m.targetClass = et.className ∧ o.targetClass = ef.className ∧
        o.mappedBy = m.fieldName := by
  have hwf := parse_wellFormed h
  obtain ⟨ls, hls⟩ := hres.links_eq_ok
  refine ⟨ls, hls, fun t ht => associations_eq_links hls hwf ht, length_associations hls hwf, ?_⟩
  intro pre l post hl
  obtain ⟨ef, et, hef, het, hfc, htc, hm, ho⟩ := compile_link hls hwf c hl
  exact ⟨ef, et, _, _, hef, het, hm, ho, htc.symm, hfc.symm, rfl⟩

/-- A reference through an alias and one from a table to itself. -/
theorem associations_symmetric_aliased : ∃ db,
    parse "Table a as b { id int } Table c { id int d int [ref: > b.id] } Ref: c.d > c.id" =
      .ok db ∧ db.Resolves ∧ ∃ as, db.tables.mapM db.associations = .ok as ∧
        (as.flatMap (·.outbound)).length = 2 ∧ (as.flatMap (·.inbound)).length = 2 := by
  obtain ⟨db, hdb⟩ : ∃ db : Database, db = {
      schemas := [⟨"public", [⟨"public", "a", some "b", [⟨"id", "int", []⟩], none⟩,
        ⟨"public", "c", none, [⟨"id", "int", []⟩, ⟨"d", "int", []⟩], none⟩]⟩]
      relationships :=
        [⟨none, ⟨"public", "c", "d"⟩, ⟨"public", "b", "id"⟩, .manyToOne⟩,
          ⟨none, ⟨"public", "c", "d"⟩, ⟨"public", "c", "id"⟩, .manyToOne⟩] } := ⟨_, rfl⟩
  have h : parse "Table a as b { id int } Table c { id int d int [ref: > b.id] } Ref: c.d > c.id" =
      .ok db := by
    rw [hdb]
    decide +kernel
  have hres : db.Resolves := by
    rw [hdb]
    decide
  have hcount : db.relationships.length = 2 := by
    rw [hdb]
    rfl
  obtain ⟨ls, -, -, ⟨as, has, hout, hin⟩, -⟩ := associations_symmetric h hres {}
  exact ⟨db, h, hres, as, has, hout.trans hcount, hin.trans hcount⟩

end EntityForge
