import EntityForge.Proofs.Entity.Columns
import EntityForge.Proofs.Entity.Readback

/-!
# Members of an entity class

The entity file is a header and the lines of its members (`Entity.entityLines_members`). A member is
marked as the identifier exactly if it is a plain member for a column of the primary key
(`Entity.mem_members_isId`), so the identifier of an entity has its member whenever its column
refers to nothing, and an entity without identifier has no such member (`identifier_member`).
-/

namespace EntityForge

open Dbml

/-- A member of an entity class as it is written. -/
structure Member where
  annotations : List String
  type : String
  name : String

namespace Member

/-- The lines of the member. -/
def lines (m : Member) : List String :=
  memberLines m.annotations m.type m.name

/-- The member is marked as the identifier. -/
def IsId (m : Member) : Prop :=
  "@Id" ∈ m.annotations

instance (m : Member) : Decidable m.IsId :=
  inferInstanceAs (Decidable ("@Id" ∈ m.annotations))

end Member

/-- The member for a column that refers to nothing. -/
def PlainField.member (f : PlainField) (generated : Bool) : Member :=
  ⟨f.annotations generated, f.target.name, f.fieldName⟩

/-- The member that holds another entity. -/
def ManyToOne.member (r : ManyToOne) : Member :=
  ⟨["@ManyToOne(fetch = FetchType.LAZY)", "@JoinColumn(name = \"" ++ r.joinColumn ++ "\")"],
    r.targetClass, r.fieldName⟩

/-- The member that lists other entities. -/
def OneToMany.member (r : OneToMany) : Member :=
  ⟨["@OneToMany(mappedBy = \"" ++ r.mappedBy ++ "\")"], "List<" ++ r.targetClass ++ ">",
    r.fieldName⟩

namespace Entity

/-- The members of the class, in the order in which they are written. -/
def members (e : Entity) : List Member :=
  e.fields.map (·.member e.hasIncrement) ++ e.manyToOne.map (·.member) ++
    e.oneToMany.map (·.member)

/-- The lines up to the opening brace of the class. -/
def headerLines (e : Entity) : List String :=
  e.topLines ++ ("" :: (e.annotations.map ("" ++ ·) ++
    ["" ++ ("public class " ++ e.className ++ " ") ++ "\x7b"]))

theorem flatMap_lines_map {α : Type} {xs : List α} {lines : α → List String} (member : α → Member)
    (h : ∀ x, lines x = (member x).lines) :
    xs.flatMap lines = (xs.map member).flatMap (·.lines) := by
  rw [List.flatMap_map]
  exact List.flatMap_congr fun x _ => h x

theorem entityLines_members (e : Entity) :
    e.entityLines = e.headerLines ++ e.members.flatMap (·.lines) ++ ["\x7d"] := by
  rw [entityLines_eq, flatMap_lines_map (PlainField.member · e.hasIncrement) (·.lines_eq _),
    flatMap_lines_map ManyToOne.member (·.lines_eq), flatMap_lines_map OneToMany.member (·.lines_eq),
    members, headerLines]
  simp only [List.flatMap_append, List.append_assoc]

/-- Every member is written in the entity file. -/
theorem lines_infix {e : Entity} {m : Member} (hm : m ∈ e.members) :
    m.lines <:+: e.entityLines := by
  obtain ⟨before, after, heq⟩ := List.append_of_mem hm
  rw [entityLines_members, heq, List.flatMap_append, List.flatMap_cons]
  exact ⟨e.headerLines ++ before.flatMap (·.lines), after.flatMap (·.lines) ++ ["\x7d"], by simp⟩

end Entity

/-! ## Marks of the identifier -/

theorem ne_append_of_not_prefix {s start : String} (h : ¬ start.toList <+: s.toList)
    (inner ending : String) : s ≠ start ++ inner ++ ending := by
  rintro rfl
  exact h (by simp)

theorem PlainField.isId_member {f : PlainField} {generated : Bool} :
    (f.member generated).IsId ↔ f.isId = true := by
  have hcolumn : "@Id" ≠ "@Column(name = \"" ++ f.columnName ++ "\")" :=
    ne_append_of_not_prefix (by decide) _ _
  unfold member Member.IsId annotations
  cases f.isId <;> cases generated <;> simp [hcolumn]

theorem ManyToOne.not_isId_member (r : ManyToOne) : ¬ r.member.IsId := by
  have hcolumn : "@Id" ≠ "@JoinColumn(name = \"" ++ r.joinColumn ++ "\")" :=
    ne_append_of_not_prefix (by decide) _ _
  simp [member, Member.IsId, hcolumn]

theorem OneToMany.not_isId_member (r : OneToMany) : ¬ r.member.IsId := by
  have hmapped : "@Id" ≠ "@OneToMany(mappedBy = \"" ++ r.mappedBy ++ "\")" :=
    ne_append_of_not_prefix (by decide) _ _
  simp [member, Member.IsId, hmapped]

namespace Entity

/-- The marked members are the plain members for columns of the primary key. -/
theorem mem_members_isId {e : Entity} {m : Member} : m ∈ e.members ∧ m.IsId ↔
    ∃ f ∈ e.fields, f.isId = true ∧ f.member e.hasIncrement = m := by
  simp only [members, List.mem_append, List.mem_map]
  constructor
  · rintro ⟨(⟨f, hf, rfl⟩ | ⟨r, -, rfl⟩) | ⟨r, -, rfl⟩, hid⟩
    · exact ⟨f, hf, PlainField.isId_member.1 hid, rfl⟩
    · exact absurd hid r.not_isId_member
    · exact absurd hid r.not_isId_member
  · rintro ⟨f, hf, hid, rfl⟩
    exact ⟨.inl (.inl ⟨f, hf, rfl⟩), PlainField.isId_member.2 hid⟩

end Entity

/-! ## Key types -/

/-- The repository, the service and the controller take keys of that type. -/
structure Entity.IsKeyedBy (e : Entity) (key : String) : Prop where
  repository : "public interface " ++ e.className ++ "Repository extends JpaRepository<" ++
    e.className ++ ", " ++ key ++ "> \x7b" ∈ e.repositoryLines
  find : "    public Optional<" ++ e.className ++ "> findById(" ++ key ++ " id) \x7b" ∈
    e.serviceLines
  deleteById : "    public void deleteById(" ++ key ++ " id) \x7b" ∈ e.serviceLines
  get : "    public ResponseEntity<" ++ e.className ++ "> get(@PathVariable " ++ key ++
    " id) \x7b" ∈ e.controllerLines
  delete : "    public void delete(@PathVariable " ++ key ++ " id) \x7b" ∈ e.controllerLines

theorem Entity.isKeyedBy_keyType (e : Entity) : e.IsKeyedBy e.keyType.name where
  repository := by simp [repositoryLines]
  find := by simp [serviceLines]
  deleteById := by simp [serviceLines]
  get := by simp [controllerLines]
  delete := by simp [controllerLines]

/-! ## The identifier of a compiled entity -/

section
variable {e : Entity} {c : Compiler} {db : Database} {ls : List Link} {t : Table}

/-- The plain member for the column that identifies the entity, if that column refers to
nothing. -/
theorem Entity.IsOf.identifier_field (h : e.IsOf c db ls t) {i : Identifier} (hi : e.id = some i)
    (hk : ¬ db.IsForeignKey t i.columnName) : (⟨i.columnName, i.fieldName, i.target, true⟩ :
      PlainField) ∈ e.fields := by
  rw [h.id] at hi
  obtain ⟨col, hcol, rfl⟩ := Option.map_eq_some_iff.1 hi
  have hkey : col.isPrimaryKey = true := List.find?_some (p := Column.isPrimaryKey) hcol
  have hplain : col ∈ db.plainColumns t :=
    List.mem_filter.2 ⟨List.mem_of_find?_eq_some hcol, decide_eq_true hk⟩
  rw [h.fields]
  refine List.mem_map.2 ⟨col, hplain, ?_⟩
  rw [Compiler.plainField, hkey]
  rfl

theorem Entity.IsOf.not_isId (h : e.IsOf c db ls t) (hi : e.id = none) {m : Member}
    (hm : m ∈ e.members) : ¬ m.IsId := by
  intro hid
  obtain ⟨f, hf, hkey, -⟩ := Entity.mem_members_isId.1 ⟨hm, hid⟩
  rw [h.fields] at hf
  obtain ⟨col, hcol, rfl⟩ := List.mem_map.1 hf
  rw [h.id, Option.map_eq_none_iff] at hi
  exact List.find?_eq_none.1 hi col (List.mem_filter.1 hcol).1 hkey

end

/-- In a database that was read, an entity that compiles and whose identifier is a column that no
relationship leaves has a plain member for it, which is marked as the identifier in the entity file
and whose type is that of the keys of the other files; an entity without identifier has no member
that is so marked. -/
theorem identifier_member {input : String} {db : Database} (h : parse input = .ok db) {t : Table}
    (ht : t ∈ db.tables) {c : Compiler} {e : Entity} (he : c.compile db t = .ok e) :
    (∀ i, e.id = some i → ¬ db.IsForeignKey t i.columnName →
      ∃ f ∈ e.fields, f.isId = true ∧ f.columnName = i.columnName ∧
        ∃ m ∈ e.members, m.IsId ∧ "@Column(name = \"" ++ i.columnName ++ "\")" ∈ m.annotations ∧
          m.lines <:+: e.entityLines ∧ m.type = f.target.name ∧ e.IsKeyedBy m.type) ∧
    (e.id = none → ∀ m ∈ e.members, ¬ m.IsId) := by
  obtain ⟨ls, -, hof⟩ := (parse_wellFormed h).compile_isOf ht he
  refine ⟨fun i hi hk => ?_, fun hi m hm => hof.not_isId hi hm⟩
  have hf := hof.identifier_field hi hk
  obtain ⟨hm, hid⟩ := Entity.mem_members_isId.2 ⟨_, hf, rfl, rfl⟩
  have hkey : e.keyType = i.target := by
    rw [Entity.keyType, Entity.idType?, hi]
    rfl
  refine ⟨_, hf, rfl, rfl, _, hm, hid, ?_, Entity.lines_infix hm, rfl, ?_⟩
  · simp [PlainField.member, PlainField.annotations]
  · exact hkey ▸ e.isKeyedBy_keyType

/-- A key beside a reference, and a table without a key. -/
theorem identifier_member_beside_reference : ∃ db a b ea eb,
    parse "Table a { n int } Table b { k int [pk] a int [ref: > a.n] }" = .ok db ∧
      a ∈ db.tables ∧ Compiler.compile {} db a = .ok ea ∧ ea.id = none ∧
      b ∈ db.tables ∧ Compiler.compile {} db b = .ok eb ∧ eb.id = some ⟨"k", "k", .integer⟩ ∧
      ¬ db.IsForeignKey b "k" ∧ (∀ m ∈ ea.members, ¬ m.IsId) ∧
      ∃ m ∈ eb.members, m.IsId ∧ "@Column(name = \"" ++ "k" ++ "\")" ∈ m.annotations ∧
        eb.IsKeyedBy m.type := by
  obtain ⟨a, ha⟩ : ∃ a : Table, a = ⟨"public", "a", none, [⟨"n", "int", []⟩], none⟩ := ⟨_, rfl⟩
  obtain ⟨b, hb⟩ : ∃ b : Table,
    b = ⟨"public", "b", none, [⟨"k", "int", [.primaryKey]⟩, ⟨"a", "int", []⟩], none⟩ := ⟨_, rfl⟩
  obtain ⟨db, hdb⟩ : ∃ db : Database, db = {
      schemas := [⟨"public", [a, b]⟩]
      relationships :=
        [⟨none, ⟨"public", "b", "a"⟩, ⟨"public", "a", "n"⟩, .manyToOne⟩] } := ⟨_, rfl⟩
  obtain ⟨ea, hea⟩ : ∃ e : Entity, e = ⟨defaultPackage, "a", "A", none, false,
    [⟨"n", "n", .integer, false⟩], [], [⟨"B", "bs", "a"⟩], ["java.util.List"]⟩ := ⟨_, rfl⟩
  obtain ⟨eb, heb⟩ : ∃ e : Entity, e = ⟨defaultPackage, "b", "B", some ⟨"k", "k", .integer⟩, false,
    [⟨"k", "k", .integer, true⟩], [⟨"a", "A", "a"⟩], [], []⟩ := ⟨_, rfl⟩
  have h : parse "Table a { n int } Table b { k int [pk] a int [ref: > a.n] }" = .ok db := by
    rw [hdb, ha, hb]
    decide +kernel
  have hmem : a ∈ db.tables ∧ b ∈ db.tables := by
    rw [hdb]
    exact ⟨.head _, .tail _ (.head _)⟩
  have hcompile : Compiler.compile {} db a = .ok ea ∧ Compiler.compile {} db b = .ok eb := by
    rw [hdb, ha, hb, hea, heb]
    decide +kernel
  have hid : ea.id = none ∧ eb.id = some ⟨"k", "k", .integer⟩ := by
    rw [hea, heb]
    exact ⟨rfl, rfl⟩
  have hkey : ¬ db.IsForeignKey b "k" := by
    rw [hdb, ha, hb]
    decide
  obtain ⟨f, -, -, -, m, hm, hmark, hcolumn, -, -, hkeyed⟩ :=
    (identifier_member h hmem.2 hcompile.2).1 _ hid.2 hkey
  exact ⟨db, a, b, ea, eb, h, hmem.1, hcompile.1, hid.1, hmem.2, hcompile.2, hid.2, hkey,
    (identifier_member h hmem.1 hcompile.1).2 hid.1, m, hm, hmark, hcolumn, hkeyed⟩

/-- A key that refers to another table has no plain member, and no member is marked. -/
theorem no_member_of_foreign_identifier : ∃ db t e i,
    parse "Table a { k int [pk] } Table b { k int [pk, ref: - a.k] n int }" = .ok db ∧
      t ∈ db.tables ∧ Compiler.compile {} db t = .ok e ∧ e.id = some i ∧
      (¬ ∃ f ∈ e.fields, f.isId = true ∧ f.columnName = i.columnName) ∧
      ∀ m ∈ e.members, ¬ m.IsId := by
  obtain ⟨t, ht⟩ : ∃ t : Table,
    t = ⟨"public", "b", none, [⟨"k", "int", [.primaryKey]⟩, ⟨"n", "int", []⟩], none⟩ := ⟨_, rfl⟩
  refine ⟨{
      schemas := [⟨"public", [⟨"public", "a", none, [⟨"k", "int", [.primaryKey]⟩], none⟩, t]⟩]
      relationships := [⟨none, ⟨"public", "b", "k"⟩, ⟨"public", "a", "k"⟩, .oneToOne⟩] }, t,
    ⟨defaultPackage, "b", "B", some ⟨"k", "k", .integer⟩, false, [⟨"n", "n", .integer, false⟩],
      [⟨"k", "A", "a"⟩], [], []⟩, ⟨"k", "k", .integer⟩, ?_, .tail _ (.head _), ?_, rfl, ?_, ?_⟩
  · rw [ht]
    decide +kernel
  · rw [ht]
    decide +kernel
  · decide
  · decide

end EntityForge
