import EntityForge.Proofs.Entity.Members

/-!
# Generated keys

Whether the database makes the identifiers of an entity is told by the first column of the primary
key, and each member for a column of the key is then marked (`PlainField.isGenerated_member`). So a
plain member is marked exactly if its column belongs to the key and the first column of the key
increments (`generated_member`), whether or not its own column does (`generated_without_increment`).
-/

namespace EntityForge

open Dbml

/-- The database makes the values of the member. -/
def Member.IsGenerated (m : Member) : Prop :=
  "@GeneratedValue(strategy = GenerationType.IDENTITY)" ∈ m.annotations

instance (m : Member) : Decidable m.IsGenerated :=
  inferInstanceAs (Decidable ("@GeneratedValue(strategy = GenerationType.IDENTITY)" ∈ m.annotations))

/-! ## Marks of generated values -/

theorem PlainField.isGenerated_member {f : PlainField} {generated : Bool} :
    (f.member generated).IsGenerated ↔ f.isId = true ∧ generated = true := by
  have hcolumn : "@GeneratedValue(strategy = GenerationType.IDENTITY)" ≠
      "@Column(name = \"" ++ f.columnName ++ "\")" :=
    ne_append_of_not_prefix (by decide) _ _
  unfold member Member.IsGenerated annotations
  cases f.isId <;> cases generated <;> simp [hcolumn]

theorem ManyToOne.not_isGenerated_member (r : ManyToOne) : ¬ r.member.IsGenerated := by
  have hcolumn : "@GeneratedValue(strategy = GenerationType.IDENTITY)" ≠
      "@JoinColumn(name = \"" ++ r.joinColumn ++ "\")" :=
    ne_append_of_not_prefix (by decide) _ _
  simp [member, Member.IsGenerated, hcolumn]

theorem OneToMany.not_isGenerated_member (r : OneToMany) : ¬ r.member.IsGenerated := by
  have hmapped : "@GeneratedValue(strategy = GenerationType.IDENTITY)" ≠
      "@OneToMany(mappedBy = \"" ++ r.mappedBy ++ "\")" :=
    ne_append_of_not_prefix (by decide) _ _
  simp [member, Member.IsGenerated, hmapped]

namespace Entity

variable {e : Entity}

theorem member_mem_members {f : PlainField} (hf : f ∈ e.fields) :
    f.member e.hasIncrement ∈ e.members :=
  List.mem_append_left _ (List.mem_append_left _ (List.mem_map_of_mem hf))

/-- Only plain members are marked. -/
theorem exists_field_of_isGenerated {m : Member} (hm : m ∈ e.members) (hgen : m.IsGenerated) :
    ∃ f ∈ e.fields, f.member e.hasIncrement = m := by
  simp only [members, List.mem_append, List.mem_map] at hm
  obtain (⟨f, hf, rfl⟩ | ⟨r, -, rfl⟩) | ⟨r, -, rfl⟩ := hm
  · exact ⟨f, hf, rfl⟩
  · exact absurd hgen r.not_isGenerated_member
  · exact absurd hgen r.not_isGenerated_member

end Entity

/-! ## Columns of plain members -/

section
variable {e : Entity} {c : Compiler} {db : Database} {ls : List Link} {t : Table}

theorem Entity.IsOf.exists_column (h : e.IsOf c db ls t) {f : PlainField} (hf : f ∈ e.fields) :
    ∃ col ∈ t.columns, c.plainField col = f := by
  rw [h.fields] at hf
  obtain ⟨col, hcol, rfl⟩ := List.mem_map.1 hf
  exact ⟨col, (List.mem_filter.1 hcol).1, rfl⟩

theorem Entity.IsOf.hasIncrement_iff (h : e.IsOf c db ls t) :
    e.hasIncrement = true ↔ ∃ key, t.primaryKey? = some key ∧ key.isIncrement = true := by
  rw [h.hasIncrement, Option.any_eq_true]

end

/-- In a database that was read, a plain member of an entity that compiles is written with the mark
of generated values exactly if its column belongs to the primary key and the first column of the
primary key increments. No other member has the mark. -/
theorem generated_member {input : String} {db : Database} (h : parse input = .ok db) {t : Table}
    (ht : t ∈ db.tables) {c : Compiler} {e : Entity} (he : c.compile db t = .ok e) :
    (∀ f ∈ e.fields, ∃ col, t.column? f.columnName = some col ∧
      f.member e.hasIncrement ∈ e.members ∧
      (f.member e.hasIncrement).lines <:+: e.entityLines ∧
      ((f.member e.hasIncrement).IsGenerated ↔ col.isPrimaryKey = true ∧
        ∃ key, t.primaryKey? = some key ∧ key.isIncrement = true)) ∧
    ∀ m ∈ e.members, m.IsGenerated → ∃ f ∈ e.fields, f.member e.hasIncrement = m := by
  have hwf := parse_wellFormed h
  obtain ⟨ls, -, hof⟩ := hwf.compile_isOf ht he
  refine ⟨fun f hf => ?_, fun m hm => Entity.exists_field_of_isGenerated hm⟩
  have hm := Entity.member_mem_members hf
  obtain ⟨col, hcol, rfl⟩ := hof.exists_column hf
  refine ⟨col, Table.column?_of_mem (hwf.columns_nodup ht) hcol, hm, Entity.lines_infix hm, ?_⟩
  rw [PlainField.isGenerated_member, hof.hasIncrement_iff]
  rfl

/-- A key of one column that increments, beside a column that increments and is no key. -/
theorem generated_member_one_key : ∃ db t e f g,
    parse "Table t { k int [pk, increment] n int [increment] }" = .ok db ∧ t ∈ db.tables ∧
      Compiler.compile {} db t = .ok e ∧ f ∈ e.fields ∧ f.columnName = "k" ∧
      (f.member e.hasIncrement).IsGenerated ∧ g ∈ e.fields ∧ g.columnName = "n" ∧
      ¬ (g.member e.hasIncrement).IsGenerated := by
  obtain ⟨t, ht⟩ : ∃ t : Table, t = ⟨"public", "t", none,
    [⟨"k", "int", [.primaryKey, .increment]⟩, ⟨"n", "int", [.increment]⟩], none⟩ := ⟨_, rfl⟩
  obtain ⟨db, hdb⟩ : ∃ db : Database, db = { schemas := [⟨"public", [t]⟩] } := ⟨_, rfl⟩
  obtain ⟨e, he⟩ : ∃ e : Entity, e = ⟨defaultPackage, "t", "T", some ⟨"k", "k", .integer⟩, true,
    [⟨"k", "k", .integer, true⟩, ⟨"n", "n", .integer, false⟩], [], [], []⟩ := ⟨_, rfl⟩
  have h : parse "Table t { k int [pk, increment] n int [increment] }" = .ok db := by
    rw [hdb, ht]
    decide +kernel
  have hmem : t ∈ db.tables := by
    rw [hdb]
    exact .head _
  have hcompile : Compiler.compile {} db t = .ok e := by
    rw [hdb, ht, he]
    decide +kernel
  have hf : (⟨"k", "k", .integer, true⟩ : PlainField) ∈ e.fields ∧
      (⟨"n", "n", .integer, false⟩ : PlainField) ∈ e.fields := by
    rw [he]
    exact ⟨.head _, .tail _ (.head _)⟩
  obtain ⟨hgenerated, -⟩ := generated_member h hmem hcompile
  obtain ⟨k, hk, -, -, hkey⟩ := hgenerated _ hf.1
  obtain ⟨n, hn, -, -, hplain⟩ := hgenerated _ hf.2
  rw [ht] at hk hn
  cases hk
  cases hn
  refine ⟨db, t, e, _, _, h, hmem, hcompile, hf.1, rfl, hkey.2 ⟨by decide, ?_⟩, hf.2, rfl,
    fun hgen => absurd (hplain.1 hgen).1 (by decide)⟩
  rw [ht]
  exact ⟨_, rfl, by decide⟩

/-- In a key of two columns of which the first increments, the second is marked too. -/
theorem generated_without_increment : ∃ db t e f col,
    parse "Table t { a int [pk, increment] b int [pk] }" = .ok db ∧ t ∈ db.tables ∧
      Compiler.compile {} db t = .ok e ∧ f ∈ e.fields ∧ t.column? f.columnName = some col ∧
      (f.member e.hasIncrement).IsGenerated ∧ col.isIncrement = false := by
  obtain ⟨t, ht⟩ : ∃ t : Table, t = ⟨"public", "t", none,
    [⟨"a", "int", [.primaryKey, .increment]⟩, ⟨"b", "int", [.primaryKey]⟩], none⟩ := ⟨_, rfl⟩
  refine ⟨{ schemas := [⟨"public", [t]⟩] }, t, ⟨defaultPackage, "t", "T",
      some ⟨"a", "a", .integer⟩, true, [⟨"a", "a", .integer, true⟩, ⟨"b", "b", .integer, true⟩],
      [], [], []⟩, ⟨"b", "b", .integer, true⟩, ⟨"b", "int", [.primaryKey]⟩, ?_, .head _, ?_,
      .tail _ (.head _), ?_, by decide, by decide⟩
  · rw [ht]
    decide +kernel
  · rw [ht]
    decide +kernel
  · rw [ht]
    rfl

end EntityForge
