import EntityForge.Proofs.Entity.Members
import EntityForge.Proofs.Keyed
import Mathlib.Data.List.Count

/-!
# Imports of an entity

The imports of an entity that compiles are the list type, if it lists others, and then what the
types of its plain members need, each once and in order of first use (`Compiler.imports_eq`). The
entity file imports them after what every entity needs, and nothing else (`Entity.filter_isImport`),
so what a member needs is imported by one line (`imports_exact`).
-/

namespace EntityForge

open Dbml

/-! ## The list of imports -/

theorem foldl_insertNew {start names : List String} (h : ∀ name ∈ names, name ∉ start) :
    names.foldl insertNew start = start ++ names.eraseDups := by
  induction names using List.reverseRecOn with
  | nil => simp
  | append_singleton names name ih =>
    have hname : name ∉ start := h name (by simp)
    have hmem : (start ++ names.eraseDups).contains name = true ↔ name ∈ names := by
      rw [List.contains_iff_mem, List.mem_append, List.mem_eraseDups]
      exact or_iff_right hname
    rw [List.foldl_append, ih fun n hn => h n (List.mem_append_left _ hn), List.foldl_cons,
      List.foldl_nil, insertNew, Keyed.eraseDups_concat]
    by_cases hn : name ∈ names
    · rw [if_pos (hmem.2 hn), if_pos hn]
    · rw [if_neg (mt hmem.1 hn), if_neg hn, List.append_assoc]

/-- What the entity file imports for any entity. -/
def commonImports : List String := ["jakarta.persistence.*", "lombok.Getter", "lombok.Setter"]

/-- What a plain member needs is imported for nothing else. -/
theorem TargetType.not_mem_of_import? {t : TargetType} {name : String}
    (h : t.import? = some name) : name ∉ listImport :: commonImports := by
  cases t <;> cases h <;> decide

theorem Compiler.imports_eq (fields : List PlainField) (a : Associations) :
    imports fields a = (if a.inbound = [] then [] else [listImport]) ++
      (fields.filterMap (·.target.import?)).eraseDups := by
  simp only [imports, List.isEmpty_iff]
  refine foldl_insertNew fun name hname => ?_
  obtain ⟨f, -, hf⟩ := List.mem_filterMap.1 hname
  split
  · exact List.not_mem_nil
  · rw [List.mem_singleton]
    rintro rfl
    exact TargetType.not_mem_of_import? hf (.head _)

/-! ## The imports of the entity file -/

/-- The line that imports a qualified name. -/
def importLine (name : String) : String := "import " ++ name ++ ";"

/-- The line is an import. -/
def IsImport (line : String) : Prop := "import ".toList <+: line.toList

instance (line : String) : Decidable (IsImport line) :=
  inferInstanceAs (Decidable (_ <+: _))

theorem isImport_importLine (name : String) : IsImport (importLine name) := by
  simp [IsImport, importLine]

theorem importLine_injective : Function.Injective importLine := by
  intro name name' h
  refine String.toList_inj.1 ?_
  simpa [importLine] using congrArg String.toList h

theorem Member.not_isImport {m : Member} {line : String} (h : line ∈ m.lines) :
    ¬ IsImport line := by
  simp only [lines, memberLines, List.mem_cons, List.mem_append, List.mem_map] at h
  rcases h with rfl | ⟨a, -, rfl⟩ | rfl | h
  · decide
  · simp [IsImport]
  · simp [IsImport]
  · cases h

namespace Entity

/-- The imports stand together, between the package and the class. -/
theorem entityLines_imports (e : Entity) : ∃ before after : List String,
    e.entityLines = before ++ (commonImports ++ e.imports).map importLine ++ after ∧
      (∀ line ∈ before, ¬ IsImport line) ∧ ∀ line ∈ after, ¬ IsImport line := by
  refine ⟨["package " ++ e.packageName ++ ".entity;", ""],
    ("" :: (e.annotations.map ("" ++ ·) ++
      ["" ++ ("public class " ++ e.className ++ " ") ++ "\x7b"])) ++
        e.members.flatMap (·.lines) ++ ["\x7d"], ?_, ?_, ?_⟩
  · rw [entityLines_members, headerLines, List.map_append]
    simp [topLines, commonImports, importLine]
  · simp [IsImport]
  · intro line hline
    rw [List.mem_append, List.mem_append, List.mem_singleton] at hline
    rcases hline with (hhead | hmember) | rfl
    · simp only [annotations, List.map_cons, List.map_nil, List.cons_append, List.nil_append,
        List.mem_cons, List.not_mem_nil, or_false] at hhead
      rcases hhead with rfl | rfl | rfl | rfl | rfl | rfl <;> simp [IsImport]
    · obtain ⟨m, -, hm⟩ := List.mem_flatMap.1 hmember
      exact Member.not_isImport hm
    · decide

/-- The entity file imports what every entity needs and then the imports of the entity. -/
theorem filter_isImport (e : Entity) :
    e.entityLines.filter (IsImport ·) = (commonImports ++ e.imports).map importLine := by
  obtain ⟨before, after, heq, hbefore, hafter⟩ := e.entityLines_imports
  have himports : ∀ line ∈ (commonImports ++ e.imports).map importLine, IsImport line := by
    intro line hline
    obtain ⟨name, -, rfl⟩ := List.mem_map.1 hline
    exact isImport_importLine name
  have none : ∀ {lines : List String}, (∀ line ∈ lines, ¬ IsImport line) →
      lines.filter (IsImport ·) = [] := fun h => List.filter_eq_nil_iff.2 (by simpa using h)
  rw [heq, List.filter_append, List.filter_append, none hbefore, none hafter, List.nil_append,
    List.append_nil]
  exact List.filter_eq_self.2 fun line hline => decide_eq_true (himports line hline)

/-- A name is imported as often as it stands in the list of imports. -/
theorem count_importLine (e : Entity) (name : String) :
    e.entityLines.count (importLine name) = (commonImports ++ e.imports).count name := by
  rw [← List.count_filter (p := (IsImport ·)) (decide_eq_true (isImport_importLine name)),
    filter_isImport, List.count_map_of_injective _ _ importLine_injective]

end Entity

/-! ## Imports of a compiled entity -/

section
variable {c : Compiler} {db : Database} {t : Table} {e : Entity}

theorem imports_eq_of_compile (he : c.compile db t = .ok e) :
    e.imports = (if e.oneToMany = [] then [] else [listImport]) ++
      (e.fields.filterMap (·.target.import?)).eraseDups := by
  obtain ⟨a, -, rfl⟩ := Compiler.compile_eq_ok.1 he
  exact Compiler.imports_eq _ a

/-- The plain members are for the columns that are no join columns. -/
theorem fields_eq_of_compile (he : c.compile db t = .ok e) :
    e.fields = (t.columns.filter fun col => col.name ∉ e.manyToOne.map (·.joinColumn)).map
      c.plainField := by
  obtain ⟨a, ha, rfl⟩ := Compiler.compile_eq_ok.1 he
  refine congrArg (List.map c.plainField) (List.filter_congr fun col _ => ?_)
  rw [List.contains_eq_mem, ← decide_not]
  exact decide_eq_decide.2 (not_congr (Database.keysMatch_associations ha col.name))

theorem mem_imports_iff (he : c.compile db t = .ok e) {name : String} :
    name ∈ e.imports ↔ (name = listImport ∧ e.oneToMany ≠ []) ∨
      ∃ f ∈ e.fields, f.target.import? = some name := by
  rw [imports_eq_of_compile he, List.mem_append, List.mem_eraseDups, List.mem_filterMap]
  refine or_congr ?_ Iff.rfl
  split <;> simp [*]

/-- Nothing is imported twice. -/
theorem nodup_imports (he : c.compile db t = .ok e) : (commonImports ++ e.imports).Nodup := by
  have hhint : ∀ name ∈ (e.fields.filterMap (·.target.import?)).eraseDups,
      name ∉ listImport :: commonImports := by
    intro name hname
    obtain ⟨f, -, hf⟩ := List.mem_filterMap.1 (List.mem_eraseDups.1 hname)
    exact TargetType.not_mem_of_import? hf
  have hstart : (commonImports ++ if e.oneToMany = [] then [] else [listImport]).Nodup ∧
      ∀ name ∈ commonImports ++ if e.oneToMany = [] then [] else [listImport],
        name ∈ listImport :: commonImports := by
    split <;> decide
  rw [imports_eq_of_compile he, ← List.append_assoc, List.nodup_append]
  refine ⟨hstart.1, Keyed.nodup_eraseDups _, ?_⟩
  rintro name hname _ hmem rfl
  exact hhint name hmem (hstart.2 name hname)

theorem count_importLine_of_mem (he : c.compile db t = .ok e) {name : String}
    (h : name ∈ e.imports) : e.entityLines.count (importLine name) = 1 := by
  rw [e.count_importLine, List.count_eq_one_of_mem (nodup_imports he) (List.mem_append_right _ h)]

/-- The imports of an entity that compiles are each there once: first the list type exactly if the
entity lists others, then what the types of the plain members need, in order of first use; the plain
members are for the columns that are no join columns. The entity file imports these after what every
entity needs and nothing else, so that what a member needs is imported by one line. -/
theorem imports_exact (he : c.compile db t = .ok e) :
    e.imports.Nodup ∧
    e.imports = (if e.oneToMany = [] then [] else [listImport]) ++
      (e.fields.filterMap (·.target.import?)).eraseDups ∧
    (listImport ∈ e.imports ↔ e.oneToMany ≠ []) ∧
    e.fields = (t.columns.filter fun col => col.name ∉ e.manyToOne.map (·.joinColumn)).map
      c.plainField ∧
    e.entityLines.filter (IsImport ·) = (commonImports ++ e.imports).map importLine ∧
    (e.oneToMany ≠ [] → e.entityLines.count (importLine listImport) = 1) ∧
    ∀ f ∈ e.fields, ∀ name, f.target.import? = some name →
      e.entityLines.count (importLine name) = 1 := by
  have hlist : listImport ∈ e.imports ↔ e.oneToMany ≠ [] := by
    rw [mem_imports_iff he]
    refine ⟨fun h => h.elim (·.2) ?_, fun h => .inl ⟨rfl, h⟩⟩
    rintro ⟨f, -, hf⟩
    exact absurd (.head _) (TargetType.not_mem_of_import? hf)
  refine ⟨(List.nodup_append.1 (nodup_imports he)).2.1, imports_eq_of_compile he, hlist,
    fields_eq_of_compile he, e.filter_isImport, fun h => ?_, fun f hf name hname => ?_⟩
  · exact count_importLine_of_mem he (hlist.2 h)
  · exact count_importLine_of_mem he ((mem_imports_iff he).2 (.inr ⟨f, hf, hname⟩))

end

/-- Two members share an import, and the date of a reference is not imported. -/
theorem imports_beside_reference : ∃ db t c e,
    parse ("Table a { k datetime } " ++
      "Table b { total money at datetime [ref: > a.k] paid money } " ++
      "Table z { n money [ref: > b.total] }") = .ok db ∧
      t ∈ db.tables ∧ Compiler.compile c db t = .ok e ∧ e.imports.Nodup ∧
      e.imports = ["java.util.List", "java.math.BigDecimal"] ∧
      e.entityLines.count (importLine "java.util.List") = 1 ∧
      e.entityLines.count (importLine "java.math.BigDecimal") = 1 := by
  obtain ⟨c, hc⟩ : ∃ c : Compiler, c = { types := ⟨[("money", .bigDecimal)]⟩ } := ⟨_, rfl⟩
  obtain ⟨t, ht⟩ : ∃ t : Table, t = ⟨"public", "b", none,
    [⟨"total", "money", []⟩, ⟨"at", "datetime", []⟩, ⟨"paid", "money", []⟩], none⟩ := ⟨_, rfl⟩
  obtain ⟨db, hdb⟩ : ∃ db : Database, db = {
      schemas := [⟨"public", [⟨"public", "a", none, [⟨"k", "datetime", []⟩], none⟩, t,
        ⟨"public", "z", none, [⟨"n", "money", []⟩], none⟩]⟩]
      relationships :=
        [⟨none, ⟨"public", "b", "at"⟩, ⟨"public", "a", "k"⟩, .manyToOne⟩,
          ⟨none, ⟨"public", "z", "n"⟩, ⟨"public", "b", "total"⟩, .manyToOne⟩] } := ⟨_, rfl⟩
  obtain ⟨e, he⟩ : ∃ e : Entity, e = ⟨defaultPackage, "b", "B", none, false,
    [⟨"total", "total", .bigDecimal, false⟩, ⟨"paid", "paid", .bigDecimal, false⟩],
    [⟨"at", "A", "a"⟩], [⟨"Z", "zs", "b"⟩], ["java.util.List", "java.math.BigDecimal"]⟩ := ⟨_, rfl⟩
  have h : parse ("Table a { k datetime } " ++
      "Table b { total money at datetime [ref: > a.k] paid money } " ++
      "Table z { n money [ref: > b.total] }") = .ok db := by
    rw [hdb, ht]
    decide +kernel
  have hmem : t ∈ db.tables := by
    rw [hdb]
    exact .tail _ (.head _)
  have hcompile : Compiler.compile c db t = .ok e := by
    rw [hc, hdb, ht, he]
    decide +kernel
  have hfield : (⟨"paid", "paid", .bigDecimal, false⟩ : PlainField) ∈ e.fields := by
    rw [he]
    exact .tail _ (.head _)
  obtain ⟨hnodup, himports, -, -, -, hlist, hfields⟩ := imports_exact hcompile
  refine ⟨db, t, c, e, h, hmem, hcompile, hnodup, ?_, hlist ?_, hfields _ hfield _ rfl⟩
  · rw [himports, he]
    decide
  · rw [he]
    exact List.cons_ne_nil _ _

end EntityForge
