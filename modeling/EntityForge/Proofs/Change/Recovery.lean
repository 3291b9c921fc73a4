import EntityForge.Change
import EntityForge.Proofs.Keyed

/-!
# What changes tell

Fields reduce to types by name in which every name occurs once (`FieldTypes.nodup_names`). Between
two such lists, a name changes in one way at most, and its change depends on its own two types alone
(`FieldTypes.changeAt?`, `mem_changes_iff`). A change tells the new type of its name if the old one
is known (`changeAt?_eq_iff`), so that the changes tell all new types (`changesOfFields_lossless`).
-/

namespace EntityForge

open Java Keyed

namespace FieldTypes

/-! ## Names -/

theorem insert_eq_put (name type : String) (m : FieldTypes) :
    insert name type m = put name type m := by
  induction m with
  | nil => rfl
  | cons f m ih => rw [insert, put, ih]

/-- No name occurs twice in what fields reduce to, however often it is declared. -/
theorem nodup_names (fields : List FieldDecl) : ((ofFields fields).map (·.1)).Nodup := by
  have hfold : ∀ m : FieldTypes, (m.map (·.1)).Nodup →
      ((fields.foldl (fun m f => insert f.name f.type m) m).map (·.1)).Nodup := by
    induction fields with
    | nil => exact fun m hm => hm
    | cons f fields ih =>
      intro m hm
      refine ih (insert f.name f.type m) ?_
      rw [insert_eq_put]
      exact nodup_map_fst_put hm f.name f.type
  exact hfold [] .nil

/-! ## The change of a name -/

/-- What happened to a name, if anything did. -/
def changeAt? (old new : FieldTypes) (name : String) : Option Change :=
  match new.lookup name with
  | some type => changeOf? old name type
  | none => (old.lookup name).map fun _ => ⟨name, .removed, "field removed"⟩

section
variable {old new : FieldTypes} {name s t : String} {c : Change}

theorem element_of_changeOf? (h : changeOf? old name t = some c) : c.element = name := by
  unfold changeOf? at h
  split at h
  · cases h
    rfl
  · split at h
    · cases h
    · cases h
      rfl

theorem action_of_changeOf? (h : changeOf? old name t = some c) : c.action ≠ .removed := by
  unfold changeOf? at h
  split at h
  · cases h
    exact fun heq => (nomatch heq)
  · split at h
    · cases h
    · cases h
      exact fun heq => (nomatch heq)

theorem element_of_changeAt? (h : changeAt? old new name = some c) : c.element = name := by
  unfold changeAt? at h
  split at h
  · exact element_of_changeOf? h
  · obtain ⟨_, -, rfl⟩ := Option.map_eq_some_iff.1 h
    rfl

/-- A detail ends with the new type, after a text that the old type fixes. -/
theorem changeOf?_inj (h : changeOf? old name s = changeOf? old name t) : s = t := by
  unfold changeOf? at h
  cases hold : old.lookup name with
  | none => simpa [hold] using h
  | some previous =>
    -- a type that stays has no change, any other has one
    by_cases hs : previous = s <;> by_cases ht : previous = t <;> simp_all

variable (old) in
/-- What happened to a name tells its new type. -/
theorem changeAt?_eq_iff {new₁ new₂ : FieldTypes} :
    changeAt? old new₁ name = changeAt? old new₂ name ↔ new₁.lookup name = new₂.lookup name := by
  have hremoved : ∀ {type : String},
      changeOf? old name type ≠
        (old.lookup name).map fun _ => ⟨name, .removed, "field removed"⟩ := by
    intro type heq
    cases hold : old.lookup name with
    | none => simp [changeOf?, hold] at heq
    | some previous =>
      rw [hold, Option.map_some] at heq
      exact action_of_changeOf? heq rfl
  unfold changeAt?
  cases new₁.lookup name with
  | none =>
    cases new₂.lookup name with
    | none => simp
    | some t => simp [hremoved.symm]
  | some s =>
    cases new₂.lookup name with
    | none => simp [hremoved]
    | some t => simpa using ⟨changeOf?_inj, fun heq => heq ▸ rfl⟩

theorem changeAt?_self (old : FieldTypes) (name : String) : changeAt? old old name = none := by
  unfold changeAt? changeOf?
  cases old.lookup name <;> simp

end

/-! ## The list of changes -/

/-- The changes are what happened to the names. -/
theorem mem_changes_iff {old new : FieldTypes} (hnew : (new.map (·.1)).Nodup) {c : Change} :
    c ∈ old.changes new ↔ changeAt? old new c.element = some c := by
  unfold changes
  rw [List.mem_append, List.mem_filterMap, List.mem_map]
  constructor
  · rintro (⟨⟨name, type⟩, hmem, hc⟩ | ⟨⟨name, type⟩, hmem, rfl⟩)
    · rw [element_of_changeOf? hc, changeAt?, lookup_of_mem hnew hmem]
      exact hc
    · obtain ⟨hold, hnone⟩ := List.mem_filter.1 hmem
      obtain ⟨previous, hprevious⟩ := exists_lookup_of_mem (List.mem_map_of_mem hold)
      rw [changeAt?, Option.isNone_iff_eq_none.1 hnone]
      simp [hprevious]
  · intro h
    unfold changeAt? at h
    split at h
    · rename_i type htype
      exact .inl ⟨_, mem_of_lookup htype, h⟩
    · rename_i hnone
      obtain ⟨previous, hprevious, hc⟩ := Option.map_eq_some_iff.1 h
      exact .inr ⟨_, List.mem_filter.2 ⟨mem_of_lookup hprevious, by simp [hnone]⟩, hc⟩

section
variable (old : FieldTypes) {new₁ new₂ : FieldTypes} (h₁ : (new₁.map (·.1)).Nodup) (h₂ : (new₂.map (·.1)).Nodup)
include h₁ h₂

/-- The changes from the same fields are the same exactly if they lead to the same fields. -/
theorem mem_changes_congr_iff :
    (∀ c, c ∈ old.changes new₁ ↔ c ∈ old.changes new₂) ↔ new₁.Perm new₂ := by
  simp only [perm_iff_lookup h₁ h₂, ← changeAt?_eq_iff old, mem_changes_iff h₁,
    mem_changes_iff h₂]
  constructor
  · refine fun h name => Option.ext fun c => ⟨fun hc => ?_, fun hc => ?_⟩
    · have := element_of_changeAt? hc
      subst this
      exact (h c).1 hc
    · have := element_of_changeAt? hc
      subst this
      exact (h c).2 hc
  · intro h c
    rw [h c.element]

end

theorem changes_self (old : FieldTypes) (h : (old.map (·.1)).Nodup) : old.changes old = [] := by
  refine List.eq_nil_iff_forall_not_mem.2 fun c hc => ?_
  rw [mem_changes_iff h, changeAt?_self] at hc
  cases hc

end FieldTypes

/-- Two sources that declare the same fields do not differ. -/
theorem changesOfSources_self {a b : String} {fields : List FieldDecl}
    (ha : fieldsOfSource a = .ok fields) (hb : fieldsOfSource b = .ok fields) :
    changesOfSources a b = .ok [] := by
  rw [changesOfSources, ha, hb]
  exact congrArg Except.ok (FieldTypes.changes_self _ (FieldTypes.nodup_names fields))

open FieldTypes in
/-- The changes from a source, together with its fields, determine the fields of the new source,
whatever names are repeated and whatever texts the types are; there is no change exactly if both
sources reduce to the same types by name. -/
theorem changesOfFields_lossless (old new₁ new₂ : List FieldDecl) :
    (changesOfFields old new₁ = changesOfFields old new₂ →
      (ofFields new₁).Perm (ofFields new₂)) ∧
    (changesOfFields old new₁ = [] ↔ (ofFields old).Perm (ofFields new₁)) := by
  have hnames := nodup_names
  unfold changesOfFields
  refine ⟨fun h => ?_, ?_⟩
  · rw [← mem_changes_congr_iff (ofFields old) (hnames new₁) (hnames new₂)]
    exact fun c => h ▸ Iff.rfl
  · have hself := changes_self (ofFields old) (hnames old)
    rw [← mem_changes_congr_iff (ofFields old) (hnames old) (hnames new₁), hself,
      List.eq_nil_iff_forall_not_mem]
    simp

/-- Two sources that declare their fields in a different order, one of them repeatedly, with the one
change from a third source: they have the same types by name. -/
theorem changesOfFields_lossless_reordered :
    changesOfFields [⟨"a", "int"⟩, ⟨"b", "int"⟩] [⟨"a", "int"⟩, ⟨"b", "int to long"⟩] =
      changesOfFields [⟨"a", "int"⟩, ⟨"b", "int"⟩]
        [⟨"b", "int"⟩, ⟨"a", "int"⟩, ⟨"b", "int to long"⟩] ∧
    FieldTypes.ofFields [⟨"a", "int"⟩, ⟨"b", "int to long"⟩] ≠
      FieldTypes.ofFields [⟨"b", "int"⟩, ⟨"a", "int"⟩, ⟨"b", "int to long"⟩] ∧
    (FieldTypes.ofFields [⟨"a", "int"⟩, ⟨"b", "int to long"⟩]).Perm
      (FieldTypes.ofFields [⟨"b", "int"⟩, ⟨"a", "int"⟩, ⟨"b", "int to long"⟩]) := by
  refine ⟨by decide, by decide, (changesOfFields_lossless [⟨"a", "int"⟩, ⟨"b", "int"⟩] _ _).1 ?_⟩
  decide

end EntityForge
