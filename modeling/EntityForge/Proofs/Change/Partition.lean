import EntityForge.Proofs.Change.Recovery

/-!
# The list of changes as a partition

What fields reduce to is told by the fields: its names are the declared ones, each at the place of
its first declaration (`map_fst_ofFields`), and a name has the type of its last declaration
(`lookup_ofFields`). From this the list of changes is determined (`IsPartition`): which names stand
in it, in which order, and which record each of them has. To exchange the two sides exchanges
additions and removals.
-/

namespace EntityForge

open Java Keyed FieldTypes

/-! ## What fields declare -/

/-- The names that fields declare, each at the place of its first declaration. -/
def declaredNames (fields : List FieldDecl) : List String :=
  (fields.map (·.name)).eraseDups

/-- The type of the last declaration of a name. -/
def lastType? (fields : List FieldDecl) (name : String) : Option String :=
  ((fields.filter fun f => f.name == name).getLast?).map (·.type)

/-- The names that the first of two lists of fields declares and the second one does not. -/
def namesOnlyIn (fields others : List FieldDecl) : List String :=
  (declaredNames fields).filter fun n => n ∉ declaredNames others

namespace FieldTypes

theorem ofFields_concat (fields : List FieldDecl) (f : FieldDecl) :
    ofFields (fields ++ [f]) = put f.name f.type (ofFields fields) := by
  rw [ofFields, List.foldl_append, List.foldl_cons, List.foldl_nil, insert_eq_put]
  rfl

theorem map_fst_ofFields (fields : List FieldDecl) :
    (ofFields fields).map (·.1) = declaredNames fields := by
  induction fields using List.reverseRecOn with
  | nil => rfl
  | append_singleton fields f ih =>
    rw [ofFields_concat, map_fst_put, ih]
    simp only [declaredNames, List.map_append, List.map_cons, List.map_nil, eraseDups_concat,
      List.mem_eraseDups]

theorem lookup_ofFields (fields : List FieldDecl) (name : String) :
    (ofFields fields).lookup name = lastType? fields name := by
  induction fields using List.reverseRecOn with
  | nil => rfl
  | append_singleton fields f ih =>
    rw [ofFields_concat, lookup_put, ih, lastType?, lastType?, List.filter_append]
    by_cases h : name = f.name
    · simp [h]
    · have hb : (f.name == name) = false := beq_false_of_ne (Ne.symm h)
      simp [h, hb]

end FieldTypes

theorem lastType?_eq_none_iff {fields : List FieldDecl} {name : String} :
    lastType? fields name = none ↔ name ∉ declaredNames fields := by
  rw [← lookup_ofFields, lookup_eq_none_iff, map_fst_ofFields]

theorem filter_lastType?_eq_nil {fields : List FieldDecl} {names : List String}
    (h : ∀ n ∈ names, n ∈ declaredNames fields) :
    (names.filter fun n => lastType? fields n = none) = [] := by
  refine List.filter_eq_nil_iff.2 fun n hn => ?_
  rw [decide_eq_true_iff, lastType?_eq_none_iff, not_not]
  exact h n hn

theorem namesOnlyIn_eq (fields others : List FieldDecl) :
    namesOnlyIn fields others =
      (declaredNames fields).filter fun n => lastType? others n = none := by
  simp only [namesOnlyIn, lastType?_eq_none_iff]

theorem nodup_declaredNames (fields : List FieldDecl) : (declaredNames fields).Nodup :=
  nodup_eraseDups _

/-! ## Names and records -/

/-- The record of a name of which `s?` is the type in the old source and `t?` that in the new one. -/
inductive IsRecord (name : String) : Option String → Option String → Change → Prop
  | added (t : String) : IsRecord name none (some t) ⟨name, .added, "type: " ++ t⟩
  | modified {s t : String} (h : s ≠ t) :
      IsRecord name (some s) (some t) ⟨name, .modified, "changed from " ++ s ++ " to " ++ t⟩
  | removed (s : String) : IsRecord name (some s) none ⟨name, .removed, "field removed"⟩

namespace IsRecord

variable {name : String} {s? t? : Option String} {c : Change}

theorem action_eq_added_iff (h : IsRecord name s? t? c) : c.action = .added ↔ s? = none := by
  cases h <;> simp

theorem action_eq_removed_iff (h : IsRecord name s? t? c) : c.action = .removed ↔ t? = none := by
  cases h <;> simp

theorem action_eq_modified_iff (h : IsRecord name s? t? c) :
    c.action = .modified ↔ s? ≠ none ∧ t? ≠ none := by
  cases h <;> simp

end IsRecord

/-- The names with a record of the given action, in the order of the records. -/
def namesWith (action : ChangeAction) (changes : List Change) : List String :=
  (changes.filter fun c => c.action = action).map (·.element)

section
variable {old new : FieldTypes} {name s t : String} {c : Change}

theorem isRecord_of_changeAt? (h : changeAt? old new name = some c) :
    IsRecord name (old.lookup name) (new.lookup name) c := by
  unfold changeAt? changeOf? at h
  cases hold : old.lookup name with
  | none =>
    cases hnew : new.lookup name with
    | none => simp [hold, hnew] at h
    | some t =>
      obtain rfl : _ = c := by simpa [hold, hnew] using h
      exact .added t
  | some s =>
    cases hnew : new.lookup name with
    | none =>
      obtain rfl : _ = c := by simpa [hold, hnew] using h
      exact .removed s
    | some t =>
      by_cases hst : s = t
      · simp [hold, hnew, hst] at h
      · obtain rfl : _ = c := by simpa [hold, hnew, hst] using h
        exact .modified hst

/-- A name of the new source has a record exactly if its type is not the old one. -/
theorem map_element_changeOf? (old : FieldTypes) (name t : String) :
    (changeOf? old name t).map (·.element) =
      if old.lookup name = some t then none else some name := by
  unfold changeOf?
  cases hold : old.lookup name with
  | none => rfl
  | some s => by_cases hst : s = t <;> simp [hst]

theorem map_element_changes (old : FieldTypes) (hnew : (new.map (·.1)).Nodup) :
    (old.changes new).map (·.element) =
      ((new.map (·.1)).filter fun n => old.lookup n ≠ new.lookup n) ++
      (old.map (·.1)).filter fun n => new.lookup n = none := by
  have hfirst : (new.filterMap fun f => changeOf? old f.1 f.2).map (·.element) =
      (new.map (·.1)).filter fun n => old.lookup n ≠ new.lookup n := by
    rw [List.map_filterMap, ← List.filterMap_eq_filter, List.filterMap_map]
    refine List.filterMap_congr fun f hf => ?_
    rw [map_element_changeOf?]
    simp [Option.guard, lookup_of_mem hnew hf]
  have hlast : ((old.filter fun f => (new.lookup f.1).isNone).map fun f =>
        (⟨f.1, .removed, "field removed"⟩ : Change)).map (·.element) =
      (old.map (·.1)).filter fun n => new.lookup n = none := by
    simp only [← Option.isNone_iff_eq_none, Bool.decide_eq_true]
    rw [List.map_map, List.filter_map]
    rfl
  rw [changes, List.map_append, hfirst, hlast]

end

/-! ## The partition -/

/-- The changes between two lists of fields, as the fields tell them. -/
structure IsPartition (old new : List FieldDecl) (changes : List Change) : Prop where
  /-- The new names whose types are not the old ones come first, and then the lost names. -/
  names : changes.map (·.element) =
    ((declaredNames new).filter fun n => lastType? old n ≠ lastType? new n) ++
    namesOnlyIn old new
  /-- Every change is the record of its name. -/
  records : ∀ c ∈ changes,
    IsRecord c.element (lastType? old c.element) (lastType? new c.element) c

namespace IsPartition

variable {old new : List FieldDecl} {changes : List Change}

theorem mem_names_iff (h : IsPartition old new changes) {name : String} :
    name ∈ changes.map (·.element) ↔ lastType? old name ≠ lastType? new name := by
  simp only [h.names, namesOnlyIn_eq, List.mem_append, List.mem_filter, decide_eq_true_eq]
  constructor
  · rintro (⟨-, hne⟩ | ⟨hold, hnone⟩)
    · exact hne
    · intro heq
      exact lastType?_eq_none_iff.1 (heq.trans hnone) hold
  · intro hne
    by_cases hnew : lastType? new name = none
    · refine .inr ⟨?_, hnew⟩
      by_contra hold
      exact hne ((lastType?_eq_none_iff.2 hold).trans hnew.symm)
    · refine .inl ⟨?_, hne⟩
      by_contra hmem
      exact hnew (lastType?_eq_none_iff.2 hmem)

theorem nodup_names (h : IsPartition old new changes) : (changes.map (·.element)).Nodup := by
  rw [h.names, List.nodup_append]
  refine ⟨(nodup_declaredNames new).filter _, (nodup_declaredNames old).filter _, ?_⟩
  rintro n hn m hm rfl
  exact of_decide_eq_true (List.mem_filter.1 hm).2 (List.mem_filter.1 hn).1

/-- The names with a record of an action are those whose types call for it. -/
theorem namesWith_eq (h : IsPartition old new changes) {action : ChangeAction} {p : String → Prop}
    [DecidablePred p] (hp : ∀ {name c},
      IsRecord name (lastType? old name) (lastType? new name) c → (c.action = action ↔ p name)) :
    namesWith action changes = (changes.map (·.element)).filter fun n => p n := by
  rw [namesWith, List.filter_map]
  congr 1
  refine List.filter_congr fun c hc => ?_
  rw [Function.comp_apply, decide_eq_decide]
  exact hp (h.records c hc)

theorem namesWith_added (h : IsPartition old new changes) :
    namesWith .added changes = namesOnlyIn new old := by
  have hlost : (namesOnlyIn old new).filter (fun n => lastType? old n = none) = [] :=
    filter_lastType?_eq_nil fun n hn => (List.mem_filter.1 hn).1
  rw [h.namesWith_eq IsRecord.action_eq_added_iff, h.names, List.filter_append, hlost,
    List.append_nil, List.filter_filter, namesOnlyIn_eq]
  refine List.filter_congr fun n hn => ?_
  -- a new name that is not old has a type that is not the old one
  have hnew : lastType? new n ≠ none := fun hnone => lastType?_eq_none_iff.1 hnone hn
  by_cases hold : lastType? old n = none
  · simp [hold, hnew.symm]
  · simp [hold]

theorem namesWith_removed (h : IsPartition old new changes) :
    namesWith .removed changes = namesOnlyIn old new := by
  have hkept : ((declaredNames new).filter fun n => lastType? old n ≠ lastType? new n).filter
      (fun n => lastType? new n = none) = [] :=
    filter_lastType?_eq_nil fun n hn => (List.mem_filter.1 hn).1
  rw [h.namesWith_eq IsRecord.action_eq_removed_iff, h.names, List.filter_append, hkept,
    List.nil_append, namesOnlyIn_eq, List.filter_filter]
  -- a name that is not new is lost, whether it is looked for once or twice
  simp only [Bool.and_self]

theorem mem_namesWith_modified_iff (h : IsPartition old new changes) {name : String} :
    name ∈ namesWith .modified changes ↔ lastType? old name ≠ lastType? new name ∧
      lastType? old name ≠ none ∧ lastType? new name ≠ none := by
  rw [h.namesWith_eq IsRecord.action_eq_modified_iff, List.mem_filter, h.mem_names_iff,
    decide_eq_true_iff]

theorem nodup_namesWith (h : IsPartition old new changes) (action : ChangeAction) :
    (namesWith action changes).Nodup :=
  h.nodup_names.sublist (List.filter_sublist.map _)

end IsPartition

theorem isPartition_changesOfFields (old new : List FieldDecl) :
    IsPartition old new (changesOfFields old new) where
  names := by
    rw [changesOfFields, map_element_changes _ (nodup_names new)]
    simp only [map_fst_ofFields, lookup_ofFields, namesOnlyIn_eq]
  records := by
    intro c hc
    rw [changesOfFields, mem_changes_iff (nodup_names new)] at hc
    rw [← lookup_ofFields, ← lookup_ofFields]
    exact isRecord_of_changeAt? hc

/-- The changes are an exact, ordered partition of the names whose types differ: a name has one
record at most and none if its types agree, and to exchange the two sources exchanges what is added
and what is removed, in order, and keeps the names that are modified. -/
theorem changesOfFields_partition (old new : List FieldDecl) :
    IsPartition old new (changesOfFields old new) ∧
    ((changesOfFields old new).map (·.element)).Nodup ∧
    (∀ name, lastType? old name = lastType? new name →
      name ∉ (changesOfFields old new).map (·.element)) ∧
    namesWith .added (changesOfFields new old) = namesWith .removed (changesOfFields old new) ∧
    namesWith .removed (changesOfFields new old) = namesWith .added (changesOfFields old new) ∧
    (namesWith .modified (changesOfFields new old)).Perm
      (namesWith .modified (changesOfFields old new)) := by
  have h := isPartition_changesOfFields old new
  have hback := isPartition_changesOfFields new old
  refine ⟨h, h.nodup_names, ?_, ?_, ?_, ?_⟩
  · intro name heq hmem
    exact h.mem_names_iff.1 hmem heq
  · rw [hback.namesWith_added, h.namesWith_removed]
  · rw [hback.namesWith_removed, h.namesWith_added]
  · rw [List.perm_ext_iff_of_nodup (hback.nodup_namesWith _) (h.nodup_namesWith _)]
    intro name
    rw [hback.mem_namesWith_modified_iff, h.mem_namesWith_modified_iff, ne_comm,
      and_comm (a := lastType? new name ≠ none)]

/-- A name that is declared twice has the place of its first declaration and the type of its last
one, and a name whose type stays has no record. -/
theorem changesOfFields_partition_redeclared :
    changesOfFields [⟨"x", "int"⟩, ⟨"y", "int"⟩, ⟨"gone", "int"⟩]
        [⟨"z", "int"⟩, ⟨"x", "int"⟩, ⟨"y", "int"⟩, ⟨"x", "long"⟩] =
      [⟨"z", .added, "type: int"⟩, ⟨"x", .modified, "changed from int to long"⟩,
        ⟨"gone", .removed, "field removed"⟩] ∧
    "y" ∉ (changesOfFields [⟨"x", "int"⟩, ⟨"y", "int"⟩, ⟨"gone", "int"⟩]
      [⟨"z", "int"⟩, ⟨"x", "int"⟩, ⟨"y", "int"⟩, ⟨"x", "long"⟩]).map (·.element) ∧
    namesWith .removed (changesOfFields
      [⟨"z", "int"⟩, ⟨"x", "int"⟩, ⟨"y", "int"⟩, ⟨"x", "long"⟩]
      [⟨"x", "int"⟩, ⟨"y", "int"⟩, ⟨"gone", "int"⟩]) = ["z"] := by
  have hchanges : changesOfFields [⟨"x", "int"⟩, ⟨"y", "int"⟩, ⟨"gone", "int"⟩]
        [⟨"z", "int"⟩, ⟨"x", "int"⟩, ⟨"y", "int"⟩, ⟨"x", "long"⟩] =
      [⟨"z", .added, "type: int"⟩, ⟨"x", .modified, "changed from int to long"⟩,
        ⟨"gone", .removed, "field removed"⟩] := by decide
  obtain ⟨-, -, hsame, -, hremoved, -⟩ := changesOfFields_partition
    [⟨"x", "int"⟩, ⟨"y", "int"⟩, ⟨"gone", "int"⟩]
    [⟨"z", "int"⟩, ⟨"x", "int"⟩, ⟨"y", "int"⟩, ⟨"x", "long"⟩]
  refine ⟨hchanges, hsame "y" (by decide), ?_⟩
  rw [hremoved, hchanges]
  decide

end EntityForge
