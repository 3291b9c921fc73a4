import EntityForge.Dbml.Parser.Basic
import EntityForge.Proofs.Keyed
import EntityForge.Proofs.Text.ByteOrder
import EntityForge.Settings.Document

/-!
# Overrides of column types

Overrides are kept in the byte order of their keys (`Settings.IsOrdered`, `ofYaml_isOrdered`) and
are added to the map of types in that order, where keys that differ in letter case alone are one
key. So an error names the first value that is no target (`TypeMap.addAll_eq_error_iff`), and
otherwise a type has the target of the last key that is this type up to case, or the default one
(`TypeMap.target_addAll`). `Settings.typeMap_last_wins` puts both together.
-/

namespace EntityForge

/-! ## Names of targets -/

namespace TargetType

/-- There is a target of that name. -/
def IsName (name : String) : Prop := ∃ t : TargetType, t.name = name

theorem ofName?_eq_some_iff {name : String} {t : TargetType} :
    ofName? name = some t ↔ t.name = name := by
  constructor
  · intro h
    have hfound : all.find? (·.name == name) = some t := h
    simpa using List.find?_some hfound
  · rintro rfl
    exact ofName?_name t

theorem ofName?_eq_none_iff {name : String} : ofName? name = none ↔ ¬ IsName name := by
  rw [Option.eq_none_iff_forall_ne_some, IsName, not_exists]
  exact forall_congr' fun t => not_congr ofName?_eq_some_iff

end TargetType

open Dbml (bind_eq_ok)
open TargetType (IsName)

/-! ## Adding overrides in order -/

namespace TypeMap

/-- Two types are one up to letter case. -/
def SameType (type type' : String) : Prop := Unicode.lowercase type = Unicode.lowercase type'

instance (type type' : String) : Decidable (SameType type type') :=
  inferInstanceAs (Decidable (_ = _))

/-- The default table answers for a type that is not overridden. -/
theorem target_empty (type : String) :
    ({} : TypeMap).target type = defaultTarget (Unicode.lowercase type) := rfl

theorem target_override_of_same (m : TypeMap) {key type : String} (h : SameType key type)
    (t : TargetType) : (m.override key t).target type = t := by
  rw [target, override, Keyed.lookup_cons_eq, if_pos (Eq.symm h)]

/-- An override leaves every other type as it is. -/
theorem target_override_of_not_same (m : TypeMap) {key type : String} (h : ¬ SameType key type)
    (t : TargetType) : (m.override key t).target type = m.target type := by
  rw [target, override, Keyed.lookup_cons_eq, if_neg fun heq => h (Eq.symm heq), target]

/-- An override is added if its value is a target, and is an error otherwise. -/
theorem addAll_cons (m : TypeMap) (o : String × String) (os : List (String × String)) :
    (∃ t : TargetType, t.name = o.2 ∧ m.addAll (o :: os) = (m.override o.1 t).addAll os) ∨
      (¬ IsName o.2 ∧ m.addAll (o :: os) = .error ⟨o.2⟩) := by
  rw [addAll]
  cases h : TargetType.ofName? o.2 with
  | some t => exact .inl ⟨t, TargetType.ofName?_eq_some_iff.1 h, rfl⟩
  | none => exact .inr ⟨TargetType.ofName?_eq_none_iff.1 h, rfl⟩

theorem isName_of_addAll {m m' : TypeMap} {os : List (String × String)}
    (h : m.addAll os = .ok m') : ∀ o ∈ os, IsName o.2 := by
  induction os generalizing m with
  | nil => exact List.forall_mem_nil _
  | cons o os ih =>
    rcases addAll_cons m o os with ⟨t, ht, heq⟩ | ⟨-, heq⟩
    · exact List.forall_mem_cons.2 ⟨⟨t, ht⟩, ih (heq ▸ h)⟩
    · rw [heq] at h
      cases h

/-- The first value that is no target is the error. -/
theorem addAll_eq_error_iff {m : TypeMap} {os : List (String × String)} {e : UnknownTarget} :
    m.addAll os = .error e ↔
      ∃ before o after, os = before ++ o :: after ∧ (∀ b ∈ before, IsName b.2) ∧
        ¬ IsName o.2 ∧ e = ⟨o.2⟩ := by
  induction os generalizing m with
  | nil => simp [addAll]
  | cons o os ih =>
    rcases addAll_cons m o os with ⟨t, ht, heq⟩ | ⟨hname, heq⟩
    · rw [heq, ih]
      constructor
      · rintro ⟨before, o', after, rfl, hbefore, ho'⟩
        exact ⟨o :: before, o', after, rfl, List.forall_mem_cons.2 ⟨⟨t, ht⟩, hbefore⟩, ho'⟩
      · rintro ⟨before, o', after, hos, hbefore, ho'⟩
        cases before with
        | nil =>
          obtain ⟨rfl, -⟩ := List.cons.inj hos
          exact absurd ⟨t, ht⟩ ho'.1
        | cons b before =>
          obtain ⟨-, rfl⟩ := List.cons.inj hos
          exact ⟨before, o', after, rfl, (List.forall_mem_cons.1 hbefore).2, ho'⟩
    · rw [heq]
      constructor
      · intro h
        exact ⟨[], o, os, rfl, List.forall_mem_nil _, hname, (Except.error.inj h).symm⟩
      · rintro ⟨before, o', after, hos, hbefore, -, rfl⟩
        cases before with
        | nil =>
          obtain ⟨rfl, -⟩ := List.cons.inj hos
          rfl
        | cons b before =>
          obtain ⟨rfl, -⟩ := List.cons.inj hos
          exact absurd (hbefore _ (.head _)) hname

/-- A type has the target of the last key that is this type, or the one it had. -/
theorem target_addAll {m m' : TypeMap} {os : List (String × String)} (h : m.addAll os = .ok m')
    (type : String) :
    (∃ before o after, os = before ++ o :: after ∧ SameType o.1 type ∧
      (∀ a ∈ after, ¬ SameType a.1 type) ∧ (m'.target type).name = o.2) ∨
    ((∀ o ∈ os, ¬ SameType o.1 type) ∧ m'.target type = m.target type) := by
  induction os generalizing m with
  | nil =>
    obtain rfl : m = m' := Except.ok.inj h
    exact .inr ⟨List.forall_mem_nil _, rfl⟩
  | cons o os ih =>
    rcases addAll_cons m o os with ⟨t, ht, heq⟩ | ⟨-, heq⟩
    · rw [heq] at h
      rcases ih h with ⟨before, o', after, rfl, hlast⟩ | ⟨hnone, htarget⟩
      · exact .inl ⟨o :: before, o', after, rfl, hlast⟩
      · by_cases hkey : SameType o.1 type
        · rw [target_override_of_same m hkey] at htarget
          exact .inl ⟨[], o, os, rfl, hkey, hnone, htarget ▸ ht⟩
        · rw [target_override_of_not_same m hkey] at htarget
          exact .inr ⟨List.forall_mem_cons.2 ⟨hkey, hnone⟩, htarget⟩
    · rw [heq] at h
      cases h

end TypeMap

/-! ## The order of keys -/

namespace Settings

/-- Overrides in the byte order of their keys, none of which occurs twice. -/
def KeysOrdered (os : List (String × String)) : Prop :=
  os.Pairwise fun o o' => o.1.toUTF8.toList < o'.1.toUTF8.toList

/-- The overrides of the settings are a map. -/
def IsOrdered (s : Settings) : Prop := KeysOrdered s.typeOverrides

instance (os : List (String × String)) : Decidable (KeysOrdered os) :=
  inferInstanceAs (Decidable (List.Pairwise _ os))

theorem mem_putOverride {key name : String} {os : List (String × String)} {o : String × String}
    (h : o ∈ putOverride key name os) : o = (key, name) ∨ o ∈ os := by
  fun_induction putOverride key name os with
  | case1 => exact .inl (List.mem_singleton.1 h)
  | case2 k n rest _ => exact List.mem_cons.1 h
  | case3 k n rest _ hk =>
    obtain rfl := beq_iff_eq.1 hk
    exact (List.mem_cons.1 h).imp_right (.tail _)
  | case4 k n rest _ _ ih =>
    rcases List.mem_cons.1 h with rfl | h
    · exact .inr (.head _)
    · exact (ih h).imp_right (.tail _)

theorem keysOrdered_putOverride {os : List (String × String)} (h : KeysOrdered os)
    (key name : String) : KeysOrdered (putOverride key name os) := by
  unfold KeysOrdered at h ⊢
  fun_induction putOverride key name os with
  | case1 => exact List.pairwise_singleton _ _
  | case2 k n rest hlt =>
    have hk : key.toUTF8.toList < k.toUTF8.toList := (Text.lt_iff_toUTF8_lt key k).1 hlt
    refine List.pairwise_cons.2 ⟨List.forall_mem_cons.2 ⟨hk, fun o ho => ?_⟩, h⟩
    exact List.lt_trans hk (List.rel_of_pairwise_cons h ho)
  | case3 k n rest _ hk =>
    obtain ⟨hhead, hrest⟩ := List.pairwise_cons.1 h
    exact List.pairwise_cons.2 ⟨hhead, hrest⟩
  | case4 k n rest hlt hne ih =>
    obtain ⟨hhead, hrest⟩ := List.pairwise_cons.1 h
    refine List.pairwise_cons.2 ⟨fun o ho => ?_, ih hrest⟩
    rcases mem_putOverride ho with rfl | ho
    · have hk : ¬ k = key := fun heq => hne (beq_iff_eq.2 heq)
      refine (Text.lt_iff_toUTF8_lt k key).1 ?_
      by_contra hge
      exact hk (String.le_antisymm (String.not_lt.1 hlt) (String.not_lt.1 hge))
    · exact hhead o ho

/-- Overrides are ordered however they are written. -/
theorem keysOrdered_overridesOf (entries : List (String × String)) :
    KeysOrdered (overridesOf entries) :=
  List.foldlRecOn entries _ List.Pairwise.nil fun _ h e _ => keysOrdered_putOverride h e.1 e.2

end Settings

/-- The overrides that are given, if any, are ordered. -/
def GivenSettings.IsOrdered (g : GivenSettings) : Prop :=
  ∀ os, g.typeOverrides = some os → Settings.KeysOrdered os

theorem GivenSettings.IsOrdered.complete {g : GivenSettings} (h : g.IsOrdered) :
    g.complete.IsOrdered := by
  unfold Settings.IsOrdered GivenSettings.complete
  cases hos : g.typeOverrides with
  | none => exact .nil
  | some os => exact h os hos

namespace Settings

open Yaml (Document Node)

theorem keysOrdered_overridesOfNode {d : Document} {part : String} {node : Node}
    {os : List (String × String)} (h : overridesOfNode d part node = .ok os) : KeysOrdered os := by
  unfold overridesOfNode at h
  split at h
  · cases h
  · obtain ⟨texts, -, h⟩ := bind_eq_ok.1 h
    cases h
    exact keysOrdered_overridesOf texts

theorem once_eq_ok {α : Type} {key : String} {given given' : Option α}
    {value : Except SettingsError α} (h : once key given value = .ok given') :
    ∃ a, value = .ok a ∧ given' = some a := by
  unfold once at h
  split at h
  · cases h
  · cases value with
    | error e => cases h
    | ok a => exact ⟨a, rfl, (Except.ok.inj h).symm⟩

theorem addEntry_isOrdered {d : Document} {g g' : GivenSettings} {entry : Node × Node}
    (hg : g.IsOrdered) (h : addEntry d g entry = .ok g') : g'.IsOrdered := by
  simp only [addEntry, bind_eq_ok] at h
  obtain ⟨key, -, h⟩ := h
  -- three settings are no overrides, the fourth is read in order, other keys are ignored
  split at h
  · obtain ⟨_, -, ⟨⟩⟩ := bind_eq_ok.1 h
    exact hg
  split at h
  · obtain ⟨_, -, ⟨⟩⟩ := bind_eq_ok.1 h
    exact hg
  split at h
  · obtain ⟨_, -, ⟨⟩⟩ := bind_eq_ok.1 h
    exact hg
  split at h
  · obtain ⟨given, hgiven, ⟨⟩⟩ := bind_eq_ok.1 h
    obtain ⟨os, hos, rfl⟩ := once_eq_ok hgiven
    rintro _ ⟨⟩
    exact keysOrdered_overridesOfNode hos
  · cases h
    exact hg

theorem foldlM_addEntry_isOrdered {d : Document} {entries : List (Node × Node)}
    {g g' : GivenSettings} (hg : g.IsOrdered) (h : entries.foldlM (addEntry d) g = .ok g') :
    g'.IsOrdered := by
  induction entries generalizing g with
  | nil =>
    cases h
    exact hg
  | cons entry entries ih =>
    rw [List.foldlM_cons] at h
    obtain ⟨mid, hmid, hrest⟩ := bind_eq_ok.1 h
    exact ih (addEntry_isOrdered hg hmid) hrest

theorem ofDocument_isOrdered {d : Document} {s : Settings} (h : ofDocument d = .ok s) :
    s.IsOrdered := by
  unfold ofDocument at h
  split at h
  · cases h
    exact .nil
  split at h
  · cases h
  · rename_i entries _
    cases hfold : entries.foldlM (addEntry d) {} with
    | error e =>
      rw [hfold] at h
      cases h
    | ok g =>
      rw [hfold] at h
      cases h
      exact (foldlM_addEntry_isOrdered (g := {}) (by rintro _ ⟨⟩) hfold).complete

/-- Settings that are read are ordered. -/
theorem ofYaml_isOrdered {text : String} {s : Settings} (h : ofYaml text = .ok s) :
    s.IsOrdered := by
  unfold ofYaml at h
  split at h
  · cases h
  · obtain ⟨s', hs', h⟩ := bind_eq_ok.1 h
    obtain ⟨_, -, h⟩ := bind_eq_ok.1 h
    cases h
    exact ofDocument_isOrdered hs'

/-! ## First and last keys -/

/-- The override with the smallest key, in byte order, of those with a property. -/
def IsFirst (P : String × String → Prop) (os : List (String × String)) (o : String × String) :
    Prop :=
  o ∈ os ∧ P o ∧ ∀ o' ∈ os, P o' → o.1.toUTF8.toList ≤ o'.1.toUTF8.toList

/-- The override with the greatest key, in byte order, of those with a property. -/
def IsLast (P : String × String → Prop) (os : List (String × String)) (o : String × String) :
    Prop :=
  o ∈ os ∧ P o ∧ ∀ o' ∈ os, P o' → o'.1.toUTF8.toList ≤ o.1.toUTF8.toList

section
variable {P : String × String → Prop} {os : List (String × String)} {o : String × String}

theorem KeysOrdered.isFirst_iff (h : KeysOrdered os) :
    IsFirst P os o ↔
      ∃ before after, os = before ++ o :: after ∧ (∀ b ∈ before, ¬ P b) ∧ P o := by
  constructor
  · rintro ⟨hmem, ho, hle⟩
    obtain ⟨before, after, rfl⟩ := List.append_of_mem hmem
    refine ⟨before, after, rfl, fun b hb hP => ?_, ho⟩
    have hlt := (List.pairwise_append.1 h).2.2 b hb o (.head _)
    exact List.not_le.2 hlt (hle b (List.mem_append_left _ hb) hP)
  · rintro ⟨before, after, rfl, hbefore, ho⟩
    refine ⟨List.mem_append_right _ (.head _), ho, fun o' ho' hP => ?_⟩
    rcases List.mem_append.1 ho' with hb | hrest
    · exact absurd hP (hbefore o' hb)
    rcases List.mem_cons.1 hrest with rfl | ha
    · exact List.le_refl _
    · exact List.le_of_lt (List.rel_of_pairwise_cons (List.pairwise_append.1 h).2.1 ha)

theorem KeysOrdered.isLast {before after : List (String × String)}
    (h : KeysOrdered (before ++ o :: after)) (ho : P o) (hafter : ∀ a ∈ after, ¬ P a) :
    IsLast P (before ++ o :: after) o := by
  refine ⟨List.mem_append_right _ (.head _), ho, fun o' ho' hP => ?_⟩
  rcases List.mem_append.1 ho' with hb | hrest
  · exact List.le_of_lt ((List.pairwise_append.1 h).2.2 o' hb o (.head _))
  rcases List.mem_cons.1 hrest with rfl | ha
  · exact List.le_refl _
  · exact absurd hP (hafter o' ha)

end

/-! ## The map of types -/

theorem typeMap_eq_ok_iff {s : Settings} {m : TypeMap} :
    s.typeMap = .ok m ↔ TypeMap.addAll {} s.typeOverrides = .ok m := by
  unfold typeMap
  cases TypeMap.addAll {} s.typeOverrides <;> simp

theorem typeMap_eq_error_iff {s : Settings} {e : SettingsError} :
    s.typeMap = .error e ↔
      ∃ u, TypeMap.addAll {} s.typeOverrides = .error u ∧ e = .unknownTarget u := by
  unfold typeMap
  cases TypeMap.addAll {} s.typeOverrides <;> simp [eq_comm]

/-- Settings are refused for the first key whose value is no target. -/
theorem typeMap_eq_error_iff_isFirst {s : Settings} (h : s.IsOrdered) {e : SettingsError} :
    s.typeMap = .error e ↔
      ∃ o, IsFirst (¬ IsName ·.2) s.typeOverrides o ∧ e = .unknownTarget ⟨o.2⟩ := by
  rw [typeMap_eq_error_iff]
  constructor
  · rintro ⟨u, hu, rfl⟩
    obtain ⟨before, o, after, hos, hbefore, ho, rfl⟩ := TypeMap.addAll_eq_error_iff.1 hu
    exact ⟨o, (KeysOrdered.isFirst_iff h).2
      ⟨before, after, hos, fun b hb => not_not_intro (hbefore b hb), ho⟩, rfl⟩
  · rintro ⟨o, hfirst, rfl⟩
    obtain ⟨before, after, hos, hbefore, ho⟩ := (KeysOrdered.isFirst_iff h).1 hfirst
    exact ⟨⟨o.2⟩, TypeMap.addAll_eq_error_iff.2
      ⟨before, o, after, hos, fun b hb => not_not.1 (hbefore b hb), ho, rfl⟩, rfl⟩

theorem exists_typeMap_error_iff {s : Settings} :
    (∃ e, s.typeMap = .error e) ↔ ∃ o ∈ s.typeOverrides, ¬ IsName o.2 := by
  constructor
  · rintro ⟨e, he⟩
    obtain ⟨u, hu, rfl⟩ := typeMap_eq_error_iff.1 he
    obtain ⟨before, o, after, hos, -, ho, -⟩ := TypeMap.addAll_eq_error_iff.1 hu
    exact ⟨o, hos ▸ List.mem_append_right _ (.head _), ho⟩
  · rintro ⟨o, hmem, ho⟩
    cases hs : s.typeMap with
    | error e => exact ⟨e, rfl⟩
    | ok m => exact absurd (TypeMap.isName_of_addAll (typeMap_eq_ok_iff.1 hs) o hmem) ho

/-- A type has the target of the greatest key that is this type, or the default one. -/
theorem target_cases {s : Settings} (h : s.IsOrdered) {m : TypeMap} (hm : s.typeMap = .ok m)
    (type : String) :
    (∃ o, IsLast (TypeMap.SameType ·.1 type) s.typeOverrides o ∧ (m.target type).name = o.2) ∨
    ((∀ o ∈ s.typeOverrides, ¬ TypeMap.SameType o.1 type) ∧
      m.target type = TypeMap.defaultTarget (Unicode.lowercase type)) := by
  rcases TypeMap.target_addAll (typeMap_eq_ok_iff.1 hm) type with
    ⟨before, o, after, hos, ho, hafter, htarget⟩ | ⟨hnone, htarget⟩
  · rw [IsOrdered, hos] at h
    exact .inl ⟨o, hos ▸ h.isLast ho hafter, htarget⟩
  · exact .inr ⟨hnone, htarget.trans (TypeMap.target_empty type)⟩

/-- The overrides of the settings give a map of types exactly if every value is a target; the error
names the value of the first key for which this is not so. A type has the target of the greatest key
that is this type up to letter case, and any other type has its default one. -/
theorem typeMap_last_wins {s : Settings} (h : s.IsOrdered) :
    ((∃ e, s.typeMap = .error e) ↔ ∃ o ∈ s.typeOverrides, ¬ IsName o.2) ∧
    (∀ e, s.typeMap = .error e →
      ∃ o, IsFirst (¬ IsName ·.2) s.typeOverrides o ∧ e = .unknownTarget ⟨o.2⟩ ∧
        e.message = "Unknown target type: " ++ o.2) ∧
    ∀ m, s.typeMap = .ok m → ∀ type,
      (∃ o, IsLast (TypeMap.SameType ·.1 type) s.typeOverrides o ∧ (m.target type).name = o.2) ∨
      ((∀ o ∈ s.typeOverrides, ¬ TypeMap.SameType o.1 type) ∧
        m.target type = TypeMap.defaultTarget (Unicode.lowercase type)) := by
  refine ⟨exists_typeMap_error_iff, fun e he => ?_, fun m hm => target_cases h hm⟩
  obtain ⟨o, hfirst, rfl⟩ := (typeMap_eq_error_iff_isFirst h).1 he
  exact ⟨o, hfirst, rfl, rfl⟩

/-- Of two keys that are one type up to case, the one in small letters comes last. -/
theorem typeMap_last_wins_two_cases : ∃ (s : Settings) (m : TypeMap),
    s.typeOverrides = [("Int", "UUID"), ("int", "Long")] ∧ s.IsOrdered ∧ s.typeMap = .ok m ∧
      (m.target "INT").name = "Long" ∧ m.target "boolean" = TypeMap.defaultTarget "boolean" := by
  obtain ⟨s, hs⟩ : ∃ s : Settings, s.typeOverrides = [("Int", "UUID"), ("int", "Long")] :=
    ⟨{ typeOverrides := _ }, rfl⟩
  have h : s.IsOrdered := by
    rw [IsOrdered, hs]
    decide +kernel
  have hnames : ∀ o ∈ s.typeOverrides, IsName o.2 := by
    rw [hs]
    exact List.forall_mem_cons.2 ⟨⟨.uuid, rfl⟩, List.forall_mem_singleton.2 ⟨.long, rfl⟩⟩
  obtain ⟨herror, -, htarget⟩ := typeMap_last_wins h
  cases hm : s.typeMap with
  | error e =>
    obtain ⟨o, ho, hname⟩ := herror.1 ⟨e, hm⟩
    exact absurd (hnames o ho) hname
  | ok m =>
    refine ⟨s, m, hs, h, hm, ?_, ?_⟩
    · have hlast : ("int", "Long") ∈ s.typeOverrides := by
        rw [hs]
        exact .tail _ (.head _)
      rcases htarget m hm "INT" with ⟨o, ⟨ho, -, hle⟩, hname⟩ | ⟨hnone, -⟩
      · rw [hname]
        rw [hs] at ho
        rcases List.mem_pair.1 ho with rfl | rfl
        · exact absurd (hle _ hlast (by decide +kernel)) (by decide +kernel)
        · rfl
      · exact absurd (by decide +kernel) (hnone _ hlast)
    · rcases htarget m hm "boolean" with ⟨o, ⟨ho, hsame, -⟩, -⟩ | ⟨-, hdefault⟩
      · rw [hs] at ho
        rcases List.mem_pair.1 ho with rfl | rfl <;> exact absurd hsame (by decide +kernel)
      · rw [hdefault]
        decide +kernel

end Settings

end EntityForge
