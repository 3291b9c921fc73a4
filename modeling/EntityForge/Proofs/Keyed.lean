import Mathlib.Data.List.Induction
import Mathlib.Data.List.Nodup

/-!
# Values under keys

A list of keys with values answers for a key with the value that stands there first. To put a value
under a key leaves those before and after it as they are (`exists_put`), or adds it at the end
(`put_of_lookup_none`), so that keys stay in the order in which they first came (`map_fst_put`). If
every key occurs once, the list holds what it answers (`lookup_eq_some_iff`) and is known by its
answers up to order (`perm_iff_lookup`).
-/

namespace EntityForge.Keyed

variable {α : Type}

/-- Puts a value under a key: in the place of the one that is there, or at the end. -/
def put (key : String) (value : α) : List (String × α) → List (String × α)
  | [] => [(key, value)]
  | (k, v) :: rest => if k == key then (k, value) :: rest else (k, v) :: put key value rest

/-! ## Keys in order of first occurrence -/

theorem eraseDups_concat (keys : List String) (key : String) :
    (keys ++ [key]).eraseDups =
      if key ∈ keys then keys.eraseDups else keys.eraseDups ++ [key] := by
  rw [List.eraseDups_append]
  split
  · rename_i h
    simp [List.removeAll, h]
  · rename_i h
    simp [List.removeAll, h, List.eraseDups_cons]

theorem nodup_eraseDups (keys : List String) : keys.eraseDups.Nodup := by
  induction keys using List.reverseRecOn with
  | nil => exact .nil
  | append_singleton keys key ih =>
    rw [eraseDups_concat]
    split
    · exact ih
    · rename_i h
      rw [← List.concat_eq_append]
      exact ih.concat fun hmem => h (List.mem_eraseDups.1 hmem)

/-! ## Looking up -/

theorem lookup_cons_eq (j k : String) (value : α) (entries : List (String × α)) :
    ((j, value) :: entries).lookup k = if k = j then some value else entries.lookup k := by
  by_cases h : k = j
  · simp [h]
  · have hb : (k == j) = false := beq_false_of_ne h
    simp [List.lookup_cons, hb, h]

section
variable {entries : List (String × α)} {key : String}

theorem lookup_eq_none_iff : entries.lookup key = none ↔ key ∉ entries.map (·.1) := by
  rw [List.lookup_eq_none_iff]
  simp only [bne_iff_ne, List.mem_map, not_exists, not_and]
  exact forall_congr' fun c => forall_congr' fun _ => ne_comm

theorem exists_lookup_of_mem (h : key ∈ entries.map (·.1)) :
    ∃ value, entries.lookup key = some value :=
  Option.ne_none_iff_exists'.1 fun hnone => lookup_eq_none_iff.1 hnone h

theorem mem_of_lookup {value : α} (h : entries.lookup key = some value) :
    (key, value) ∈ entries := by
  obtain ⟨before, after, rfl, -⟩ := List.lookup_eq_some_iff.1 h
  exact List.mem_append_right _ (.head _)

theorem lookup_of_mem (hnd : (entries.map (·.1)).Nodup) {value : α} (h : (key, value) ∈ entries) :
    entries.lookup key = some value := by
  obtain ⟨before, after, rfl⟩ := List.append_of_mem h
  rw [List.map_append, List.map_cons, List.nodup_append] at hnd
  refine List.lookup_eq_some_iff.2 ⟨before, after, rfl, fun c hc => bne_iff_ne.2 fun heq => ?_⟩
  exact hnd.2.2 c.1 (List.mem_map_of_mem hc) key (.head _) heq.symm

theorem lookup_eq_some_iff (hnd : (entries.map (·.1)).Nodup) {value : α} :
    entries.lookup key = some value ↔ (key, value) ∈ entries :=
  ⟨mem_of_lookup, lookup_of_mem hnd⟩

end

/-- Two lists without repeated keys have the same entries exactly if they answer alike. -/
theorem perm_iff_lookup {xs ys : List (String × α)} (hx : (xs.map (·.1)).Nodup)
    (hy : (ys.map (·.1)).Nodup) : xs.Perm ys ↔ ∀ key, xs.lookup key = ys.lookup key := by
  rw [List.perm_ext_iff_of_nodup hx.of_map hy.of_map]
  constructor
  · intro h key
    refine Option.ext fun value => ?_
    rw [lookup_eq_some_iff hx, lookup_eq_some_iff hy, h]
  · rintro h ⟨key, value⟩
    rw [← lookup_eq_some_iff hx, ← lookup_eq_some_iff hy, h]

/-! ## Putting -/

theorem lookup_put (key : String) (value : α) (entries : List (String × α)) (k : String) :
    (put key value entries).lookup k = if k = key then some value else entries.lookup k := by
  induction entries with
  | nil => rw [put, lookup_cons_eq]
  | cons c entries ih =>
    obtain ⟨j, v⟩ := c
    by_cases hj : j = key
    · subst hj
      simp only [put, beq_self_eq_true, if_true, lookup_cons_eq]
      split <;> rfl
    · simp only [put, beq_false_of_ne hj, Bool.false_eq_true, if_false, lookup_cons_eq, ih]
      by_cases hk : k = j
      · rw [if_pos hk, if_pos hk, if_neg (hk ▸ hj)]
      · rw [if_neg hk, if_neg hk]

section
variable {entries : List (String × α)} {key : String}

/-- A value that is put under a new key comes last. -/
theorem put_of_lookup_none (h : entries.lookup key = none) (value : α) :
    put key value entries = entries ++ [(key, value)] := by
  induction entries with
  | nil => rfl
  | cons c entries ih =>
    rw [lookup_eq_none_iff, List.map_cons, List.mem_cons, not_or] at h
    rw [put, if_neg (by simpa using Ne.symm h.1), ih (lookup_eq_none_iff.2 h.2)]
    rfl

/-- A value that is put under a used key takes the place of the one that was there. -/
theorem exists_put {old : α} (h : entries.lookup key = some old) (value : α) :
    ∃ before after, entries = before ++ (key, old) :: after ∧
      put key value entries = before ++ (key, value) :: after := by
  obtain ⟨before, after, rfl, hbefore⟩ := List.lookup_eq_some_iff.1 h
  refine ⟨before, after, rfl, ?_⟩
  clear h
  induction before with
  | nil => simp [put]
  | cons c before ih =>
    have hc : key ≠ c.1 := bne_iff_ne.1 (hbefore c (.head _))
    rw [List.cons_append, put, if_neg (by simpa using hc.symm),
      ih fun d hd => hbefore d (.tail _ hd)]
    rfl

theorem map_fst_put (key : String) (value : α) (entries : List (String × α)) :
    (put key value entries).map (·.1) =
      if key ∈ entries.map (·.1) then entries.map (·.1) else entries.map (·.1) ++ [key] := by
  split
  · rename_i h
    obtain ⟨old, hold⟩ := exists_lookup_of_mem h
    obtain ⟨before, after, rfl, hput⟩ := exists_put hold value
    rw [hput, List.map_append, List.map_append, List.map_cons, List.map_cons]
  · rename_i h
    rw [put_of_lookup_none (lookup_eq_none_iff.2 h), List.map_append]
    rfl

theorem nodup_map_fst_put (h : (entries.map (·.1)).Nodup) (key : String) (value : α) :
    ((put key value entries).map (·.1)).Nodup := by
  rw [map_fst_put]
  split
  · exact h
  · rename_i hkey
    rw [← List.concat_eq_append]
    exact h.concat hkey

end

end EntityForge.Keyed
