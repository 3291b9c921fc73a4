import EntityForge.Naming
import EntityForge.Proofs.Unicode.CaseMaps

/-!
# Names that are derived again

A member name has no underscore (`underscore_not_mem_camelChars`), and on a text without underscores
`camelChars` changes the first character only (`camelChars_cons`). What that character becomes is
left to the case maps: a lower-case form starts with a character that is its own lower-case form, and
a capital made from such a character comes back when it is lowered and raised. So a member name that
is made from a member name, and a class name that is made from a class or member name, is that name
(`camelCase_stable`).
-/

namespace EntityForge

open Unicode

/-! ## Underscores -/

theorem underscore_not_mem_joinWords (up : Bool) (cs : List Char) : '_' ∉ joinWords up cs := by
  induction cs generalizing up with
  | nil => exact List.not_mem_nil
  | cons c cs ih =>
    rw [joinWords]
    split
    · exact ih true
    · rename_i hc
      rw [List.mem_append, not_or]
      refine ⟨?_, ih false⟩
      split
      · exact underscore_not_mem_toUpper hc
      · exact fun h => hc (List.mem_singleton.1 h).symm

theorem joinWords_of_not_mem {cs : List Char} (h : '_' ∉ cs) : joinWords false cs = cs := by
  induction cs with
  | nil => rfl
  | cons c cs ih =>
    rw [List.mem_cons, not_or] at h
    rw [joinWords, if_neg (Ne.symm h.1), ih h.2]
    rfl

/-- A member name is empty, or the lower-case form of a character other than the underscore and
words that are joined. -/
theorem camelChars_cases (cs : List Char) : camelChars cs = [] ∨
    ∃ c rest, c ≠ '_' ∧ camelChars cs = toLower c ++ joinWords false rest := by
  unfold camelChars
  split
  · exact .inl rfl
  · rename_i c rest h
    have hc : (c == '_') = false := by
      have := List.head?_dropWhile_not (· == '_') cs
      rw [h] at this
      simpa using this
    exact .inr ⟨c, rest, by simpa using hc, rfl⟩

theorem underscore_not_mem_camelChars (cs : List Char) : '_' ∉ camelChars cs := by
  rcases camelChars_cases cs with h | ⟨c, rest, hc, h⟩
  · rw [h]
    exact List.not_mem_nil
  · rw [h, List.mem_append, not_or]
    exact ⟨underscore_not_mem_toLower hc, underscore_not_mem_joinWords false rest⟩

/-- Without underscores only the first character changes. -/
theorem camelChars_cons {c : Char} {cs : List Char} (h : '_' ∉ c :: cs) :
    camelChars (c :: cs) = toLower c ++ cs := by
  rw [List.mem_cons, not_or] at h
  have hdrop : (c :: cs).dropWhile (· == '_') = c :: cs :=
    List.dropWhile_cons_of_neg (by simpa using Ne.symm h.1)
  rw [camelChars, hdrop]
  exact congrArg (toLower c ++ ·) (joinWords_of_not_mem h.2)

/-! ## Deriving again -/

/-- A member name that is not empty starts with a character in lower case. -/
theorem camelChars_head (cs : List Char) : camelChars cs = [] ∨
    ∃ d rest, camelChars cs = d :: rest ∧ toLower d = [d] := by
  rcases camelChars_cases cs with h | ⟨c, rest, -, h⟩
  · exact .inl h
  · obtain ⟨d, ds, hlower, hd⟩ := exists_toLower c
    exact .inr ⟨d, ds ++ joinWords false rest, by rw [h, hlower, List.cons_append], hd⟩

theorem camelChars_camelChars (cs : List Char) : camelChars (camelChars cs) = camelChars cs := by
  have hunder := underscore_not_mem_camelChars cs
  rcases camelChars_head cs with h | ⟨d, rest, h, hd⟩
  · rw [h]
    rfl
  · rw [h] at hunder ⊢
    rw [camelChars_cons hunder, hd, List.singleton_append]

/-- The capital of a member name is found again from its lower-case form. -/
theorem capitalize_camelChars_capitalize (cs : List Char) :
    capitalize (camelChars (capitalize (camelChars cs))) = capitalize (camelChars cs) := by
  have hunder := underscore_not_mem_camelChars cs
  rcases camelChars_head cs with h | ⟨d, rest, h, hd⟩
  · rw [h]
    rfl
  · obtain ⟨u, us, l, hupper, hlower, hback⟩ := exists_toUpper hd
    rw [h, List.mem_cons, not_or] at hunder
    have hclass : '_' ∉ u :: (us ++ rest) := by
      rw [← List.cons_append, ← hupper, List.mem_append, not_or]
      exact ⟨underscore_not_mem_toUpper (Ne.symm hunder.1), hunder.2⟩
    calc capitalize (camelChars (capitalize (camelChars cs)))
        = capitalize (camelChars (u :: (us ++ rest))) := by rw [h, capitalize, hupper]; rfl
      _ = capitalize (l :: (us ++ rest)) := by rw [camelChars_cons hclass, hlower]; rfl
      _ = u :: (us ++ rest) := by rw [capitalize, hback]; rfl
      _ = capitalize (camelChars cs) := by rw [h, capitalize, hupper]; rfl

/-- A member name has no underscore, and names do not change when they are derived again: the member
name of a member name is that name, and the class name of the class name, or of the member name, of
a text is the class name of the text. -/
theorem camelCase_stable (s : String) :
    '_' ∉ (camelCase s).toList ∧ camelCase (camelCase s) = camelCase s ∧
      pascalCase (camelCase s) = pascalCase s ∧ pascalCase (pascalCase s) = pascalCase s := by
  simp only [camelCase, pascalCase, String.toList_ofList]
  exact ⟨underscore_not_mem_camelChars s.toList, by rw [camelChars_camelChars],
    by rw [camelChars_camelChars], by rw [capitalize_camelChars_capitalize]⟩

end EntityForge
