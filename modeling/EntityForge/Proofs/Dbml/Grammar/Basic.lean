import EntityForge.Proofs.Dbml.Locality.Basic

/-!
# The grammar: names and brackets

The readers take tokens from the left and say what they stand for. The grammar says the same without
them: a relation between tokens and what these stand for, for each kind of phrase. Beside each
relation stand two lemmas. What a reader takes is a phrase (`…_sound`), and a phrase is read if what
follows does not prolong it (`…_complete`).

This module has the phrases of names and the settings in brackets that are skipped.
-/

namespace EntityForge.Dbml

/-- Tokens with what they stand for in the grammar of `IsPhrase`. -/
structure Phrase {α : Type} (IsPhrase : List Token → α → Prop) where
  tokens : List Token
  value : α
  valid : IsPhrase tokens value

/-! ## Names -/

theorem startsWithWord_eq_true {word : String} {ts : List Token} :
    startsWithWord word ts = true ↔
      ∃ s rest, ts = .ident s :: rest ∧ Text.lowerAscii s = word := by
  unfold startsWithWord
  split
  · simp
  · rename_i h
    simpa using fun s rest heq _ => h s rest heq

/-- One token that is a name. -/
inductive IsName : List Token → String → Prop where
  | mk {t : Token} {s : String} (h : t.name? = some s) : IsName [t] s

/-- A name, perhaps after the name of a schema. -/
inductive IsQualifiedName : List Token → String × String → Prop where
  | bare {t : Token} {name : String} (ht : t.name? = some name) :
      IsQualifiedName [t] (defaultSchema, name)
  | dotted {s t : Token} {schema name : String} (hs : s.name? = some schema)
      (ht : t.name? = some name) : IsQualifiedName [s, .dot, t] (schema, name)

theorem parseName_cons {t : Token} {s : String} (h : t.name? = some s) (rest : List Token) :
    parseName (t :: rest) = .ok (s, rest) := by
  simp [parseName, h]

theorem parseName_eq_ok {ts rest : List Token} {s : String} :
    parseName ts = .ok (s, rest) ↔ ∃ t, ts = t :: rest ∧ t.name? = some s := by
  cases ts with
  | nil => simp [parseName]
  | cons t r =>
    cases ht : t.name? with
    | none => simp [parseName, ht]
    | some n =>
      simp only [parseName, ht, Except.ok.injEq, Prod.mk.injEq, List.cons.injEq]
      constructor
      · rintro ⟨rfl, rfl⟩
        exact ⟨t, ⟨rfl, rfl⟩, ht⟩
      · rintro ⟨_, ⟨rfl, rfl⟩, hs⟩
        exact ⟨Option.some.inj (ht.symm.trans hs), rfl⟩

theorem parseName_sound {ts rest : List Token} {s : String} (h : parseName ts = .ok (s, rest)) :
    ∃ taken, ts = taken ++ rest ∧ IsName taken s := by
  obtain ⟨t, rfl, ht⟩ := parseName_eq_ok.1 h
  exact ⟨[t], rfl, .mk ht⟩

theorem parseName_complete {taken : List Token} {s : String} (h : IsName taken s)
    (rest : List Token) : parseName (taken ++ rest) = .ok (s, rest) := by
  cases h with
  | mk ht => exact parseName_cons ht rest

theorem parseQualifiedName_sound {ts rest : List Token} {n : String × String}
    (h : parseQualifiedName ts = .ok (n, rest)) :
    ∃ taken, ts = taken ++ rest ∧ IsQualifiedName taken n := by
  simp only [parseQualifiedName, bind_eq_ok] at h
  obtain ⟨⟨first, r⟩, h1, h2⟩ := h
  obtain ⟨t, rfl, ht⟩ := parseName_eq_ok.1 h1
  dsimp only at h2
  split at h2
  · obtain ⟨⟨second, r'⟩, h3, h4⟩ := bind_eq_ok.1 h2
    obtain ⟨u, rfl, hu⟩ := parseName_eq_ok.1 h3
    cases h4
    exact ⟨_, rfl, .dotted ht hu⟩
  · cases h2
    exact ⟨_, rfl, .bare ht⟩

theorem parseQualifiedName_complete {taken rest : List Token} {n : String × String}
    (h : IsQualifiedName taken n) (hrest : rest.head? ≠ some .dot) :
    parseQualifiedName (taken ++ rest) = .ok (n, rest) := by
  simp only [parseQualifiedName, bind_eq_ok]
  cases h with
  | bare ht =>
    refine ⟨_, parseName_cons ht rest, ?_⟩
    dsimp only
    split
    · exact absurd rfl hrest
    · rfl
  | dotted hs ht => exact ⟨_, parseName_cons hs _, bind_eq_ok.2 ⟨_, parseName_cons ht rest, rfl⟩⟩

/-! ## Skipped settings -/

/-- Nothing, or any tokens in brackets up to the first closing bracket. -/
inductive IsBrackets : List Token → Prop where
  | absent : IsBrackets []
  | present {inside : List Token} (h : .rbracket ∉ inside) :
      IsBrackets (.lbracket :: (inside ++ [.rbracket]))

theorem skipToBracket_eq_ok {ts rest : List Token} :
    skipToBracket ts = .ok rest ↔
      ∃ inside, ts = inside ++ .rbracket :: rest ∧ .rbracket ∉ inside := by
  fun_induction skipToBracket ts with
  | case1 => simp
  | case2 ts =>
    constructor
    · intro h
      cases h
      exact ⟨[], rfl, List.not_mem_nil⟩
    · rintro ⟨inside, heq, hmem⟩
      cases inside with
      | nil => rw [(List.cons.inj heq).2]
      | cons t inside => exact absurd ((List.cons.inj heq).1 ▸ .head _) hmem
  | case3 t ts ht ih =>
    rw [ih]
    constructor
    · rintro ⟨inside, rfl, hmem⟩
      exact ⟨t :: inside, rfl, by simpa using ⟨fun h => ht h.symm, hmem⟩⟩
    · rintro ⟨inside, heq, hmem⟩
      cases inside with
      | nil => exact absurd (List.cons.inj heq).1 ht
      | cons u inside =>
        exact ⟨inside, (List.cons.inj heq).2, fun h => hmem (.tail _ h)⟩

theorem skipBrackets_sound {ts rest : List Token} (h : skipBrackets ts = .ok rest) :
    ∃ taken, ts = taken ++ rest ∧ IsBrackets taken := by
  unfold skipBrackets at h
  split at h
  · obtain ⟨inside, rfl, hmem⟩ := skipToBracket_eq_ok.1 h
    exact ⟨_, by simp, .present hmem⟩
  · cases h
    exact ⟨[], rfl, .absent⟩

theorem skipBrackets_complete {taken rest : List Token} (h : IsBrackets taken)
    (hrest : rest.head? ≠ some .lbracket) : skipBrackets (taken ++ rest) = .ok rest := by
  cases h with
  | absent =>
    rw [List.nil_append]
    unfold skipBrackets
    split
    · exact absurd rfl hrest
    · rfl
  | present hmem => exact skipToBracket_eq_ok.2 ⟨_, by simp, hmem⟩

end EntityForge.Dbml
