import EntityForge.Dbml.Parser.Basic

/-!
# Readers see what they read

A reader that succeeds leaves an end of its tokens, and gives the same value when more tokens
follow, provided that these are the start of a declaration or there are none (`Opening`): no reader
looks past a declaration at anything but the keyword of the next one. `Local` states both for a
reader with a value and `LocalSkip` for one that only skips; readers one after the other are local if
each of them is (`Local.bind`, `LocalSkip.bind`). Each reader has one such lemma, beside those of its
kind; this module has the readers of names and blocks.
-/

namespace EntityForge.Dbml

/-! ## Local readers -/

/-- The words that start a declaration. -/
def declarationWords : List String :=
  ["table", "ref", "enum", "project", "note", "tablegroup", "records"]

/-- The tokens start with the keyword of a declaration, or there are none. -/
def Opening (ts : List Token) : Prop :=
  ts = [] ∨ ∃ s rest, ts = .ident s :: rest ∧ Text.lowerAscii s ∈ declarationWords

/-- A reader leaves an end of its tokens and gives the same value when a declaration follows. -/
def Local {α : Type} (p : List Token → Except ParseError (Parsed α)) : Prop :=
  ∀ ⦃ts a rest⦄, p ts = .ok (a, rest) →
    rest <:+ ts ∧ ∀ us, Opening us → p (ts ++ us) = .ok (a, rest ++ us)

/-- A skipping reader leaves an end of its tokens and the same one when a declaration follows. -/
def LocalSkip (p : List Token → Except ParseError (List Token)) : Prop :=
  ∀ ⦃ts rest⦄, p ts = .ok rest →
    rest <:+ ts ∧ ∀ us, Opening us → p (ts ++ us) = .ok (rest ++ us)

/-- A skipping reader leaves this end of the tokens, whatever follows them. -/
def LeavesAlways (p : List Token → Except ParseError (List Token)) (ts rest : List Token) : Prop :=
  rest <:+ ts ∧ ∀ us, p (ts ++ us) = .ok (rest ++ us)

/-- A skipping reader stops at a token of its own, so nothing that follows matters to it. -/
def ClosedSkip (p : List Token → Except ParseError (List Token)) : Prop :=
  ∀ ⦃ts rest⦄, p ts = .ok rest → LeavesAlways p ts rest

/-- A reader stops at a token of its own: it gives the same value whatever follows. -/
def Closed {α : Type} (p : List Token → Except ParseError (Parsed α)) : Prop :=
  ∀ ⦃ts a rest⦄, p ts = .ok (a, rest) →
    rest <:+ ts ∧ ∀ us, p (ts ++ us) = .ok (a, rest ++ us)

theorem Closed.local {α : Type} {p : List Token → Except ParseError (Parsed α)} (hp : Closed p) :
    Local p :=
  fun _ _ _ h => ⟨(hp h).1, fun us _ => (hp h).2 us⟩

/-- One token more in front, which the reader passes. -/
theorem LeavesAlways.cons {p q : List Token → Except ParseError (List Token)}
    {ts rest : List Token} (h : LeavesAlways q ts rest) (t : Token)
    (ht : ∀ us, p (t :: us) = q us) : LeavesAlways p (t :: ts) rest :=
  ⟨h.1.trans (List.suffix_cons _ _), fun us => (ht (ts ++ us)).trans (h.2 us)⟩

theorem ClosedSkip.local {p : List Token → Except ParseError (List Token)} (hp : ClosedSkip p) :
    LocalSkip p :=
  fun _ _ h => ⟨(hp h).1, fun us _ => (hp h).2 us⟩

theorem map_eq_ok {ε α β : Type} {x : Except ε α} {f : α → β} {b : β} :
    x.map f = .ok b ↔ ∃ a, x = .ok a ∧ f a = b := by
  cases x <;> simp [Except.map]

theorem Local.map {α β : Type} {p : List Token → Except ParseError (Parsed α)} (hp : Local p)
    (f : α → β) : Local fun ts => (p ts).map fun (a, rest) => (f a, rest) := by
  intro ts b rest h
  obtain ⟨⟨a, r⟩, h1, h2⟩ := map_eq_ok.1 h
  cases h2
  obtain ⟨hr, hru⟩ := hp h1
  exact ⟨hr, fun us hus => map_eq_ok.2 ⟨_, hru us hus, rfl⟩⟩

theorem Local.pure {α : Type} (a : α) : Local fun ts => .ok (a, ts) := by
  intro ts b rest h
  cases h
  exact ⟨List.suffix_refl _, fun us _ => rfl⟩

theorem Local.error {α : Type} (e : List Token → ParseError) :
    Local fun ts => (.error (e ts) : Except ParseError (Parsed α)) := by
  intro ts b rest h
  cases h

/-- One reader after the other. -/
theorem Local.bind {α β : Type} {p : List Token → Except ParseError (Parsed α)}
    {k : Parsed α → Except ParseError (Parsed β)} (hp : Local p)
    (hk : ∀ a, Local fun rest => k (a, rest)) : Local fun ts => p ts >>= k := by
  intro ts b rest h
  obtain ⟨⟨a, r⟩, h1, h2⟩ := bind_eq_ok.1 h
  obtain ⟨hr, hru⟩ := hp h1
  obtain ⟨hr', hru'⟩ := hk a h2
  exact ⟨hr'.trans hr, fun us hus => bind_eq_ok.2 ⟨_, hru us hus, hru' us hus⟩⟩

/-- A reader after one that skips. -/
theorem LocalSkip.bind {α : Type} {p : List Token → Except ParseError (List Token)}
    {q : List Token → Except ParseError (Parsed α)} (hp : LocalSkip p) (hq : Local q) :
    Local fun ts => p ts >>= q := by
  intro ts a rest h
  obtain ⟨r, h1, h2⟩ := bind_eq_ok.1 h
  obtain ⟨hr, hru⟩ := hp h1
  obtain ⟨hr', hru'⟩ := hq h2
  exact ⟨hr'.trans hr, fun us hus => bind_eq_ok.2 ⟨_, hru us hus, hru' us hus⟩⟩

/-- A reader of the tokens after the first. -/
theorem Local.cons {α : Type} {p : List Token → Except ParseError (Parsed α)} (hp : Local p)
    {t : Token} {ts rest : List Token} {a : α} (h : p ts = .ok (a, rest)) :
    rest <:+ t :: ts ∧ ∀ us, Opening us → p (ts ++ us) = .ok (a, rest ++ us) := by
  obtain ⟨hr, hru⟩ := hp h
  exact ⟨hr.trans (List.suffix_cons _ _), hru⟩

section
variable {us : List Token} (hus : Opening us)
include hus

/-- No mark starts a declaration. -/
theorem Opening.ne_cons {t : Token} (ht : ∀ s, t ≠ .ident s) (rest : List Token) :
    us ≠ t :: rest := by
  obtain rfl | ⟨s, r, rfl, -⟩ := hus
  · simp
  · intro heq
    exact ht s (List.cons.inj heq).1.symm

/-- A mark that starts the longer input starts the shorter one. -/
theorem Opening.of_append_eq_cons {t : Token} (ht : ∀ s, t ≠ .ident s) {ts rest : List Token}
    (h : ts ++ us = t :: rest) : ∃ r, ts = t :: r := by
  cases ts with
  | nil => exact absurd h (hus.ne_cons ht rest)
  | cons u r => exact ⟨r, by rw [(List.cons.inj h).1]⟩

/-- A mark that does not start the shorter input does not start the longer one. -/
theorem Opening.append_ne_cons {t : Token} (ht : ∀ s, t ≠ .ident s) {ts : List Token}
    (h : ∀ r, ts ≠ t :: r) (rest : List Token) : ts ++ us ≠ t :: rest := by
  intro heq
  obtain ⟨r, hr⟩ := hus.of_append_eq_cons ht heq
  exact h r hr

theorem Opening.startsWithWord_append {word : String} (hw : word ∉ declarationWords)
    (ts : List Token) : startsWithWord word (ts ++ us) = startsWithWord word ts := by
  cases ts with
  | nil =>
    obtain rfl | ⟨s, rest, rfl, hs⟩ := hus
    · rfl
    · have : Text.lowerAscii s ≠ word := fun he => hw (he ▸ hs)
      simpa [startsWithWord] using this
  | cons u r => cases u <;> rfl

end

/-! ## Names and blocks -/

theorem parseName_local : Local parseName := by
  intro ts s rest h
  cases ts with
  | nil => cases h
  | cons t r =>
    cases hs : t.name? with
    | none => simp [parseName, hs] at h
    | some n =>
      simp only [parseName, hs, Except.ok.injEq, Prod.mk.injEq] at h
      obtain ⟨rfl, rfl⟩ := h
      exact ⟨List.suffix_cons _ _, fun us _ => by simp [parseName, hs]⟩

theorem expectToken_closed (t : Token) (what : Expected) : ClosedSkip (expectToken t what) := by
  intro ts rest h
  obtain rfl := expectToken_eq_ok.1 h
  exact ⟨List.suffix_cons _ _, fun us => expectToken_eq_ok.2 rfl⟩

theorem expectToken_local (t : Token) (what : Expected) : LocalSkip (expectToken t what) :=
  (expectToken_closed t what).local

theorem parseQualifiedName_local : Local parseQualifiedName := by
  refine parseName_local.bind fun first => ?_
  intro ts p rest h
  dsimp only at h
  split at h
  · exact (parseName_local.bind fun second => .pure (first, second)).cons h
  · rename_i hdot
    cases h
    refine ⟨List.suffix_refl _, fun us hus => ?_⟩
    dsimp only
    split
    · rename_i heq
      exact absurd heq (hus.append_ne_cons (by simp) hdot _)
    · rfl

theorem skipNested_closed (depth : Nat) : ClosedSkip (skipNested depth) := by
  intro ts rest h
  fun_induction skipNested depth ts with
  | case1 => cases h
  | case2 depth ts ih => exact (ih h).cons _ fun us => by simp [skipNested]
  | case3 ts =>
    cases h
    exact ⟨List.suffix_cons _ _, fun us => by simp [skipNested]⟩
  | case4 depth ts ih => exact (ih h).cons _ fun us => by simp [skipNested]
  | case5 depth t ts hl hr1 hr2 ih =>
    refine (ih h).cons t fun us => ?_
    rw [skipNested]
    · exact hl
    · exact hr1
    · exact hr2

theorem skipBlock_closed : ClosedSkip skipBlock := by
  intro ts rest h
  obtain ⟨r, h1, h2⟩ := bind_eq_ok.1 h
  obtain ⟨hr, hru⟩ := expectToken_closed _ _ h1
  obtain ⟨hr', hru'⟩ := skipNested_closed 0 h2
  exact ⟨hr'.trans hr, fun us => bind_eq_ok.2 ⟨_, hru us, hru' us⟩⟩

theorem skipBlock_local : LocalSkip skipBlock :=
  skipBlock_closed.local

theorem skipToBlock_local : LocalSkip skipToBlock := by
  refine ClosedSkip.local fun ts rest h => ?_
  fun_induction skipToBlock ts with
  | case1 => cases h
  | case2 ts =>
    cases h
    exact ⟨List.suffix_refl _, fun us => rfl⟩
  | case3 t ts ht ih => exact (ih h).cons t fun us => by rw [skipToBlock]; exact ht

theorem skipToBracket_local : LocalSkip skipToBracket := by
  refine ClosedSkip.local fun ts rest h => ?_
  fun_induction skipToBracket ts with
  | case1 => cases h
  | case2 ts =>
    cases h
    exact ⟨List.suffix_cons _ _, fun us => rfl⟩
  | case3 t ts ht ih => exact (ih h).cons t fun us => by rw [skipToBracket]; exact ht

theorem skipBrackets_local : LocalSkip skipBrackets := by
  intro ts rest h
  unfold skipBrackets at h
  split at h
  · obtain ⟨h1, h2⟩ := skipToBracket_local h
    exact ⟨h1.trans (List.suffix_cons _ _), fun us hus => h2 us hus⟩
  · rename_i hb
    cases h
    refine ⟨List.suffix_refl _, fun us hus => ?_⟩
    unfold skipBrackets
    split
    · rename_i heq
      exact absurd heq (hus.append_ne_cons (by simp) hb _)
    · rfl

end EntityForge.Dbml
