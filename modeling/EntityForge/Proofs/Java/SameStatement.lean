import EntityForge.Proofs.Java.Lockstep

/-!
# Two texts of one statement

Two scanners read a statement that starts with `u` for the one and with `v` for the other, and goes on
in the same way: in the statement, or in its initial value (`SameStatement`). If no brace that follows
can tell the two apart, they stay so until a semicolon or a brace ends the statement
(`SameStatement.step`). So they give the same fields, or the same kind of error, if the statement
declares the same fields in both as it stands at its semicolon (`SameStatement.fields_eq`).
-/

namespace EntityForge.Java

/-- The statement that is being read, as it stands at the next semicolon outside initial values; none
if a brace ends it before. -/
def Scanner.statementNext? (s : Scanner) : List Char → Option (List Char)
  | [] => none
  | c :: cs =>
    if c = ';' ∧ s.inStatement then some s.statement.reverse
    else
      match s.step c with
      | .error _ => none
      | .ok s' => if s'.statement = [] then none else s'.statementNext? cs

/-- The scopes of a statement that is being read in the scopes `outer`: these, or blocks within its
initial value. -/
def Within (outer scopes : List Scope) : Prop :=
  scopes = outer ∨ ∃ depth, scopes = List.replicate depth .block ++ .initializer :: outer

/-- The scanners read the same statement, which starts with `u` for the one and with `v` for the
other. -/
structure SameStatement (outer : List Scope) (u v : List Char) (s t : Scanner) : Prop where
  scopes : t.scopes = s.scopes
  fields : t.fields = s.fields
  types : AllTypes outer
  place : Within outer s.scopes
  statement : ∃ z, s.statement.reverse = u ++ z ∧ t.statement.reverse = v ++ z

namespace SameStatement

variable {outer : List Scope} {u v : List Char} {s t : Scanner}

/-- The same text is added to both. -/
theorem extend (h : SameStatement outer u v s t) (z : List Char) {s' t' : Scanner}
    (hplace : Within outer s'.scopes)
    (hs : s'.fields = s.fields ∧ s'.statement = z.reverse ++ s.statement)
    (ht : t'.scopes = s'.scopes ∧ t'.fields = t.fields ∧ t'.statement = z.reverse ++ t.statement) :
    SameStatement outer u v s' t' := by
  obtain ⟨x, hx, hx'⟩ := h.statement
  refine ⟨ht.1, by rw [ht.2.1, hs.1, h.fields], h.types, hplace, x ++ z, ?_, ?_⟩
  · simp [hs.2, hx]
  · simp [ht.2.2, hx']

theorem braceAlike (h : SameStatement outer u v s t) (hread : ReadAlike u v) : BraceAlike s t := by
  obtain ⟨x, hx, hx'⟩ := h.statement
  refine ⟨h.scopes, h.fields, ?_, ?_, ?_⟩
  · rw [hx, hx', openParens_append, openParens_append, hread.parens]
  · rw [hx, hx', hread.initializer]
  · rw [hx, hx', hread.keyword]

/-- In the initial value, blocks are opened and closed, and its last brace ends it. -/
theorem step_value (h : SameStatement outer u v s t) {depth : Nat}
    (hscopes : s.scopes = List.replicate depth .block ++ .initializer :: outer) (c : Char) :
    ∃ s' t', s.step c = .ok s' ∧ t.step c = .ok t' ∧ SameStatement outer u v s' t' := by
  have hin : ∀ (s : Scanner) (depth : Nat),
      s.scopes = List.replicate depth .block ++ .initializer :: outer → s.inStatement = false := by
    intro s depth hs
    cases depth with
    | zero => exact Scanner.inStatement_of_ne_type hs (by simp)
    | succ depth => exact Scanner.inStatement_of_ne_type hs (by simp)
  have hscopes' := h.scopes.trans hscopes
  have hout := hin s depth hscopes
  have hout' := hin t depth hscopes'
  by_cases hopen : c = '\x7b'
  · subst hopen
    refine ⟨_, _, Scanner.step_openBrace (by simp [hout]), Scanner.step_openBrace (by simp [hout']),
      ?_⟩
    rw [Scanner.openBrace, Scanner.openBrace, hout, hout']
    have hplace : Within outer (.block :: s.scopes) :=
      .inr ⟨depth + 1, by rw [hscopes]; rfl⟩
    exact h.extend [] hplace ⟨rfl, rfl⟩ ⟨congrArg (List.cons _) h.scopes, rfl, rfl⟩
  by_cases hclose : c = '\x7d'
  · subst hclose
    rw [Scanner.step_closeBrace (by simp [hout]), Scanner.step_closeBrace (by simp [hout'])]
    cases depth with
    | zero =>
      refine ⟨{ s with scopes := outer, statement := '\x7d' :: '\x7b' :: s.statement },
        { t with scopes := outer, statement := '\x7d' :: '\x7b' :: t.statement }, ?_, ?_, ?_⟩
      · rw [Scanner.closeBrace, hscopes]
        rfl
      · rw [Scanner.closeBrace, hscopes']
        rfl
      · exact h.extend ['\x7b', '\x7d'] (.inl rfl) ⟨rfl, rfl⟩ ⟨rfl, rfl, rfl⟩
    | succ depth =>
      refine ⟨_, _, Scanner.closeBrace_block hscopes (hin _ depth rfl),
        Scanner.closeBrace_block hscopes' (hin _ depth rfl), ?_⟩
      exact h.extend [] (.inr ⟨depth, rfl⟩) ⟨rfl, rfl⟩ ⟨rfl, rfl, rfl⟩
  · refine ⟨_, _, Scanner.step_block hout ⟨hopen, hclose⟩, Scanner.step_block hout' ⟨hopen, hclose⟩,
      ?_⟩
    split
    · exact h.extend [' '] h.place ⟨rfl, rfl⟩ ⟨h.scopes, rfl, rfl⟩
    · exact h

/-- A character that does not end the statement goes on with it in both, drops it in both, or is one
closing brace too many for both. -/
theorem step (h : SameStatement outer u v s t) (hread : ReadAlike u v) {c : Char}
    (hc : ¬(c = ';' ∧ s.inStatement = true)) :
    (∃ s' t', s.step c = .ok s' ∧ t.step c = .ok t' ∧
      (SameStatement outer u v s' t' ∨ Lockstep s' t')) ∨
      ∃ m n, s.step c = .error (.unbalancedBraces m) ∧
        t.step c = .error (.unbalancedBraces n) := by
  rcases h.place with hscopes | ⟨depth, hscopes⟩
  · have htypes : AllTypes s.scopes := hscopes ▸ h.types
    rcases (h.braceAlike hread).step htypes fun hsemi => hc ⟨hsemi, htypes.inStatement⟩ with
      ⟨m, n, hs, ht⟩ | ⟨-, -, hs, ht⟩ | ⟨s', t', hs, ht, hlock⟩ | herror
    · exact .inl ⟨_, _, hs, ht, .inl (h.extend [_] h.place ⟨rfl, rfl⟩ ⟨h.scopes, rfl, rfl⟩)⟩
    · have hplace : Within outer (.initializer :: s.scopes) :=
        .inr ⟨0, congrArg (List.cons _) hscopes⟩
      exact .inl ⟨_, _, hs, ht,
        .inl (h.extend [] hplace ⟨rfl, rfl⟩ ⟨congrArg (List.cons _) h.scopes, rfl, rfl⟩)⟩
    · exact .inl ⟨s', t', hs, ht, .inr hlock⟩
    · exact .inr herror
  · obtain ⟨s', t', hs, ht, h'⟩ := h.step_value hscopes c
    exact .inl ⟨s', t', hs, ht, .inl h'⟩

/-- Both scanners give the same fields, or the same kind of error, if the statement declares the
same fields in both. -/
theorem fields_eq (h : SameStatement outer u v s t) (hread : ReadAlike u v) (hne : u ≠ [])
    (cs : List Char) (hfields : outer.head? = some (.type false) →
      ∀ z, s.statementNext? cs = some (u ++ z) →
        fieldsOfStatement (u ++ z) = fieldsOfStatement (v ++ z)) :
    (cs.foldlM Scanner.step s >>= Scanner.finish).mapError SourceError.withoutLine =
      (cs.foldlM Scanner.step t >>= Scanner.finish).mapError SourceError.withoutLine := by
  induction cs generalizing s t with
  | nil =>
    change s.finish.mapError _ = t.finish.mapError _
    rw [Scanner.finish, Scanner.finish, h.scopes, h.fields]
    split <;> rfl
  | cons c cs ih =>
    rw [List.foldlM_cons, List.foldlM_cons]
    by_cases hend : c = ';' ∧ s.inStatement = true
    · obtain ⟨rfl, hin⟩ := hend
      rcases h.place with rfl | ⟨depth, hscopes⟩
      · obtain ⟨z, hz, hz'⟩ := h.statement
        rw [Scanner.step_semicolon, Scanner.step_semicolon]
        refine ((h.braceAlike hread).endStatement h.types fun hmember => ?_).fields_eq cs
        rw [hz, hz']
        exact hfields hmember z (by rw [Scanner.statementNext?, if_pos ⟨rfl, hin⟩, hz])
      · rw [Scanner.inStatement, hscopes] at hin
        cases depth <;> cases hin
    · rcases h.step hread hend with ⟨s', t', hs, ht, h' | h'⟩ | ⟨m, n, hs, ht⟩
      · rw [hs, ht]
        refine ih h' fun hmember z hz => hfields hmember z ?_
        have hsome : s'.statement ≠ [] := by
          obtain ⟨z, hz, -⟩ := h'.statement
          intro hnil
          rw [hnil] at hz
          exact hne (List.append_eq_nil_iff.1 hz.symm).1
        rw [Scanner.statementNext?, if_neg hend, hs]
        simpa [hsome] using hz
      · rw [hs, ht]
        exact h'.fields_eq cs
      · rw [hs, ht]
        rfl

end SameStatement

end EntityForge.Java
