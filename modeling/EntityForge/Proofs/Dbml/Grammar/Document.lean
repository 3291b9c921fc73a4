import EntityForge.Proofs.Dbml.Grammar.Table
import EntityForge.Proofs.Dbml.Locality.Document

/-!
# The grammar: declarations

Tables are declared by phrases of the grammar and nothing else, whatever follows them
(`parseDeclaration_tablePhrase`, `parseDeclaration_table_sound`), and so are relationships if what
follows does not prolong them.
-/

namespace EntityForge.Dbml

/-- A table is read from its phrase, whatever follows. -/
theorem parseDeclaration_tablePhrase (p : TablePhrase) (rest : List Token) :
    parseDeclaration (p.tokens ++ rest) = p.draft.map fun d => (.table d.table d.refs, rest) := by
  rw [TablePhrase.tokens, List.cons_append, parseDeclaration, p.word_valid, parseDeclarationOf,
    parseTable_complete]
  cases p.draft <;> rfl

theorem parseDeclarations_tablePhrase (p : TablePhrase) (rest : List Token) (db : Database) :
    parseDeclarations db (p.tokens ++ rest) = p.draft >>= fun d =>
      db.declare (.table d.table d.refs) >>= fun db => parseDeclarations db rest := by
  have hread := parseDeclaration_tablePhrase p rest
  rw [TablePhrase.tokens, List.cons_append] at hread ⊢
  rw [parseDeclarations_cons, hread]
  cases p.draft <;> rfl

/-- A table is read from nothing but a phrase. -/
theorem parseDeclaration_table_sound {ts rest : List Token} {t : Table}
    {refs : List Relationship} (h : parseDeclaration ts = .ok (.table t refs, rest)) :
    ∃ p : TablePhrase, ts = p.tokens ++ rest := by
  obtain ⟨w, r, rfl, hw, h⟩ := parseDeclaration_eq_table.1 h
  obtain ⟨p, rfl, rfl, -⟩ := parseTable_sound hw h
  exact ⟨p, rfl⟩

theorem TablePhrase.draft_eq_ok {p : TablePhrase} {rest after : List Token} {t : Table}
    {refs : List Relationship}
    (h : parseDeclaration (p.tokens ++ rest) = .ok (.table t refs, after)) :
    p.draft = .ok ⟨t, refs⟩ := by
  rw [parseDeclaration_tablePhrase] at h
  obtain ⟨d, hd, heq⟩ := map_eq_ok.1 h
  cases heq
  exact hd

theorem parseDeclaration_refs_sound {ts rest : List Token} {rs : List Relationship}
    (h : parseDeclaration ts = .ok (.refs rs, rest)) :
    ∃ p : RefsPhrase, ts = p.tokens ++ rest ∧ rs = p.values := by
  obtain ⟨w, r, rfl, hw, h⟩ := parseDeclaration_eq_refs.1 h
  exact parseRefs_sound hw h

theorem parseDeclaration_refs_complete (p : RefsPhrase) {rest : List Token}
    (hrest : p.body.Ends rest) :
    parseDeclaration (p.tokens ++ rest) = .ok (.refs p.values, rest) := by
  obtain ⟨w, ts, heq, hw, h⟩ := parseRefs_complete p hrest
  rw [heq]
  exact parseDeclaration_eq_refs.2 ⟨w, ts ++ rest, rfl, hw, h⟩

/-- The keyword of a declaration ends relationships. -/
theorem Opening.ends {ts : List Token} (h : Opening ts) (b : RefsBody) : b.Ends ts := by
  cases b with
  | block => trivial
  | one p =>
    obtain rfl | ⟨s, r, rfl, -⟩ := h
    · exact ⟨by simp, by simp⟩
    · exact ⟨by simp, by simp⟩

theorem RefsPhrase.opening (p : RefsPhrase) (rest : List Token) : Opening (p.tokens ++ rest) := by
  obtain ⟨⟨head, name, hhead⟩, body⟩ := p
  cases hhead with
  | unnamed hw => exact .inr ⟨_, _, rfl, by simp [hw, declarationWords]⟩
  | named hw => exact .inr ⟨_, _, rfl, by simp [hw, declarationWords]⟩

theorem TablePhrase.opening (p : TablePhrase) (rest : List Token) : Opening (p.tokens ++ rest) :=
  .inr ⟨_, _, rfl, by simp [p.word_valid, declarationWords]⟩

end EntityForge.Dbml
