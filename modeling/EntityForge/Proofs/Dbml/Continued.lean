import EntityForge.Proofs.Dbml.Composition
import EntityForge.Proofs.Dbml.Truncation.Document

/-!
# Documents that go on

What follows an accepted document need not be a document by itself. Declarations end with their last
token (`SelfClosed`), all but one: a relationship after a colon, whose last endpoint goes on with a
dot and which may have settings in brackets (`parseDeclaration_append`). So if the text after an
accepted document starts with no dot, the declarations of the document are what they are, and others
come after them (`parse_continued`).
-/

namespace EntityForge.Dbml

/-! ## Declarations -/

/-- What a declaration leaves of the tokens after its last: all of them, or what is behind settings
in brackets that they start with. -/
def IsLeft (us rest : List Token) : Prop :=
  rest = us ∨ skipBrackets us = .ok rest

/-- Settings in brackets end with their bracket; where there are none, others may follow. -/
theorem IsBrackets.skipBrackets_append {taken : List Token} (h : IsBrackets taken)
    (us : List Token) :
    skipBrackets (taken ++ us) = .ok us ∨ skipBrackets (taken ++ us) = skipBrackets us := by
  cases h with
  | absent => exact .inr rfl
  | present hmem => exact .inl (skipToBracket_eq_ok.2 ⟨_, by simp, hmem⟩)

/-- Tokens are the declarations of one document only. -/
theorem Reads.eq {ts : List Token} {ds es : List Declaration} (h : Reads ts ds)
    (h' : Reads ts es) : es = ds := by
  induction h generalizing es with
  | nil =>
    cases h' with
    | nil => rfl
    | cons hd => cases hd
  | cons hd _ ih =>
    cases h' with
    | nil => cases hd
    | cons hd' hds' =>
      cases hd.symm.trans hd'
      rw [ih hds']

section
variable {us : List Token} (hus : us.head? ≠ some .dot)
include hus

/-- A relationship that no dot prolongs has the settings that follow it, unless it has some. -/
theorem parseRelationship_append {name : Option String} {p : RelationshipPhrase}
    {r : Relationship} {rest : List Token}
    (h : parseRelationship name (p.tokens ++ us) = .ok (r, rest)) :
    r = p.value name ∧ IsLeft us rest := by
  have hsign : (p.sign.token :: (p.right.tokens ++ (p.settings ++ us))).head? ≠ some .dot := by
    simpa using p.sign.token_ne_dot
  have hleft := parseEndpoint_complete p.left.valid hsign
  have hright := parseEndpoint_complete p.right.valid (p.settings_valid.head?_ne_dot hus)
  simp only [parseRelationship, RelationshipPhrase.tokens, List.append_assoc, List.cons_append,
    bind_eq_ok] at h
  obtain ⟨_, h1, ⟨sign, r2⟩, h2, _, h3, r4, h4, h5⟩ := h
  cases hleft.symm.trans h1
  cases (parseSign_eq_ok.2 rfl).symm.trans h2
  cases hright.symm.trans h3
  cases h5
  refine ⟨rfl, ?_⟩
  rcases p.settings_valid.skipBrackets_append us with hclosed | hopen
  · exact .inl (Except.ok.inj (h4.symm.trans hclosed))
  · exact .inr (hopen.symm.trans h4)

theorem parseRefBody_append {name : Option String} {b : RefsBody} {rs : List Relationship}
    {rest : List Token} (h : parseRefBody name (b.tokens ++ us) = .ok (rs, rest)) :
    rs = b.relationships.map (·.value name) ∧ IsLeft us rest := by
  cases b with
  | one p =>
    obtain ⟨⟨r, rest⟩, hr, heq⟩ := map_eq_ok.1 h
    obtain ⟨rfl, hrest⟩ := parseRelationship_append hus hr
    cases heq
    exact ⟨rfl, hrest⟩
  | block ps =>
    cases (parseRefBody_complete name (.block ps) trivial).symm.trans h
    exact ⟨rfl, .inl rfl⟩

theorem parseRefs_append {ts rest : List Token} {rs rs' : List Relationship}
    (h : parseRefs ts = .ok (rs, [])) (h' : parseRefs (ts ++ us) = .ok (rs', rest)) :
    rs' = rs ∧ IsLeft us rest := by
  cases ts with
  | nil => cases h
  | cons t ts =>
    simp only [List.cons_append, parseRefs] at h h'
    cases ht : t.name? with
    | some name =>
      simp only [ht] at h h'
      obtain ⟨b, rfl, rfl⟩ := parseRefBody_sound h
      rw [List.append_nil] at h'
      exact parseRefBody_append hus h'
    | none =>
      simp only [ht] at h h'
      obtain ⟨b, hb, rfl⟩ := parseRefBody_sound h
      rw [← List.cons_append, hb, List.append_nil] at h'
      exact parseRefBody_append hus h'

/-- The last declaration of a document is what it is, whatever follows. -/
theorem parseDeclaration_append {ts rest : List Token} {d d' : Declaration}
    (h : parseDeclaration ts = .ok (d, [])) (h' : parseDeclaration (ts ++ us) = .ok (d', rest)) :
    d' = d ∧ IsLeft us rest := by
  rcases parseDeclaration_closed h us with hclosed | ⟨rs, rfl⟩
  · cases hclosed.symm.trans h'
    exact ⟨rfl, .inl rfl⟩
  · obtain ⟨s, r, rfl, hs, hrs⟩ := parseDeclaration_eq_refs.1 h
    rw [List.cons_append, parseDeclaration, hs] at h'
    obtain ⟨⟨rs', _⟩, hrs', heq⟩ := map_eq_ok.1 h'
    cases heq
    obtain ⟨rfl, hrest⟩ := parseRefs_append hus hrs hrs'
    exact ⟨rfl, hrest⟩

/-! ## Documents -/

/-- A document that goes on is its declarations and others. -/
theorem parseDeclarations_continued {ts : List Token} {ds : List Declaration} (h : Reads ts ds)
    {db d : Database} (hd : parseDeclarations db (ts ++ us) = .ok d) :
    ∃ rest es, IsLeft us rest ∧ Reads rest es ∧ (ds ++ es).foldlM Database.declare db = .ok d := by
  induction h generalizing db with
  | nil =>
    obtain ⟨es, hes⟩ := reads_of_parseDeclarations hd
    exact ⟨us, es, .inl rfl, hes, (parseDeclarations_of_reads hes db).symm.trans hd⟩
  | @cons ts left x ds hx hds ih =>
    obtain ⟨s, r, rfl, -⟩ := parseDeclaration_cases hx
    rw [List.cons_append, parseDeclarations_cons] at hd
    obtain ⟨⟨x', left'⟩, hx', hlater⟩ := bind_eq_ok.1 hd
    obtain ⟨mid, hmid, hall⟩ := bind_eq_ok.1 hlater
    by_cases hleft : left = []
    · subst hleft
      obtain rfl := Reads.nil.eq hds
      obtain ⟨rfl, hrest⟩ := parseDeclaration_append hus hx hx'
      obtain ⟨es, hes⟩ := reads_of_parseDeclarations hall
      refine ⟨left', es, hrest, hes, (List.foldlM_cons ..).trans (bind_eq_ok.2 ⟨mid, hmid, ?_⟩)⟩
      exact (parseDeclarations_of_reads hes mid).symm.trans hall
    · have hlong := parseDeclaration_resumes (.ident s) r us
      rw [hx] at hlong
      cases (hlong.resolve_left hleft).symm.trans hx'
      obtain ⟨rest, es, hrest, hes, hall⟩ := ih hall
      exact ⟨rest, es, hrest, hes, (List.foldlM_cons ..).trans (bind_eq_ok.2 ⟨mid, hmid, hall⟩)⟩

end

/-- The keyword of a declaration is not prolonged. -/
theorem Opening.isLeft {us rest : List Token} (h : Opening us) (hrest : IsLeft us rest) :
    rest = us := by
  rcases hrest with rfl | hrest
  · rfl
  · obtain rfl | ⟨s, r, rfl, -⟩ := h
    · exact (Except.ok.inj hrest).symm
    · exact (Except.ok.inj hrest).symm

/-- A document starts with a keyword. -/
theorem tokenize_ne_dot_of_parse {b : String} {db : Database} (h : parse b = .ok db)
    (us : List Token) : tokenize b ≠ .ok (.dot :: us) := by
  intro hdot
  obtain ⟨ts, ds, hts, hds, -⟩ := parse_eq_ok.1 h
  obtain rfl := Except.ok.inj (hdot.symm.trans hts)
  obtain hnil | ⟨s, r, hcons, -⟩ := hds.opening
  · cases hnil
  · cases hcons

/-- The text after an accepted document adds declarations to it if it starts with no dot: its own
ones, if it is a document. -/
theorem parse_continued {a b : String} {da d : Database} (ha : parse a = .ok da)
    (hd : parse (a ++ "\n" ++ b) = .ok d) (hdot : ∀ us, tokenize b ≠ .ok (.dot :: us)) :
    ∃ es : List Declaration, es.foldlM Database.declare da = .ok d ∧
      ∀ db, parse b = .ok db → es.foldlM Database.declare {} = .ok db := by
  obtain ⟨ts, ds, hts, hds, hda⟩ := parse_eq_ok.1 ha
  rw [parse, tokenize_append hts] at hd
  cases hus : tokenize b with
  | error e =>
    rw [hus] at hd
    cases hd
  | ok us =>
    rw [hus] at hd
    have hhead : us.head? ≠ some .dot := by
      intro hhead
      obtain ⟨r, rfl⟩ := List.head?_eq_some_iff.1 hhead
      exact hdot r hus
    obtain ⟨rest, es, hrest, hes, hall⟩ := parseDeclarations_continued hhead hds hd
    rw [List.foldlM_append, hda] at hall
    refine ⟨es, hall, fun db hb => ?_⟩
    obtain ⟨us', es', hus', hes', hdb⟩ := parse_eq_ok.1 hb
    cases hus.symm.trans hus'
    obtain rfl := hes'.opening.isLeft hrest
    rw [hes'.eq hes, hdb]

end EntityForge.Dbml
