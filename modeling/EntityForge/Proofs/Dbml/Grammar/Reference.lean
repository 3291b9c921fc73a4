import EntityForge.Proofs.Dbml.Grammar.Basic
import EntityForge.Proofs.Dbml.Locality.Reference
import Mathlib.Data.List.Forall2

/-!
# The grammar: relationships

An endpoint is two or three names with dots between them, a relationship is two endpoints with a
sign between them, and a declaration of relationships is one of them after a colon or any number in
braces (`RefsPhrase`). `parseRefs_eq_ok` says that the reader of such declarations reads this grammar.
-/

namespace EntityForge.Dbml

/-! ## Signs and endpoints -/

/-- How the sign is written. -/
def RelationSign.token : RelationSign → Token
  | manyToOne => .gt
  | oneToMany => .lt
  | oneToOne => .dash
  | manyToMany => .ltGt

theorem parseSign_eq_ok {ts rest : List Token} {sign : RelationSign} :
    parseSign ts = .ok (sign, rest) ↔ ts = sign.token :: rest := by
  constructor
  · intro h
    unfold parseSign at h
    split at h <;> cases h <;> rfl
  · rintro rfl
    cases sign <;> rfl

/-- A table and its column, perhaps after a schema. -/
inductive IsEndpoint : List Token → Endpoint → Prop where
  | short {t c : Token} {table column : String} (ht : t.name? = some table)
      (hc : c.name? = some column) : IsEndpoint [t, .dot, c] ⟨defaultSchema, table, column⟩
  | full {s t c : Token} {schema table column : String} (hs : s.name? = some schema)
      (ht : t.name? = some table) (hc : c.name? = some column) :
      IsEndpoint [s, .dot, t, .dot, c] ⟨schema, table, column⟩

/-- An endpoint starts with a name. -/
theorem IsEndpoint.eq_cons {taken : List Token} {e : Endpoint} (h : IsEndpoint taken e) :
    ∃ t r s, taken = t :: r ∧ t.name? = some s := by
  cases h with
  | short ht => exact ⟨_, _, _, rfl, ht⟩
  | full hs => exact ⟨_, _, _, rfl, hs⟩

theorem parseDottedNames_sound {ts rest : List Token} {names : List String}
    (h : parseDottedNames ts = .ok (names, rest)) :
    ∃ tokens, List.Forall₂ (fun (t : Token) s => t.name? = some s) tokens names ∧
      ts = tokens.flatMap (fun t => [.dot, t]) ++ rest := by
  fun_induction parseDottedNames ts generalizing names with
  | case1 => cases h
  | case2 t ts _ s hs ih =>
    obtain ⟨⟨more, r⟩, h1, h2⟩ := map_eq_ok.1 h
    cases h2
    obtain ⟨tokens, hnames, rfl⟩ := ih h1
    exact ⟨t :: tokens, .cons hs hnames, by simp⟩
  | case3 => cases h
  | case4 => cases h
  | case5 =>
    cases h
    exact ⟨[], .nil, rfl⟩

theorem parseDottedNames_end {rest : List Token} (h : rest.head? ≠ some .dot) :
    parseDottedNames rest = .ok ([], rest) := by
  unfold parseDottedNames
  split <;> first | exact absurd rfl h | rfl

theorem parseDottedNames_cons {t : Token} {s : String} (h : t.name? = some s)
    (rest : List Token) : parseDottedNames (.dot :: t :: rest) =
      (parseDottedNames rest).map fun (names, rest) => (s :: names, rest) := by
  rw [parseDottedNames]
  · rw [h]
  · rintro rfl
    cases h

theorem parseEndpoint_sound {ts rest : List Token} {e : Endpoint}
    (h : parseEndpoint ts = .ok (e, rest)) : ∃ taken, ts = taken ++ rest ∧ IsEndpoint taken e := by
  simp only [parseEndpoint, bind_eq_ok] at h
  obtain ⟨⟨first, r1⟩, h1, ⟨more, r2⟩, h2, h3⟩ := h
  obtain ⟨t, rfl, ht⟩ := parseName_eq_ok.1 h1
  obtain ⟨tokens, hnames, rfl⟩ := parseDottedNames_sound h2
  -- one further name or two
  cases hnames with
  | nil => cases h3
  | cons hu hnames =>
    cases hnames with
    | nil =>
      cases h3
      exact ⟨_, rfl, .short ht hu⟩
    | cons hc hnames =>
      cases hnames with
      | nil =>
        cases h3
        exact ⟨_, rfl, .full ht hu hc⟩
      | cons => cases h3

theorem parseEndpoint_complete {taken rest : List Token} {e : Endpoint} (h : IsEndpoint taken e)
    (hrest : rest.head? ≠ some .dot) : parseEndpoint (taken ++ rest) = .ok (e, rest) := by
  have hend := parseDottedNames_end hrest
  simp only [parseEndpoint, bind_eq_ok]
  cases h with
  | short ht hc =>
    have hmore := (parseDottedNames_cons hc rest).trans (congrArg _ hend)
    exact ⟨_, parseName_cons ht _, _, hmore, rfl⟩
  | full hs ht hc =>
    have hmore := (parseDottedNames_cons hc rest).trans (congrArg _ hend)
    have hmore' := (parseDottedNames_cons ht _).trans (congrArg _ hmore)
    exact ⟨_, parseName_cons hs _, _, hmore', rfl⟩

/-! ## Relationships -/

/-- Two endpoints with a sign between them, and settings that are skipped. -/
structure RelationshipPhrase where
  left : Phrase IsEndpoint
  sign : RelationSign
  right : Phrase IsEndpoint
  settings : List Token
  settings_valid : IsBrackets settings

/-- What goes on after a relationship is not a part of it. -/
def EndsRelationship (ts : List Token) : Prop :=
  ts.head? ≠ some .dot ∧ ts.head? ≠ some .lbracket

namespace RelationshipPhrase

def tokens (p : RelationshipPhrase) : List Token :=
  p.left.tokens ++ p.sign.token :: (p.right.tokens ++ p.settings)

def value (p : RelationshipPhrase) (name : Option String) : Relationship :=
  p.sign.relate name p.left.value p.right.value

/-- A relationship starts with a name. -/
theorem tokens_eq_cons (p : RelationshipPhrase) :
    ∃ t r s, p.tokens = t :: r ∧ t.name? = some s := by
  obtain ⟨t, r, s, hr, ht⟩ := p.left.valid.eq_cons
  exact ⟨t, _, s, by rw [tokens, hr]; rfl, ht⟩

end RelationshipPhrase

theorem RelationSign.token_ne_dot (sign : RelationSign) : sign.token ≠ .dot := by
  cases sign <;> decide

/-- After an endpoint there may be settings in brackets, but no dot. -/
theorem IsBrackets.head?_ne_dot {taken rest : List Token} (h : IsBrackets taken)
    (hrest : rest.head? ≠ some .dot) : (taken ++ rest).head? ≠ some .dot := by
  cases h with
  | absent => exact hrest
  | present => simp

theorem parseRelationship_sound {name : Option String} {ts rest : List Token} {r : Relationship}
    (h : parseRelationship name ts = .ok (r, rest)) :
    ∃ p : RelationshipPhrase, ts = p.tokens ++ rest ∧ r = p.value name := by
  simp only [parseRelationship, bind_eq_ok] at h
  obtain ⟨⟨left, r1⟩, h1, ⟨sign, r2⟩, h2, ⟨right, r3⟩, h3, r4, h4, h5⟩ := h
  obtain ⟨lefts, rfl, hleft⟩ := parseEndpoint_sound h1
  obtain rfl := parseSign_eq_ok.1 h2
  obtain ⟨rights, rfl, hright⟩ := parseEndpoint_sound h3
  obtain ⟨settings, rfl, hsettings⟩ := skipBrackets_sound h4
  cases h5
  exact ⟨⟨⟨lefts, left, hleft⟩, sign, ⟨rights, right, hright⟩, settings, hsettings⟩,
    by simp [RelationshipPhrase.tokens], rfl⟩

theorem parseRelationship_complete (name : Option String) (p : RelationshipPhrase)
    {rest : List Token} (hrest : EndsRelationship rest) :
    parseRelationship name (p.tokens ++ rest) = .ok (p.value name, rest) := by
  have hsign : (p.sign.token :: (p.right.tokens ++ (p.settings ++ rest))).head? ≠ some .dot := by
    simpa using p.sign.token_ne_dot
  simp only [parseRelationship, bind_eq_ok, RelationshipPhrase.tokens, List.append_assoc,
    List.cons_append]
  exact ⟨_, parseEndpoint_complete p.left.valid hsign, _, parseSign_eq_ok.2 rfl,
    _, parseEndpoint_complete p.right.valid (p.settings_valid.head?_ne_dot hrest.1),
    _, skipBrackets_complete p.settings_valid hrest.2, rfl⟩

/-! ## Declarations of relationships -/

/-- A word `Ref`, perhaps with a name after it. -/
inductive IsRefHead : List Token → Option String → Prop where
  | unnamed {w : String} (hw : Text.lowerAscii w = "ref") : IsRefHead [.ident w] none
  | named {w name : String} {t : Token} (hw : Text.lowerAscii w = "ref")
      (ht : t.name? = some name) : IsRefHead [.ident w, t] (some name)

/-- The tokens of relationships, one after the other. -/
def relationshipTokens (ps : List RelationshipPhrase) : List Token :=
  ps.flatMap (·.tokens)

/-- What a declaration of relationships has after its head: one of them after a colon, or any number
in braces. -/
inductive RefsBody where
  | one (relationship : RelationshipPhrase)
  | block (relationships : List RelationshipPhrase)

namespace RefsBody

def tokens : RefsBody → List Token
  | one p => .colon :: p.tokens
  | block ps => .lbrace :: (relationshipTokens ps ++ [.rbrace])

def relationships : RefsBody → List RelationshipPhrase
  | one p => [p]
  | block ps => ps

/-- What goes on after the declaration is not a part of it. -/
def Ends : RefsBody → List Token → Prop
  | one _, ts => EndsRelationship ts
  | block _, _ => True

end RefsBody

/-- A declaration of relationships. -/
structure RefsPhrase where
  head : Phrase IsRefHead
  body : RefsBody

namespace RefsPhrase

def tokens (p : RefsPhrase) : List Token :=
  p.head.tokens ++ p.body.tokens

def values (p : RefsPhrase) : List Relationship :=
  p.body.relationships.map (·.value p.head.value)

end RefsPhrase

/-- What follows relationships in a block starts with a name or a closing brace, so it ends each of
them. -/
theorem endsRelationship_block (ps : List RelationshipPhrase) (rest : List Token) :
    EndsRelationship (relationshipTokens ps ++ .rbrace :: rest) := by
  cases ps with
  | nil => simp [EndsRelationship, relationshipTokens]
  | cons p ps =>
    obtain ⟨t, r, s, hr, ht⟩ := p.tokens_eq_cons
    simp only [EndsRelationship, relationshipTokens, List.flatMap_cons, hr, List.cons_append,
      List.head?_cons, ne_eq, Option.some.injEq]
    constructor
    all_goals rintro rfl; cases ht

theorem parseRelationships_sound {name : Option String} {read rs : List Relationship}
    {ts rest : List Token} (h : parseRelationships name read ts = .ok (rs, rest)) :
    ∃ ps, ts = relationshipTokens ps ++ .rbrace :: rest ∧
      rs = read.reverse ++ ps.map (·.value name) := by
  fun_induction parseRelationships name read ts with
  | case1 => cases h
  | case2 =>
    cases h
    exact ⟨[], rfl, (List.append_nil _).symm⟩
  | case3 => cases h
  | case4 read ts _ _ r rest' hr ih =>
    obtain ⟨p, rfl, rfl⟩ := parseRelationship_sound hr
    obtain ⟨ps, rfl, rfl⟩ := ih h
    exact ⟨p :: ps, by simp [relationshipTokens], by simp⟩

theorem parseRelationships_complete (name : Option String) (read : List Relationship)
    (ps : List RelationshipPhrase) (rest : List Token) :
    parseRelationships name read (relationshipTokens ps ++ .rbrace :: rest) =
      .ok (read.reverse ++ ps.map (·.value name), rest) := by
  induction ps generalizing read with
  | nil =>
    rw [relationshipTokens, List.flatMap_nil, List.nil_append, parseRelationships, List.map_nil,
      List.append_nil]
  | cons p ps ih =>
    have hread := parseRelationship_complete name p (endsRelationship_block ps rest)
    rw [relationshipTokens, List.flatMap_cons, List.append_assoc]
    refine (parseRelationships_step hread).trans ((ih _).trans ?_)
    simp

theorem parseRefBody_sound {name : Option String} {ts rest : List Token}
    {rs : List Relationship} (h : parseRefBody name ts = .ok (rs, rest)) :
    ∃ b : RefsBody, ts = b.tokens ++ rest ∧ rs = b.relationships.map (·.value name) := by
  unfold parseRefBody at h
  split at h
  · obtain ⟨⟨r, rest'⟩, h1, h2⟩ := map_eq_ok.1 h
    cases h2
    obtain ⟨p, rfl, rfl⟩ := parseRelationship_sound h1
    exact ⟨.one p, rfl, rfl⟩
  · obtain ⟨ps, rfl, rfl⟩ := parseRelationships_sound h
    exact ⟨.block ps, by simp [RefsBody.tokens], rfl⟩
  · cases h

theorem parseRefBody_complete (name : Option String) (b : RefsBody) {rest : List Token}
    (hrest : b.Ends rest) :
    parseRefBody name (b.tokens ++ rest) = .ok (b.relationships.map (·.value name), rest) := by
  cases b with
  | one p => exact map_eq_ok.2 ⟨_, parseRelationship_complete name p hrest, rfl⟩
  | block ps =>
    refine Eq.trans ?_ (parseRelationships_complete name [] ps rest)
    simp [RefsBody.tokens, parseRefBody]

theorem parseRefs_sound {w : String} (hw : Text.lowerAscii w = "ref") {ts rest : List Token}
    {rs : List Relationship} (h : parseRefs ts = .ok (rs, rest)) :
    ∃ p : RefsPhrase, .ident w :: ts = p.tokens ++ rest ∧ rs = p.values := by
  cases ts with
  | nil => cases h
  | cons t ts =>
    simp only [parseRefs] at h
    split at h
    · rename_i name ht
      obtain ⟨b, rfl, rfl⟩ := parseRefBody_sound h
      exact ⟨⟨⟨_, _, .named hw ht⟩, b⟩, rfl, rfl⟩
    · obtain ⟨b, hb, rfl⟩ := parseRefBody_sound h
      exact ⟨⟨⟨_, _, .unnamed hw⟩, b⟩, congrArg _ hb, rfl⟩

theorem parseRefs_named {t : Token} {name : String} (ht : t.name? = some name)
    (ts : List Token) : parseRefs (t :: ts) = parseRefBody (some name) ts := by
  rw [parseRefs, ht]

/-- The body of a declaration starts with a mark, so it is not taken for a name. -/
theorem parseRefs_unnamed (b : RefsBody) (rest : List Token) :
    parseRefs (b.tokens ++ rest) = parseRefBody none (b.tokens ++ rest) := by
  cases b <;> rfl

theorem parseRefs_complete (p : RefsPhrase) {rest : List Token} (hrest : p.body.Ends rest) :
    ∃ w ts, p.tokens = .ident w :: ts ∧ Text.lowerAscii w = "ref" ∧
      parseRefs (ts ++ rest) = .ok (p.values, rest) := by
  obtain ⟨⟨head, name, hhead⟩, body⟩ := p
  have hbody := parseRefBody_complete name body hrest
  cases hhead with
  | unnamed hw => exact ⟨_, _, rfl, hw, (parseRefs_unnamed body rest).trans hbody⟩
  | named hw ht => exact ⟨_, _, rfl, hw, (parseRefs_named ht _).trans hbody⟩

end EntityForge.Dbml
