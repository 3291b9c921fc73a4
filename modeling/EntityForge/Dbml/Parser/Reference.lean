import EntityForge.Dbml.Declaration
import EntityForge.Dbml.Parser.Basic

/-!
# Relationships

A relationship is two endpoints with a sign between them. `parseRefs` reads a `Ref` declaration in
its two forms, after the word `Ref`: one relationship after a colon, or any number in braces.
-/

namespace EntityForge.Dbml

/-- Reads the sign of a relationship. -/
def parseSign : List Token → Except ParseError (Parsed RelationSign)
  | .gt :: rest => .ok (.manyToOne, rest)
  | .lt :: rest => .ok (.oneToMany, rest)
  | .dash :: rest => .ok (.oneToOne, rest)
  | .ltGt :: rest => .ok (.manyToMany, rest)
  | ts => .error (failure ts .relation)

/-- Reads further names, each after a dot. A list of columns in parentheses is refused. -/
def parseDottedNames : List Token → Except ParseError (Parsed (List String))
  | .dot :: .lparen :: _ => .error .compositeRef
  | .dot :: t :: rest =>
    match t.name? with
    | some s => (parseDottedNames rest).map fun (names, rest) => (s :: names, rest)
    | none => .error (.unexpected (some t) .name)
  | [.dot] => .error .unexpectedEnd
  | ts => .ok ([], ts)

/-- Reads `table.column` or `schema.table.column`. -/
def parseEndpoint (ts : List Token) : Except ParseError (Parsed Endpoint) := do
  let (first, rest) ← parseName ts
  let (more, rest) ← parseDottedNames rest
  match more with
  | [column] => .ok (⟨defaultSchema, first, column⟩, rest)
  | [table, column] => .ok (⟨first, table, column⟩, rest)
  | _ => .error (.unexpected rest.head? .endpoint)

/-- Reads a relationship and skips its own settings. -/
def parseRelationship (name : Option String) (ts : List Token) : Except ParseError (Parsed Relationship) := do
  let (left, rest) ← parseEndpoint ts
  let (sign, rest) ← parseSign rest
  let (right, rest) ← parseEndpoint rest
  let rest ← skipBrackets rest
  .ok (sign.relate name left right, rest)

theorem parseSign_length_lt {ts rest : List Token} {s : RelationSign}
    (h : parseSign ts = .ok (s, rest)) : rest.length < ts.length := by
  unfold parseSign at h
  grind

theorem parseDottedNames_length_le {ts rest : List Token} {names : List String}
    (h : parseDottedNames ts = .ok (names, rest)) : rest.length ≤ ts.length := by
  fun_induction parseDottedNames ts generalizing names with
  | case2 t r _ s hs ih =>
    cases hr : parseDottedNames r with
    | error e => simp [hr, Except.map] at h
    | ok p =>
      have := @ih p.1 (by rw [hr]; simp only [hr, Except.map] at h; grind)
      grind
  | _ => grind

theorem parseEndpoint_length_lt {ts rest : List Token} {e : Endpoint}
    (h : parseEndpoint ts = .ok (e, rest)) : rest.length < ts.length := by
  simp only [parseEndpoint, bind_eq_ok] at h
  obtain ⟨⟨first, r⟩, h1, ⟨⟨more, r'⟩, h2, h3⟩⟩ := h
  have := parseName_length_lt h1
  have := parseDottedNames_length_le h2
  split at h3 <;> grind

theorem parseRelationship_length_lt {name : Option String} {ts rest : List Token}
    {r : Relationship} (h : parseRelationship name ts = .ok (r, rest)) :
    rest.length < ts.length := by
  simp only [parseRelationship, bind_eq_ok] at h
  obtain ⟨⟨left, r1⟩, h1, ⟨sign, r2⟩, h2, ⟨right, r3⟩, h3, r4, h4, h5⟩ := h
  have := parseEndpoint_length_lt h1
  have := parseSign_length_lt h2
  have := parseEndpoint_length_lt h3
  have := skipBrackets_length_le h4
  grind

/-- Reads relationships up to a closing brace, after those in `read`, which holds the last first. -/
def parseRelationships (name : Option String) (read : List Relationship) (ts : List Token) :
    Except ParseError (Parsed (List Relationship)) :=
  match ts with
  | [] => .error .unexpectedEnd
  | .rbrace :: rest => .ok (read.reverse, rest)
  | ts =>
    match _h : parseRelationship name ts with
    | .error e => .error e
    | .ok (r, rest) => parseRelationships name (r :: read) rest
termination_by ts.length
decreasing_by exact parseRelationship_length_lt _h

theorem parseRelationships_length_lt {name : Option String} {read rs : List Relationship}
    {ts rest : List Token} (h : parseRelationships name read ts = .ok (rs, rest)) :
    rest.length < ts.length := by
  fun_induction parseRelationships name read ts with
  | case1 => simp at h
  | case2 => grind
  | case3 => simp at h
  | case4 read ts _ _ r rest' hr ih =>
    have := parseRelationship_length_lt hr
    have := ih h
    omega

/-- Reads the relationships of a declaration after its name. -/
def parseRefBody (name : Option String) : List Token → Except ParseError (Parsed (List Relationship))
  | .colon :: rest => (parseRelationship name rest).map fun (r, rest) => ([r], rest)
  | .lbrace :: rest => parseRelationships name [] rest
  | ts => .error (failure ts .colonOrBrace)

/-- Reads a declaration of relationships after the word `Ref`: a name, if there is one, and one
relationship or a block of them. -/
def parseRefs : List Token → Except ParseError (Parsed (List Relationship))
  | [] => .error .unexpectedEnd
  | t :: rest =>
    match t.name? with
    | some name => parseRefBody (some name) rest
    | none => parseRefBody none (t :: rest)

theorem parseRefBody_length_lt {name : Option String} {ts rest : List Token}
    {rs : List Relationship} (h : parseRefBody name ts = .ok (rs, rest)) :
    rest.length < ts.length := by
  unfold parseRefBody at h
  split at h
  · rename_i r
    cases hr : parseRelationship name r with
    | error e => simp [hr, Except.map] at h
    | ok p =>
      obtain ⟨_, _⟩ := p; have := parseRelationship_length_lt hr
      simp only [hr, Except.map] at h
      grind
  · have := parseRelationships_length_lt h
    grind
  · simp at h

theorem parseRefs_length_lt {ts rest : List Token} {rs : List Relationship}
    (h : parseRefs ts = .ok (rs, rest)) : rest.length < ts.length := by
  unfold parseRefs at h
  split at h
  · simp at h
  · split at h <;> have := parseRefBody_length_lt h <;> grind

end EntityForge.Dbml
