import EntityForge.Dbml.Parser.Table

/-!
# Documents

A document is a sequence of declarations, each of which starts with a keyword. `parse` reads a
document into a database; a declaration is added as soon as it is read.
-/

namespace EntityForge.Dbml

/-- Reads an enumeration after the word `Enum`. Its name holds the schema unless that is the default
one; its values are skipped. -/
def parseEnum (ts : List Token) : Except ParseError (Parsed Declaration) := do
  let ((schema, name), rest) ← parseQualifiedName ts
  let rest ← skipBlock rest
  .ok (.enum (if schema == defaultSchema then name else schema ++ "." ++ name), rest)

/-- Reads a project after the word `Project`. -/
def parseProject (ts : List Token) : Except ParseError (Parsed Declaration) := do
  let (name, rest) ← parseName ts
  let rest ← skipBlock rest
  .ok (.project name, rest)

/-- Skips a group or a list of records. -/
def skipGroup (ts : List Token) : Except ParseError (Parsed Declaration) := do
  let rest ← skipToBlock ts
  let rest ← skipBlock rest
  .ok (.remark, rest)

/-- Reads the declaration that starts with a keyword; `whole` are the tokens with the keyword. -/
def parseDeclarationOf (keyword : String) (whole ts : List Token) :
    Except ParseError (Parsed Declaration) :=
  match keyword with
  | "table" => (parseTable ts).map fun (d, rest) => (.table d.table d.refs, rest)
  | "ref" => (parseRefs ts).map fun (rs, rest) => (.refs rs, rest)
  | "enum" => parseEnum ts
  | "project" => parseProject ts
  | "note" => (parseNote ts).map fun (_, rest) => (.remark, rest)
  | "tablegroup" => skipGroup ts
  | "records" => skipGroup ts
  | _ => .error (.unexpected whole.head? .declaration)

/-- Reads a declaration. -/
def parseDeclaration : List Token → Except ParseError (Parsed Declaration)
  | .ident s :: rest => parseDeclarationOf (Text.lowerAscii s) (.ident s :: rest) rest
  | ts => .error (.unexpected ts.head? .declaration)

theorem parseEnum_length_lt {ts rest : List Token} {d : Declaration}
    (h : parseEnum ts = .ok (d, rest)) : rest.length < ts.length := by
  simp only [parseEnum, bind_eq_ok] at h
  obtain ⟨⟨⟨s, n⟩, r1⟩, h1, r2, h2, h3⟩ := h
  have := parseQualifiedName_length_lt h1
  have := skipBlock_length_lt h2
  grind

theorem parseProject_length_lt {ts rest : List Token} {d : Declaration}
    (h : parseProject ts = .ok (d, rest)) : rest.length < ts.length := by
  simp only [parseProject, bind_eq_ok] at h
  obtain ⟨⟨n, r1⟩, h1, r2, h2, h3⟩ := h
  have := parseName_length_lt h1
  have := skipBlock_length_lt h2
  grind

theorem skipGroup_length_lt {ts rest : List Token} {d : Declaration}
    (h : skipGroup ts = .ok (d, rest)) : rest.length < ts.length := by
  simp only [skipGroup, bind_eq_ok] at h
  obtain ⟨r1, h1, r2, h2, h3⟩ := h
  have := skipToBlock_length_le h1
  have := skipBlock_length_lt h2
  grind

theorem parseDeclaration_length_lt {ts rest : List Token} {d : Declaration}
    (h : parseDeclaration ts = .ok (d, rest)) : rest.length < ts.length := by
  unfold parseDeclaration at h
  split at h
  · rename_i s r
    unfold parseDeclarationOf at h
    split at h
    · cases hr : parseTable r with
      | error e => simp [hr, Except.map] at h
      | ok p =>
        obtain ⟨_, _⟩ := p; have := parseTable_length_lt hr
        simp only [hr, Except.map] at h
        grind
    · cases hr : parseRefs r with
      | error e => simp [hr, Except.map] at h
      | ok p =>
        obtain ⟨_, _⟩ := p; have := parseRefs_length_lt hr
        simp only [hr, Except.map] at h
        grind
    · have := parseEnum_length_lt h
      grind
    · have := parseProject_length_lt h
      grind
    · cases hr : parseNote r with
      | error e => simp [hr, Except.map] at h
      | ok p =>
        obtain ⟨_, _⟩ := p; have := parseNote_length_lt hr
        simp only [hr, Except.map] at h
        grind
    · have := skipGroup_length_lt h
      grind
    · have := skipGroup_length_lt h
      grind
    · simp at h
  · simp at h

/-- Reads the declarations to the end of the document into the database. -/
def parseDeclarations (db : Database) (ts : List Token) : Except ParseError Database :=
  match ts with
  | [] => .ok db
  | ts =>
    match _h : parseDeclaration ts with
    | .error e => .error e
    | .ok (d, rest) =>
      match db.declare d with
      | .error e => .error e
      | .ok db => parseDeclarations db rest
termination_by ts.length
decreasing_by exact parseDeclaration_length_lt _h

/-- The database that a document declares. -/
def parse (input : String) : Except ParseError Database :=
  match tokenize input with
  | .error e => .error (.lex e)
  | .ok ts => parseDeclarations {} ts

end EntityForge.Dbml
