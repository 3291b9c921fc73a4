import EntityForge.Dbml.Parser.Column

/-!
# Tables

A table is a name, perhaps a second name and settings that are skipped, and a body in braces of
columns, notes and index blocks. Each item of the body is added to the draft as soon as it is read,
so a column declared twice is reported before anything that is wrong after it.
-/

namespace EntityForge.Dbml

/-! ## Index blocks -/

/-- Reads the columns of an index entry up to the closing parenthesis; expressions are skipped. -/
def parseIndexColumns : List Token → Except ParseError (Parsed (List String))
  | [] => .error .unexpectedEnd
  | .rparen :: rest => .ok ([], rest)
  | .comma :: rest => parseIndexColumns rest
  | .expr _ :: rest => parseIndexColumns rest
  | t :: rest =>
    match t.name? with
    | some c => (parseIndexColumns rest).map fun (columns, rest) => (c :: columns, rest)
    | none => .error (.unexpected (some t) .indexColumn)

/-- Reads the settings of an index entry up to the closing bracket: is the word `pk` among them? -/
def parseIndexSettings (primary : Bool) : List Token → Except ParseError (Parsed Bool)
  | [] => .error .unexpectedEnd
  | .rbracket :: rest => .ok (primary, rest)
  | .ident s :: rest => parseIndexSettings (primary || Text.lowerAscii s == "pk") rest
  | _ :: rest => parseIndexSettings primary rest

/-- Reads what an index entry is on: columns in parentheses, one column, or an expression. -/
def parseIndexKey : List Token → Except ParseError (Parsed (List String))
  | [] => .error .unexpectedEnd
  | .lparen :: rest => parseIndexColumns rest
  | .expr _ :: rest => .ok ([], rest)
  | t :: rest =>
    match t.name? with
    | some c => .ok ([c], rest)
    | none => .error (.unexpected (some t) .indexEntry)

/-- Reads an index entry. -/
def parseIndexEntry (ts : List Token) : Except ParseError (Parsed IndexEntry) := do
  let (columns, rest) ← parseIndexKey ts
  match rest with
  | .lbracket :: rest =>
    let (primary, rest) ← parseIndexSettings false rest
    .ok (⟨columns, primary⟩, rest)
  | rest => .ok (⟨columns, false⟩, rest)

theorem parseIndexColumns_length_lt {ts rest : List Token} {cs : List String}
    (h : parseIndexColumns ts = .ok (cs, rest)) : rest.length < ts.length := by
  fun_induction parseIndexColumns ts generalizing cs with
  | case5 t r _ _ _ c hc ih =>
    cases hr : parseIndexColumns r with
    | error e => simp [hr, Except.map] at h
    | ok p =>
      have := @ih p.1 (by rw [hr]; simp only [hr, Except.map] at h; grind)
      grind
  | _ => grind

theorem parseIndexSettings_length_lt {primary p : Bool} {ts rest : List Token}
    (h : parseIndexSettings primary ts = .ok (p, rest)) : rest.length < ts.length := by
  fun_induction parseIndexSettings primary ts <;> grind

theorem parseIndexKey_length_lt {ts rest : List Token} {cs : List String}
    (h : parseIndexKey ts = .ok (cs, rest)) : rest.length < ts.length := by
  unfold parseIndexKey at h
  split at h
  · simp at h
  · have := parseIndexColumns_length_lt h
    grind
  · grind
  · split at h <;> grind

theorem parseIndexEntry_length_lt {ts rest : List Token} {e : IndexEntry}
    (h : parseIndexEntry ts = .ok (e, rest)) : rest.length < ts.length := by
  simp only [parseIndexEntry, bind_eq_ok] at h
  obtain ⟨⟨cs, r⟩, h1, h2⟩ := h
  have := parseIndexKey_length_lt h1
  split at h2
  · obtain ⟨⟨p, r'⟩, h3, h4⟩ := bind_eq_ok.1 h2
    have := parseIndexSettings_length_lt h3
    grind
  · grind

/-- Reads index entries up to the closing brace, after those in `read`, which holds the last
first. -/
def parseIndexEntries (read : List IndexEntry) (ts : List Token) :
    Except ParseError (Parsed (List IndexEntry)) :=
  match ts with
  | .rbrace :: rest => .ok (read.reverse, rest)
  | ts =>
    match _h : parseIndexEntry ts with
    | .error e => .error e
    | .ok (e, rest) => parseIndexEntries (e :: read) rest
termination_by ts.length
decreasing_by exact parseIndexEntry_length_lt _h

theorem parseIndexEntries_length_lt {read es : List IndexEntry} {ts rest : List Token}
    (h : parseIndexEntries read ts = .ok (es, rest)) : rest.length < ts.length := by
  fun_induction parseIndexEntries read ts with
  | case1 => grind
  | case2 => simp at h
  | case3 read ts _ e r hr ih =>
    have := parseIndexEntry_length_lt hr
    have := ih h
    omega

/-! ## Notes -/

/-- Reads the body of a note in braces: its last text, if it has one. -/
def parseNoteTexts (note : Option String) : List Token → Except ParseError (Parsed (Option String))
  | [] => .error .unexpectedEnd
  | .rbrace :: rest => .ok (note, rest)
  | .str s :: rest => parseNoteTexts (some s) rest
  | _ :: rest => parseNoteTexts note rest

/-- Reads a note after the word `Note`: a text after a colon, or a block. A block with a name has no
text of its own. -/
def parseNote : List Token → Except ParseError (Parsed (Option String))
  | .colon :: .str s :: rest => .ok (some s, rest)
  | .colon :: rest => .error (.unexpected rest.head? .noteText)
  | .lbrace :: rest => parseNoteTexts none rest
  | .ident _ :: rest => (skipBlock rest).map fun rest => (none, rest)
  | ts => .error (failure ts .colonOrBrace)

theorem parseNoteTexts_length_lt {note n : Option String} {ts rest : List Token}
    (h : parseNoteTexts note ts = .ok (n, rest)) : rest.length < ts.length := by
  fun_induction parseNoteTexts note ts <;> grind

theorem parseNote_length_lt {ts rest : List Token} {n : Option String}
    (h : parseNote ts = .ok (n, rest)) : rest.length < ts.length := by
  unfold parseNote at h
  split at h
  · grind
  · simp at h
  · have := parseNoteTexts_length_lt h
    grind
  · rename_i r
    cases hr : skipBlock r with
    | error e => simp [hr, Except.map] at h
    | ok r' =>
      have := skipBlock_length_lt hr
      simp only [hr, Except.map] at h
      grind
  · simp at h

/-! ## The body -/

/-- What the next item of a table body is, seen from its first tokens. -/
inductive ItemKind where
  | indexes
  | note
  | column
deriving DecidableEq, Repr

/-- An item is an index block if `indexes` stands before a brace, and a note if `note` stands before
a colon or a brace. Anything else is a column. -/
def itemKind (ts : List Token) : ItemKind :=
  if startsWithWord "indexes" ts && ts.tail.head? == some .lbrace then .indexes
  else if startsWithWord "note" ts &&
      (ts.tail.head? == some .colon || ts.tail.head? == some .lbrace) then .note
  else .column

/-- Reads an item of the body of a table. -/
def parseTableItem (ts : List Token) : Except ParseError (Parsed TableItem) :=
  match itemKind ts with
  | .indexes => (parseIndexEntries [] ts.tail.tail).map fun (es, rest) => (.indexes es, rest)
  | .note => (parseNote ts.tail).map fun (n, rest) => (.note n, rest)
  | .column => (parseColumn ts).map fun ((c, refs), rest) => (.column c refs, rest)

theorem parseTableItem_length_lt {ts rest : List Token} {i : TableItem}
    (h : parseTableItem ts = .ok (i, rest)) : rest.length < ts.length := by
  have ht : ts.tail.length ≤ ts.length := by simp
  have ht' : ts.tail.tail.length ≤ ts.length := by simp; omega
  unfold parseTableItem at h
  split at h
  · cases hr : parseIndexEntries [] ts.tail.tail with
    | error e => simp [hr, Except.map] at h
    | ok p =>
      obtain ⟨_, _⟩ := p; have := parseIndexEntries_length_lt hr
      simp only [hr, Except.map] at h
      grind
  · cases hr : parseNote ts.tail with
    | error e => simp [hr, Except.map] at h
    | ok p =>
      obtain ⟨_, _⟩ := p; have := parseNote_length_lt hr
      simp only [hr, Except.map] at h
      grind
  · cases hr : parseColumn ts with
    | error e => simp [hr, Except.map] at h
    | ok p =>
      obtain ⟨_, _⟩ := p; have := parseColumn_length_lt hr
      simp only [hr, Except.map] at h
      grind

/-- Reads the body of a table up to its closing brace into the draft. -/
def parseTableBody (d : TableDraft) (ts : List Token) : Except ParseError (Parsed TableDraft) :=
  match ts with
  | [] => .error .unexpectedEnd
  | .rbrace :: rest => .ok (d, rest)
  | ts =>
    match _h : parseTableItem ts with
    | .error e => .error e
    | .ok (i, rest) =>
      match d.add i with
      | .error e => .error e
      | .ok d => parseTableBody d rest
termination_by ts.length
decreasing_by exact parseTableItem_length_lt _h

theorem parseTableBody_length_lt {d d' : TableDraft} {ts rest : List Token}
    (h : parseTableBody d ts = .ok (d', rest)) : rest.length < ts.length := by
  fun_induction parseTableBody d ts with
  | case1 => simp at h
  | case2 => grind
  | case3 => simp at h
  | case4 => simp at h
  | case5 d ts _ _ i r hr d'' hd ih =>
    have := parseTableItem_length_lt hr
    have := ih h
    omega

/-! ## The header -/

/-- Reads the second name of a table, if there is one. -/
def parseTableAlias (ts : List Token) : Except ParseError (Parsed (Option String)) :=
  if startsWithWord "as" ts then
    (parseName ts.tail).map fun (name, rest) => (some name, rest)
  else .ok (none, ts)

/-- Reads a table and the references in its body, after the word `Table`. -/
def parseTable (ts : List Token) : Except ParseError (Parsed TableDraft) := do
  let ((schema, name), rest) ← parseQualifiedName ts
  let (aliasName, rest) ← parseTableAlias rest
  let rest ← skipBrackets rest
  let rest ← expectToken .lbrace .openBrace rest
  parseTableBody ⟨⟨schema, name, aliasName, [], none⟩, []⟩ rest

theorem parseTable_length_lt {ts rest : List Token} {d : TableDraft}
    (h : parseTable ts = .ok (d, rest)) : rest.length < ts.length := by
  simp only [parseTable, bind_eq_ok, expectToken_eq_ok] at h
  obtain ⟨⟨⟨s, n⟩, r1⟩, h1, ⟨a, r2⟩, h2, r3, h3, r4, h4, h5⟩ := h
  have := parseQualifiedName_length_lt h1
  have : r2.length ≤ r1.length := by
    unfold parseTableAlias at h2
    split at h2
    · cases hr : parseName r1.tail with
      | error e => simp [hr, Except.map] at h2
      | ok p =>
        obtain ⟨_, _⟩ := p; have := parseName_length_lt hr
        have : r1.tail.length ≤ r1.length := by simp
        simp only [hr, Except.map] at h2
        grind
    · grind
  have := skipBrackets_length_le h3
  have := parseTableBody_length_lt h5
  grind

end EntityForge.Dbml
