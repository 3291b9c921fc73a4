import EntityForge.Dbml.Parser.Reference

/-!
# Columns

A column is a name, a type and, in brackets, settings with commas between them. Settings that are
not known are skipped up to the next comma or closing bracket.
-/

namespace EntityForge.Dbml

/-! ## Types -/

/-- The text of a type argument: words and numbers as they are, quoted texts in single quotes. -/
def Token.typeArgument? : Token → Option String
  | num n => some n
  | ident s => some s
  | str s => some ("'" ++ s ++ "'")
  | _ => none

/-- Reads the arguments of a type up to the closing parenthesis; commas between them may be
missing or repeated. -/
def parseTypeArguments : List Token → Except ParseError (Parsed (List String))
  | [] => .error .unexpectedEnd
  | .rparen :: rest => .ok ([], rest)
  | .comma :: rest => parseTypeArguments rest
  | t :: rest =>
    match t.typeArgument? with
    | some s => (parseTypeArguments rest).map fun (arguments, rest) => (s :: arguments, rest)
    | none => .error (.unexpected (some t) .typeArgument)

/-- Reads the second name of a type in another schema, if there is one. -/
def parseTypeMember (name : String) : List Token → Except ParseError (Parsed String)
  | .dot :: rest => (parseName rest).map fun (member, rest) => (name ++ "." ++ member, rest)
  | ts => .ok (name, ts)

/-- Reads the arguments of a type, if there are any. -/
def parseTypeCall (name : String) : List Token → Except ParseError (Parsed String)
  | .lparen :: rest =>
    (parseTypeArguments rest).map fun (arguments, rest) =>
      (name ++ "(" ++ String.intercalate "," arguments ++ ")", rest)
  | ts => .ok (name, ts)

/-- Reads the brackets of an array type, if there are any. -/
def parseTypeArray (name : String) : List Token → Parsed String
  | .lbracket :: .rbracket :: rest => (name ++ "[]", rest)
  | ts => (name, ts)

/-- Reads a type as one text: `int`, `varchar(255)`, `decimal(10,2)`, `schema.enum`, `int[]`. -/
def parseType (ts : List Token) : Except ParseError (Parsed String) := do
  let (name, rest) ← parseName ts
  let (name, rest) ← parseTypeMember name rest
  let (name, rest) ← parseTypeCall name rest
  .ok (parseTypeArray name rest)

/-! ## Settings -/

/-- What one setting of a column adds to it. -/
inductive ColumnItem where
  | setting (setting : Setting)
  | ref (ref : InlineRef)
  /-- A setting that is not known. -/
  | other
deriving DecidableEq, Repr

/-- Reads a default value. It is stored as written, except that texts are in single quotes. -/
def parseDefault : List Token → Except ParseError (Parsed String)
  | .str s :: rest => .ok ("'" ++ s ++ "'", rest)
  | .expr s :: rest => .ok ("\x60" ++ s ++ "\x60", rest)
  | .num n :: rest => .ok (n, rest)
  | .ident s :: rest => .ok (s, rest)
  | .dash :: .num n :: rest => .ok ("-" ++ n, rest)
  | .dash :: rest => .error (.unexpected rest.head? .number)
  | ts => .error (failure ts .defaultValue)

/-- Skips to the comma or bracket that ends a setting, which stays. -/
def skipSetting : List Token → Except ParseError (List Token)
  | [] => .error .unexpectedEnd
  | .comma :: rest => .ok (.comma :: rest)
  | .rbracket :: rest => .ok (.rbracket :: rest)
  | _ :: rest => skipSetting rest

/-- Reads what follows the keyword of a setting. -/
def parseSetting (keyword : String) (ts : List Token) : Except ParseError (Parsed ColumnItem) :=
  match keyword with
  | "pk" => .ok (.setting .primaryKey, ts)
  | "primary" => .ok (.setting .primaryKey, if startsWithWord "key" ts then ts.tail else ts)
  | "increment" => .ok (.setting .increment, ts)
  | "unique" => .ok (.setting .unique, ts)
  | "null" => .ok (.setting .null, ts)
  | "not" =>
    if startsWithWord "null" ts then .ok (.setting .notNull, ts.tail)
    else .error (.unexpected ts.head? .nullKeyword)
  | "default" => do
    let rest ← expectToken .colon .colon ts
    let (value, rest) ← parseDefault rest
    .ok (.setting (.defaultValue value), rest)
  | "note" => do
    match ← expectToken .colon .colon ts with
    | .str s :: rest => .ok (.setting (.note s), rest)
    | rest => .error (.unexpected rest.head? .noteText)
  | "ref" => do
    let rest ← expectToken .colon .colon ts
    let (sign, rest) ← parseSign rest
    let (other, rest) ← parseEndpoint rest
    .ok (.ref ⟨sign, other⟩, rest)
  | _ => do
    let rest ← skipSetting ts
    .ok (.other, rest)

/-- Reads one setting. -/
def parseColumnItem : List Token → Except ParseError (Parsed ColumnItem)
  | .ident s :: rest => parseSetting (Text.lowerAscii s) rest
  | ts => .error (failure ts .setting)

/-! ## Readers leave fewer tokens -/

theorem parseTypeArguments_length_lt {ts rest : List Token} {as : List String}
    (h : parseTypeArguments ts = .ok (as, rest)) : rest.length < ts.length := by
  fun_induction parseTypeArguments ts generalizing as with
  | case4 t r _ _ s hs ih =>
    cases hr : parseTypeArguments r with
    | error e => simp [hr, Except.map] at h
    | ok p =>
      have := @ih p.1 (by rw [hr]; simp only [hr, Except.map] at h; grind)
      grind
  | _ => grind

theorem parseType_length_lt {ts rest : List Token} {s : String}
    (h : parseType ts = .ok (s, rest)) : rest.length < ts.length := by
  simp only [parseType, bind_eq_ok] at h
  obtain ⟨⟨n1, r1⟩, h1, ⟨n2, r2⟩, h2, ⟨n3, r3⟩, h3, h4⟩ := h
  have l1 := parseName_length_lt h1
  have l2 : r2.length ≤ r1.length := by
    simp only [parseTypeMember] at h2
    split at h2
    · rename_i r
      cases hr : parseName r with
      | error e => simp [hr, Except.map] at h2
      | ok p =>
        obtain ⟨_, _⟩ := p; have := parseName_length_lt hr
        simp only [hr, Except.map] at h2
        grind
    · grind
  have l3 : r3.length ≤ r2.length := by
    simp only [parseTypeCall] at h3
    split at h3
    · rename_i r
      cases hr : parseTypeArguments r with
      | error e => simp [hr, Except.map] at h3
      | ok p =>
        obtain ⟨_, _⟩ := p; have := parseTypeArguments_length_lt hr
        simp only [hr, Except.map] at h3
        grind
    · grind
  have l4 : rest.length ≤ r3.length := by
    unfold parseTypeArray at h4
    grind
  omega

theorem parseDefault_length_lt {ts rest : List Token} {s : String}
    (h : parseDefault ts = .ok (s, rest)) : rest.length < ts.length := by
  unfold parseDefault at h
  grind

theorem skipSetting_length_le {ts rest : List Token} (h : skipSetting ts = .ok rest) :
    rest.length ≤ ts.length := by
  fun_induction skipSetting ts <;> grind

theorem parseSetting_length_le {keyword : String} {ts rest : List Token} {i : ColumnItem}
    (h : parseSetting keyword ts = .ok (i, rest)) : rest.length ≤ ts.length := by
  have ht : ts.tail.length ≤ ts.length := by simp
  unfold parseSetting at h
  split at h
  · grind
  · grind
  · grind
  · grind
  · grind
  · grind
  · simp only [bind_eq_ok, expectToken_eq_ok] at h
    obtain ⟨r, rfl, ⟨v, r'⟩, h1, h2⟩ := h
    have := parseDefault_length_lt h1
    grind
  · simp only [bind_eq_ok, expectToken_eq_ok] at h
    obtain ⟨r, rfl, h1⟩ := h
    grind
  · simp only [bind_eq_ok, expectToken_eq_ok] at h
    obtain ⟨r, rfl, ⟨sign, r1⟩, h1, ⟨other, r2⟩, h2, h3⟩ := h
    have := parseSign_length_lt h1
    have := parseEndpoint_length_lt h2
    grind
  · simp only [bind_eq_ok] at h
    obtain ⟨r, h1, h2⟩ := h
    have := skipSetting_length_le h1
    grind

theorem parseColumnItem_length_lt {ts rest : List Token} {i : ColumnItem}
    (h : parseColumnItem ts = .ok (i, rest)) : rest.length < ts.length := by
  unfold parseColumnItem at h
  split at h
  · have := parseSetting_length_le h
    grind
  · simp at h

/-! ## Columns -/

/-- Reads settings up to the closing bracket, after those in `read`, which holds the last first. -/
def parseColumnItems (read : List ColumnItem) (ts : List Token) :
    Except ParseError (Parsed (List ColumnItem)) :=
  match _h : parseColumnItem ts with
  | .error e => .error e
  | .ok (i, .comma :: rest) => parseColumnItems (i :: read) rest
  | .ok (i, .rbracket :: rest) => .ok ((i :: read).reverse, rest)
  | .ok (_, rest) => .error (failure rest .commaOrBracket)
termination_by ts.length
decreasing_by
  have := parseColumnItem_length_lt _h
  grind

theorem parseColumnItems_length_lt {read is : List ColumnItem} {ts rest : List Token}
    (h : parseColumnItems read ts = .ok (is, rest)) : rest.length < ts.length := by
  fun_induction parseColumnItems read ts with
  | case1 => simp at h
  | case2 read ts i r hr ih =>
    have := parseColumnItem_length_lt hr
    have := ih h
    grind
  | case3 read ts i r hr =>
    have := parseColumnItem_length_lt hr
    grind
  | case4 => simp at h

/-- Reads the settings of a column, if there are any. -/
def parseColumnSettings : List Token → Except ParseError (Parsed (List ColumnItem))
  | .lbracket :: rest => parseColumnItems [] rest
  | ts => .ok ([], ts)

/-- The setting that an item stands for. -/
def ColumnItem.setting? : ColumnItem → Option Setting
  | setting s => some s
  | _ => none

/-- The reference that an item stands for. -/
def ColumnItem.ref? : ColumnItem → Option InlineRef
  | ref r => some r
  | _ => none

/-- Reads a column and the references among its settings. -/
def parseColumn (ts : List Token) : Except ParseError (Parsed (Column × List InlineRef)) := do
  let (name, rest) ← parseName ts
  let (type, rest) ← parseType rest
  let (items, rest) ← parseColumnSettings rest
  .ok ((⟨name, type, items.filterMap (·.setting?)⟩, items.filterMap (·.ref?)), rest)

theorem parseColumn_length_lt {ts rest : List Token} {c : Column × List InlineRef}
    (h : parseColumn ts = .ok (c, rest)) : rest.length < ts.length := by
  simp only [parseColumn, bind_eq_ok] at h
  obtain ⟨⟨n, r1⟩, h1, ⟨t, r2⟩, h2, ⟨is, r3⟩, h3, h4⟩ := h
  have := parseName_length_lt h1
  have := parseType_length_lt h2
  have : r3.length ≤ r2.length := by
    unfold parseColumnSettings at h3
    split at h3
    · have := parseColumnItems_length_lt h3
      grind
    · grind
  grind

end EntityForge.Dbml
