import EntityForge.Dbml.Parser.Column
import EntityForge.Proofs.Dbml.Grammar.Reference

/-!
# The grammar: columns

A column is a name, a type and perhaps settings in brackets with commas between them
(`ColumnPhrase`). A setting that starts with none of the known words is any tokens up to the next
comma or closing bracket; it counts for nothing, whatever words it holds.
-/

namespace EntityForge.Dbml

/-! ## Types -/

/-- The name of a type, perhaps after the name of a schema. -/
inductive IsTypeName : List Token → String → Prop where
  | bare {t : Token} {name : String} (ht : t.name? = some name) : IsTypeName [t] name
  | dotted {s t : Token} {schema name : String} (hs : s.name? = some schema)
      (ht : t.name? = some name) : IsTypeName [s, .dot, t] (schema ++ "." ++ name)

/-- Arguments in parentheses; commas between them may be missing or repeated. -/
inductive IsTypeCall : List Token → String → Prop where
  | absent : IsTypeCall [] ""
  | present {inside : List Token} (h : ∀ t ∈ inside, t = .comma ∨ t.typeArgument?.isSome) :
      IsTypeCall (.lparen :: (inside ++ [.rparen]))
        ("(" ++ ",".intercalate (inside.filterMap (·.typeArgument?)) ++ ")")

/-- The brackets of an array. -/
inductive IsTypeArray : List Token → String → Prop where
  | absent : IsTypeArray [] ""
  | present : IsTypeArray [.lbracket, .rbracket] "[]"

/-- A type: its name, its arguments and its brackets. -/
inductive IsType : List Token → String → Prop where
  | mk {ns cs bs : List Token} {n c b : String} (hn : IsTypeName ns n) (hc : IsTypeCall cs c)
      (hb : IsTypeArray bs b) : IsType (ns ++ (cs ++ bs)) (n ++ c ++ b)

/-- What goes on after a type is not a part of it. -/
structure EndsType (ts : List Token) : Prop where
  dot : ts.head? ≠ some .dot
  lparen : ts.head? ≠ some .lparen
  brackets : ∀ rest, ts ≠ .lbracket :: .rbracket :: rest

theorem parseTypeArguments_sound {ts rest : List Token} {as : List String}
    (h : parseTypeArguments ts = .ok (as, rest)) :
    ∃ inside, ts = inside ++ .rparen :: rest ∧ as = inside.filterMap (·.typeArgument?) ∧
      ∀ t ∈ inside, t = .comma ∨ t.typeArgument?.isSome := by
  fun_induction parseTypeArguments ts generalizing as with
  | case1 => cases h
  | case2 =>
    cases h
    exact ⟨[], rfl, rfl, by simp⟩
  | case3 ts ih =>
    obtain ⟨inside, rfl, rfl, hinside⟩ := ih h
    exact ⟨.comma :: inside, rfl, rfl, by simpa using hinside⟩
  | case4 t ts _ _ s hs ih =>
    obtain ⟨⟨more, r⟩, h1, h2⟩ := map_eq_ok.1 h
    cases h2
    obtain ⟨inside, rfl, rfl, hinside⟩ := ih h1
    exact ⟨t :: inside, rfl, by simp [hs], by simpa [hs] using hinside⟩
  | case5 => cases h

theorem parseTypeArguments_complete {inside : List Token}
    (h : ∀ t ∈ inside, t = .comma ∨ t.typeArgument?.isSome) (rest : List Token) :
    parseTypeArguments (inside ++ .rparen :: rest) =
      .ok (inside.filterMap (·.typeArgument?), rest) := by
  induction inside with
  | nil => rfl
  | cons t inside ih =>
    have ih := ih fun u hu => h u (.tail _ hu)
    rcases h t (.head _) with rfl | ht
    · exact ih
    · obtain ⟨s, hs⟩ := Option.isSome_iff_exists.1 ht
      rw [List.cons_append, parseTypeArguments, hs]
      · simp [ih, hs, Except.map]
      · rintro rfl
        cases hs
      · rintro rfl
        cases hs

theorem parseTypeCall_sound {name s : String} {ts rest : List Token}
    (h : parseTypeCall name ts = .ok (s, rest)) :
    ∃ taken c, ts = taken ++ rest ∧ IsTypeCall taken c ∧ s = name ++ c := by
  unfold parseTypeCall at h
  split at h
  · obtain ⟨⟨as, r⟩, h1, h2⟩ := map_eq_ok.1 h
    cases h2
    obtain ⟨inside, rfl, rfl, hinside⟩ := parseTypeArguments_sound h1
    exact ⟨_, _, by simp, .present hinside, by simp [String.append_assoc]⟩
  · cases h
    exact ⟨[], "", rfl, .absent, by simp⟩

theorem parseTypeCall_complete {taken rest : List Token} {c : String} (h : IsTypeCall taken c)
    (hrest : rest.head? ≠ some .lparen) (name : String) :
    parseTypeCall name (taken ++ rest) = .ok (name ++ c, rest) := by
  cases h with
  | absent =>
    rw [List.nil_append, String.append_empty]
    unfold parseTypeCall
    split
    · exact absurd rfl hrest
    · rfl
  | @present inside hinside =>
    have hread := parseTypeArguments_complete hinside rest
    rw [List.cons_append, List.append_assoc]
    exact map_eq_ok.2 ⟨_, hread, by simp [String.append_assoc]⟩

theorem parseTypeMember_sound {t : Token} {name s : String} {ts rest : List Token}
    (ht : t.name? = some name) (h : parseTypeMember name ts = .ok (s, rest)) :
    ∃ taken, t :: ts = taken ++ rest ∧ IsTypeName taken s := by
  unfold parseTypeMember at h
  split at h
  · obtain ⟨⟨member, r⟩, h1, h2⟩ := map_eq_ok.1 h
    cases h2
    obtain ⟨u, rfl, hu⟩ := parseName_eq_ok.1 h1
    exact ⟨_, rfl, .dotted ht hu⟩
  · cases h
    exact ⟨_, rfl, .bare ht⟩

theorem parseTypeArray_sound {name s : String} {ts rest : List Token}
    (h : parseTypeArray name ts = (s, rest)) :
    ∃ taken b, ts = taken ++ rest ∧ IsTypeArray taken b ∧ s = name ++ b := by
  unfold parseTypeArray at h
  split at h
  · cases h
    exact ⟨_, _, rfl, .present, rfl⟩
  · cases h
    exact ⟨[], "", rfl, .absent, by simp⟩

theorem parseTypeArray_complete {taken rest : List Token} {b : String} (h : IsTypeArray taken b)
    (hrest : ∀ r, rest ≠ .lbracket :: .rbracket :: r) (name : String) :
    parseTypeArray name (taken ++ rest) = (name ++ b, rest) := by
  cases h with
  | absent =>
    rw [List.nil_append, String.append_empty]
    unfold parseTypeArray
    split
    · exact absurd rfl (hrest _)
    · rfl
  | present => rfl

theorem parseType_sound {ts rest : List Token} {s : String} (h : parseType ts = .ok (s, rest)) :
    ∃ taken, ts = taken ++ rest ∧ IsType taken s := by
  simp only [parseType, bind_eq_ok] at h
  obtain ⟨⟨name, r1⟩, h1, ⟨name', r2⟩, h2, ⟨name'', r3⟩, h3, h4⟩ := h
  obtain ⟨t, rfl, ht⟩ := parseName_eq_ok.1 h1
  obtain ⟨ns, hns, hname⟩ := parseTypeMember_sound ht h2
  obtain ⟨cs, c, rfl, hcall, rfl⟩ := parseTypeCall_sound h3
  obtain ⟨bs, b, rfl, harray, rfl⟩ := parseTypeArray_sound (Except.ok.inj h4)
  exact ⟨ns ++ (cs ++ bs), by simp [hns], .mk hname hcall harray⟩

theorem parseTypeName_complete {taken rest : List Token} {n : String} (h : IsTypeName taken n)
    (hrest : rest.head? ≠ some .dot) :
    ∃ name r, parseName (taken ++ rest) = .ok (name, r) ∧
      parseTypeMember name r = .ok (n, rest) := by
  cases h with
  | bare ht =>
    refine ⟨_, _, parseName_cons ht rest, ?_⟩
    unfold parseTypeMember
    split
    · exact absurd rfl hrest
    · rfl
  | dotted hs ht => exact ⟨_, _, parseName_cons hs _, map_eq_ok.2 ⟨_, parseName_cons ht rest, rfl⟩⟩

theorem parseType_complete {taken rest : List Token} {s : String} (h : IsType taken s)
    (hrest : EndsType rest) : parseType (taken ++ rest) = .ok (s, rest) := by
  obtain @⟨ns, cs, bs, n, c, b, hn, hc, hb⟩ := h
  -- what follows each part does not prolong it
  have harray : (bs ++ rest).head? ≠ some .lparen ∧ (bs ++ rest).head? ≠ some .dot := by
    cases hb with
    | absent => exact ⟨hrest.lparen, hrest.dot⟩
    | present => simp
  have hcall : (cs ++ (bs ++ rest)).head? ≠ some .dot := by
    cases hc with
    | absent => exact harray.2
    | present => simp
  obtain ⟨name, r, hname, hmember⟩ := parseTypeName_complete hn hcall
  simp only [parseType, bind_eq_ok, List.append_assoc]
  exact ⟨_, hname, _, hmember, _, parseTypeCall_complete hc harray.1 n,
    congrArg Except.ok (parseTypeArray_complete hb hrest.brackets _)⟩

/-! ## Settings -/

/-- A default value. -/
inductive IsDefault : List Token → String → Prop where
  | str (s : String) : IsDefault [.str s] ("'" ++ s ++ "'")
  | expr (s : String) : IsDefault [.expr s] ("\x60" ++ s ++ "\x60")
  | num (n : String) : IsDefault [.num n] n
  | ident (s : String) : IsDefault [.ident s] s
  | negative (n : String) : IsDefault [.dash, .num n] ("-" ++ n)

/-- The words that start a known setting. -/
def settingWords : List String :=
  ["pk", "primary", "increment", "unique", "null", "not", "default", "note", "ref"]

/-- One setting of a column. -/
inductive IsSetting : List Token → ColumnItem → Prop where
  | pk {w : String} (hw : Text.lowerAscii w = "pk") : IsSetting [.ident w] (.setting .primaryKey)
  | primary {w : String} (hw : Text.lowerAscii w = "primary") :
      IsSetting [.ident w] (.setting .primaryKey)
  | primaryKey {w k : String} (hw : Text.lowerAscii w = "primary")
      (hk : Text.lowerAscii k = "key") : IsSetting [.ident w, .ident k] (.setting .primaryKey)
  | increment {w : String} (hw : Text.lowerAscii w = "increment") :
      IsSetting [.ident w] (.setting .increment)
  | unique {w : String} (hw : Text.lowerAscii w = "unique") :
      IsSetting [.ident w] (.setting .unique)
  | null {w : String} (hw : Text.lowerAscii w = "null") : IsSetting [.ident w] (.setting .null)
  | notNull {w n : String} (hw : Text.lowerAscii w = "not") (hn : Text.lowerAscii n = "null") :
      IsSetting [.ident w, .ident n] (.setting .notNull)
  | defaultValue {w value : String} {ts : List Token} (hw : Text.lowerAscii w = "default")
      (h : IsDefault ts value) :
      IsSetting (.ident w :: .colon :: ts) (.setting (.defaultValue value))
  | note {w : String} (hw : Text.lowerAscii w = "note") (text : String) :
      IsSetting [.ident w, .colon, .str text] (.setting (.note text))
  | ref {w : String} {ts : List Token} {other : Endpoint} (hw : Text.lowerAscii w = "ref")
      (sign : RelationSign) (h : IsEndpoint ts other) :
      IsSetting (.ident w :: .colon :: sign.token :: ts) (.ref ⟨sign, other⟩)
  | other {w : String} {ts : List Token} (hw : Text.lowerAscii w ∉ settingWords)
      (hcomma : .comma ∉ ts) (hbracket : .rbracket ∉ ts) : IsSetting (.ident w :: ts) .other

/-- A comma or a closing bracket. -/
def EndsSetting (ts : List Token) : Prop :=
  ∃ t rest, ts = t :: rest ∧ (t = .comma ∨ t = .rbracket)

theorem parseDefault_sound {ts rest : List Token} {value : String}
    (h : parseDefault ts = .ok (value, rest)) :
    ∃ taken, ts = taken ++ rest ∧ IsDefault taken value := by
  unfold parseDefault at h
  split at h
  · cases h; exact ⟨_, rfl, .str _⟩
  · cases h; exact ⟨_, rfl, .expr _⟩
  · cases h; exact ⟨_, rfl, .num _⟩
  · cases h; exact ⟨_, rfl, .ident _⟩
  · cases h; exact ⟨_, rfl, .negative _⟩
  · cases h
  · cases h

theorem parseDefault_complete {taken : List Token} {value : String} (h : IsDefault taken value)
    (rest : List Token) : parseDefault (taken ++ rest) = .ok (value, rest) := by
  cases h <;> rfl

theorem skipSetting_sound {ts rest : List Token} (h : skipSetting ts = .ok rest) :
    ∃ taken, ts = taken ++ rest ∧ .comma ∉ taken ∧ .rbracket ∉ taken := by
  fun_induction skipSetting ts with
  | case1 => cases h
  | case2 =>
    cases h
    exact ⟨[], rfl, by simp⟩
  | case3 =>
    cases h
    exact ⟨[], rfl, by simp⟩
  | case4 t ts hcomma hbracket ih =>
    obtain ⟨taken, rfl, h1, h2⟩ := ih h
    exact ⟨t :: taken, rfl, by simpa using ⟨fun h => hcomma h.symm, h1⟩,
      by simpa using ⟨fun h => hbracket h.symm, h2⟩⟩

theorem skipSetting_complete {taken rest : List Token} (hcomma : .comma ∉ taken)
    (hbracket : .rbracket ∉ taken) (hrest : EndsSetting rest) :
    skipSetting (taken ++ rest) = .ok rest := by
  induction taken with
  | nil =>
    obtain ⟨t, r, rfl, rfl | rfl⟩ := hrest
    · rfl
    · rfl
  | cons t taken ih =>
    rw [List.mem_cons, not_or] at hcomma hbracket
    rw [List.cons_append, skipSetting]
    · exact ih hcomma.2 hbracket.2
    · exact fun h => hcomma.1 h.symm
    · exact fun h => hbracket.1 h.symm

theorem parseColumnItem_sound {ts rest : List Token} {i : ColumnItem}
    (h : parseColumnItem ts = .ok (i, rest)) : ∃ taken, ts = taken ++ rest ∧ IsSetting taken i := by
  unfold parseColumnItem at h
  split at h
  case h_2 => cases h
  rename_i w ts
  generalize hw : Text.lowerAscii w = keyword at h
  unfold parseSetting at h
  split at h
  · cases h
    exact ⟨_, rfl, .pk hw⟩
  · cases h
    split
    · rename_i hkey
      obtain ⟨k, r, rfl, hk⟩ := startsWithWord_eq_true.1 hkey
      exact ⟨_, rfl, .primaryKey hw hk⟩
    · exact ⟨_, rfl, .primary hw⟩
  · cases h
    exact ⟨_, rfl, .increment hw⟩
  · cases h
    exact ⟨_, rfl, .unique hw⟩
  · cases h
    exact ⟨_, rfl, .null hw⟩
  · split at h
    · rename_i hnull
      cases h
      obtain ⟨n, r, rfl, hn⟩ := startsWithWord_eq_true.1 hnull
      exact ⟨_, rfl, .notNull hw hn⟩
    · cases h
  · simp only [bind_eq_ok, expectToken_eq_ok] at h
    obtain ⟨r, rfl, ⟨value, r'⟩, h1, h2⟩ := h
    obtain ⟨taken, rfl, hvalue⟩ := parseDefault_sound h1
    cases h2
    exact ⟨_, rfl, .defaultValue hw hvalue⟩
  · simp only [bind_eq_ok, expectToken_eq_ok] at h
    obtain ⟨r, rfl, h1⟩ := h
    split at h1
    · cases h1
      exact ⟨_, rfl, .note hw _⟩
    · cases h1
  · simp only [bind_eq_ok, expectToken_eq_ok] at h
    obtain ⟨r, rfl, ⟨sign, r1⟩, h1, ⟨other, r2⟩, h2, h3⟩ := h
    obtain rfl := parseSign_eq_ok.1 h1
    obtain ⟨taken, rfl, hother⟩ := parseEndpoint_sound h2
    cases h3
    exact ⟨_, rfl, .ref hw sign hother⟩
  · obtain ⟨r, h1, h2⟩ := bind_eq_ok.1 h
    obtain ⟨taken, rfl, hcomma, hbracket⟩ := skipSetting_sound h1
    cases h2
    exact ⟨_, rfl, .other (by simp_all [settingWords]) hcomma hbracket⟩

theorem parseColumnItem_complete {taken rest : List Token} {i : ColumnItem}
    (h : IsSetting taken i) (hrest : EndsSetting rest) :
    parseColumnItem (taken ++ rest) = .ok (i, rest) := by
  have hend : ∀ word, startsWithWord word rest = false := by
    obtain ⟨t, r, rfl, rfl | rfl⟩ := hrest
    · exact fun _ => rfl
    · exact fun _ => rfl
  cases h with
  | pk hw => simp [parseColumnItem, hw, parseSetting]
  | primary hw => simp [parseColumnItem, hw, parseSetting, hend]
  | primaryKey hw hk => simp [parseColumnItem, hw, parseSetting, startsWithWord, hk]
  | increment hw => simp [parseColumnItem, hw, parseSetting]
  | unique hw => simp [parseColumnItem, hw, parseSetting]
  | null hw => simp [parseColumnItem, hw, parseSetting]
  | notNull hw hn => simp [parseColumnItem, hw, parseSetting, startsWithWord, hn]
  | defaultValue hw hvalue =>
    have hread := parseDefault_complete hvalue rest
    rw [List.cons_append, List.cons_append, parseColumnItem, hw]
    exact bind_eq_ok.2 ⟨_, rfl, bind_eq_ok.2 ⟨_, hread, rfl⟩⟩
  | note hw text =>
    rw [List.cons_append, List.cons_append, parseColumnItem, hw]
    rfl
  | ref hw sign hother =>
    have hdot : rest.head? ≠ some .dot := by
      obtain ⟨t, r, rfl, rfl | rfl⟩ := hrest
      · simp
      · simp
    have hread := parseEndpoint_complete hother hdot
    rw [List.cons_append, List.cons_append, List.cons_append, parseColumnItem, hw]
    exact bind_eq_ok.2 ⟨_, rfl, bind_eq_ok.2 ⟨_, parseSign_eq_ok.2 rfl,
      bind_eq_ok.2 ⟨_, hread, rfl⟩⟩⟩
  | @other w ts hw hcomma hbracket =>
    have hskip := skipSetting_complete hcomma hbracket hrest
    rw [List.cons_append, parseColumnItem]
    generalize Text.lowerAscii w = keyword at hw
    unfold parseSetting
    split
    all_goals first
      | exact absurd (by decide) hw
      | exact bind_eq_ok.2 ⟨_, hskip, rfl⟩

/-! ## Columns -/

/-- Settings with commas between them, up to the closing bracket. -/
def listedTokens (s : Phrase IsSetting) : List (Phrase IsSetting) → List Token
  | [] => s.tokens ++ [.rbracket]
  | s' :: ss => s.tokens ++ .comma :: listedTokens s' ss

/-- Settings in brackets, or nothing if there are none. -/
def bracketedTokens : List (Phrase IsSetting) → List Token
  | [] => []
  | s :: ss => .lbracket :: listedTokens s ss

/-- A column with its settings. -/
structure ColumnPhrase where
  name : Phrase IsName
  type : Phrase IsType
  settings : List (Phrase IsSetting)

namespace ColumnPhrase

def tokens (p : ColumnPhrase) : List Token :=
  p.name.tokens ++ (p.type.tokens ++ bracketedTokens p.settings)

def column (p : ColumnPhrase) : Column :=
  ⟨p.name.value, p.type.value, p.settings.filterMap (·.value.setting?)⟩

def refs (p : ColumnPhrase) : List InlineRef :=
  p.settings.filterMap (·.value.ref?)

end ColumnPhrase

/-- What goes on after an item in the body of a table: a name, which starts the next one, or the
closing brace. -/
def EndsItem (ts : List Token) : Prop :=
  ∃ t rest, ts = t :: rest ∧ (t.name?.isSome ∨ t = .rbrace)

theorem EndsItem.head?_ne {ts : List Token} (h : EndsItem ts) {t : Token} (ht : t.name? = none)
    (hbrace : t ≠ .rbrace) : ts.head? ≠ some t := by
  obtain ⟨u, rest, rfl, hu⟩ := h
  rw [List.head?_cons, ne_eq, Option.some.injEq]
  rintro rfl
  rcases hu with hu | rfl
  · simp [ht] at hu
  · exact hbrace rfl

theorem IsSetting.eq_cons {taken : List Token} {i : ColumnItem} (h : IsSetting taken i) :
    ∃ w rest, taken = .ident w :: rest := by
  cases h <;> exact ⟨_, _, rfl⟩

theorem listedTokens_eq_cons (s : Phrase IsSetting) (ss : List (Phrase IsSetting)) :
    ∃ w rest, listedTokens s ss = .ident w :: rest := by
  obtain ⟨w, rest, hw⟩ := s.valid.eq_cons
  cases ss <;> exact ⟨w, _, by rw [listedTokens, hw]; rfl⟩

theorem parseColumnItems_sound {read is : List ColumnItem} {ts rest : List Token}
    (h : parseColumnItems read ts = .ok (is, rest)) :
    ∃ s ss, ts = listedTokens s ss ++ rest ∧ is = read.reverse ++ (s :: ss).map (·.value) := by
  fun_induction parseColumnItems read ts with
  | case1 => cases h
  | case2 read ts i r hi ih =>
    obtain ⟨taken, rfl, hs⟩ := parseColumnItem_sound hi
    obtain ⟨s, ss, rfl, rfl⟩ := ih h
    exact ⟨⟨taken, i, hs⟩, s :: ss, by simp [listedTokens], by simp⟩
  | case3 read ts i r hi =>
    obtain ⟨taken, rfl, hs⟩ := parseColumnItem_sound hi
    cases h
    exact ⟨⟨taken, i, hs⟩, [], by simp [listedTokens], by simp⟩
  | case4 => cases h

theorem parseColumnItems_complete (read : List ColumnItem) (s : Phrase IsSetting)
    (ss : List (Phrase IsSetting)) (rest : List Token) :
    parseColumnItems read (listedTokens s ss ++ rest) =
      .ok (read.reverse ++ (s :: ss).map (·.value), rest) := by
  induction ss generalizing s read with
  | nil =>
    have hitem := parseColumnItem_complete s.valid ⟨.rbracket, rest, rfl, .inr rfl⟩
    rw [listedTokens, List.append_assoc, List.singleton_append, parseColumnItems.eq_def, hitem]
    simp
  | cons s' ss ih =>
    have hitem := parseColumnItem_complete s.valid
      ⟨.comma, listedTokens s' ss ++ rest, rfl, .inl rfl⟩
    rw [listedTokens, List.append_assoc, List.cons_append, parseColumnItems.eq_def, hitem]
    exact (ih _ _).trans (by simp)

theorem parseColumnSettings_sound {ts rest : List Token} {is : List ColumnItem}
    (h : parseColumnSettings ts = .ok (is, rest)) :
    ∃ ss, ts = bracketedTokens ss ++ rest ∧ is = ss.map (·.value) := by
  unfold parseColumnSettings at h
  split at h
  · obtain ⟨s, ss, rfl, rfl⟩ := parseColumnItems_sound h
    exact ⟨s :: ss, rfl, by simp⟩
  · cases h
    exact ⟨[], rfl, rfl⟩

theorem parseColumnSettings_complete (ss : List (Phrase IsSetting)) {rest : List Token}
    (hrest : rest.head? ≠ some .lbracket) :
    parseColumnSettings (bracketedTokens ss ++ rest) = .ok (ss.map (·.value), rest) := by
  cases ss with
  | nil =>
    rw [bracketedTokens, List.nil_append]
    unfold parseColumnSettings
    split
    · exact absurd rfl hrest
    · rfl
  | cons s ss => exact parseColumnItems_complete [] s ss rest

theorem parseColumn_sound {ts rest : List Token} {c : Column} {refs : List InlineRef}
    (h : parseColumn ts = .ok ((c, refs), rest)) :
    ∃ p : ColumnPhrase, ts = p.tokens ++ rest ∧ c = p.column ∧ refs = p.refs := by
  simp only [parseColumn, bind_eq_ok] at h
  obtain ⟨⟨name, r1⟩, h1, ⟨type, r2⟩, h2, ⟨items, r3⟩, h3, h4⟩ := h
  obtain ⟨names, rfl, hname⟩ := parseName_sound h1
  obtain ⟨types, rfl, htype⟩ := parseType_sound h2
  obtain ⟨ss, rfl, rfl⟩ := parseColumnSettings_sound h3
  cases h4
  refine ⟨⟨⟨names, name, hname⟩, ⟨types, type, htype⟩, ss⟩, by simp [ColumnPhrase.tokens], ?_, ?_⟩
  · simp [ColumnPhrase.column, List.filterMap_map]
  · simp [ColumnPhrase.refs, List.filterMap_map]

/-- Settings in brackets are not taken for the brackets of an array. -/
theorem endsType_bracketedTokens (ss : List (Phrase IsSetting)) {rest : List Token}
    (hrest : EndsItem rest) : EndsType (bracketedTokens ss ++ rest) := by
  cases ss with
  | nil =>
    refine ⟨hrest.head?_ne rfl (by simp), hrest.head?_ne rfl (by simp), fun r heq => ?_⟩
    exact hrest.head?_ne (t := .lbracket) rfl (by simp) (by simp [show rest = _ from heq])
  | cons s ss =>
    refine ⟨by simp [bracketedTokens], by simp [bracketedTokens], fun r heq => ?_⟩
    obtain ⟨w, r', hw⟩ := listedTokens_eq_cons s ss
    rw [bracketedTokens, hw] at heq
    cases heq

theorem parseColumn_complete (p : ColumnPhrase) {rest : List Token} (hrest : EndsItem rest) :
    parseColumn (p.tokens ++ rest) = .ok ((p.column, p.refs), rest) := by
  have hname := parseName_complete p.name.valid
    (p.type.tokens ++ (bracketedTokens p.settings ++ rest))
  have htype := parseType_complete p.type.valid (endsType_bracketedTokens p.settings hrest)
  have hsettings := parseColumnSettings_complete p.settings
    (hrest.head?_ne (t := .lbracket) rfl (by simp))
  simp only [parseColumn, bind_eq_ok, ColumnPhrase.tokens, List.append_assoc]
  refine ⟨_, hname, _, htype, _, hsettings, ?_⟩
  simp [ColumnPhrase.column, ColumnPhrase.refs, List.filterMap_map]

end EntityForge.Dbml
