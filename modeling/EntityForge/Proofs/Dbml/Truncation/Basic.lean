import EntityForge.Proofs.Dbml.Grammar.Reference

/-!
# Readers whose tokens stop

What a reader gives for the tokens there are stands when more follow, in one of three ways
(`Resumes`): it is the same, with the new tokens behind those that were left; or the reader has taken
all tokens, or failed for their end (`EndsEarly`), and nothing is said; or it failed for what it has
seen, and fails again. Readers one after the other resume if each of them does (`Resumable.bind`),
and take no more whatever follows if the last of them does not (`SelfClosed`,
`Resumable.bind_selfClosed`). This module has the readers of names, blocks and relationships.
-/

namespace EntityForge.Dbml

/-! ## Errors for the end -/

/-- An endpoint is expected after the tokens: they end in the sign of a relationship, or they are the
start of a declaration up to one of its relationships. -/
inductive ExpectsEndpoint : List Token → Prop where
  | sign (sign : RelationSign) (before : List Token) : ExpectsEndpoint (before ++ [sign.token])
  | one {head : List Token} {name : Option String} (h : IsRefHead head name)
      (before : List Token) : ExpectsEndpoint (before ++ (head ++ [.colon]))
  | block {head : List Token} {name : Option String} (h : IsRefHead head name)
      (ps : List RelationshipPhrase) (before : List Token) :
      ExpectsEndpoint (before ++ (head ++ .lbrace :: relationshipTokens ps))

/-- The tokens end where what follows is missed by a reader that says so in its own words: after the
word `not`, after the colon of a note, after the sign of a number, or after the first name of an
endpoint. -/
inductive Dangling : Expected → List Token → Prop where
  | nullKeyword {s : String} (hs : Text.lowerAscii s = "not") (before : List Token) :
      Dangling .nullKeyword (before ++ [.ident s])
  | noteText {s : String} (hs : Text.lowerAscii s = "note") (before : List Token) :
      Dangling .noteText (before ++ [.ident s, .colon])
  | number {s : String} (hs : Text.lowerAscii s = "default") (before : List Token) :
      Dangling .number (before ++ [.ident s, .colon, .dash])
  | endpoint {t : Token} {s : String} (ht : t.name? = some s) {before : List Token}
      (h : ExpectsEndpoint before) : Dangling .endpoint (before ++ [t])

/-- The error says that the tokens `seen` end too soon. -/
def EndsEarly (seen : List Token) (e : ParseError) : Prop :=
  e = .unexpectedEnd ∨ ∃ what, e = .unexpected none what ∧ Dangling what seen

theorem ExpectsEndpoint.append_left {seen : List Token} (h : ExpectsEndpoint seen)
    (before : List Token) : ExpectsEndpoint (before ++ seen) := by
  cases h with
  | sign s b => exact List.append_assoc before b _ ▸ .sign s _
  | one h b => exact List.append_assoc before b _ ▸ .one h _
  | block h ps b => exact List.append_assoc before b _ ▸ .block h ps _

theorem Dangling.append_left {what : Expected} {seen : List Token} (h : Dangling what seen)
    (before : List Token) : Dangling what (before ++ seen) := by
  cases h with
  | nullKeyword hs b => exact List.append_assoc before b _ ▸ .nullKeyword hs _
  | noteText hs b => exact List.append_assoc before b _ ▸ .noteText hs _
  | number hs b => exact List.append_assoc before b _ ▸ .number hs _
  | endpoint ht h => exact List.append_assoc before _ _ ▸ .endpoint ht (h.append_left before)

theorem EndsEarly.append_left {seen : List Token} {e : ParseError} (h : EndsEarly seen e)
    (before : List Token) : EndsEarly (before ++ seen) e :=
  h.imp_right fun ⟨what, he, hd⟩ => ⟨what, he, hd.append_left before⟩

theorem EndsEarly.of_suffix {seen rest : List Token} {e : ParseError} (h : EndsEarly rest e)
    (hs : rest <:+ seen) : EndsEarly seen e := by
  obtain ⟨before, rfl⟩ := hs
  exact h.append_left before

/-! ## Readers that resume -/

section
variable {α β : Type}

/-- What a reader gave for `seen` and what it gives with `more` after it. -/
def Resumes (seen more : List Token) :
    Except ParseError (Parsed α) → Except ParseError (Parsed α) → Prop
  | .ok (a, rest), y => rest = [] ∨ y = .ok (a, rest ++ more)
  | .error e, y => EndsEarly seen e ∨ ∃ e', y = .error e'

/-- Whatever tokens the reader is given after `before`, it resumes when more follow. -/
def Resumable (before : List Token) (p : List Token → Except ParseError (Parsed α)) : Prop :=
  ∀ ts us, Resumes (before ++ ts) us (p ts) (p (ts ++ us))

/-- What a skipping reader leaves of the tokens is left of them when more follow, unless it is
nothing or the tokens end too soon. -/
def ResumableSkip (p : List Token → Except ParseError (List Token)) : Prop :=
  ∀ ts us, match p ts with
    | .ok rest => rest = [] ∨ p (ts ++ us) = .ok (rest ++ us)
    | .error e => e = .unexpectedEnd ∨ ∃ e', p (ts ++ us) = .error e'

/-- At the end of the tokens a reader takes nothing or misses some. -/
def Missing : Except ParseError (Parsed α) → Prop
  | .ok (_, rest) => rest = []
  | .error e => e = .unexpectedEnd

theorem Missing.resumes {x : Except ParseError (Parsed α)} (h : Missing x) (seen more : List Token)
    (y : Except ParseError (Parsed α)) : Resumes seen more x y := by
  cases x with
  | error e => exact .inl (.inl h)
  | ok p => exact .inl h

theorem Resumes.of_suffix {rest seen more : List Token} {x y : Except ParseError (Parsed α)}
    (h : Resumes rest more x y) (hs : rest <:+ seen) : Resumes seen more x y := by
  cases x with
  | error e => exact h.imp_left fun he => he.of_suffix hs
  | ok p => exact h

theorem Resumable.of_nil {p : List Token → Except ParseError (Parsed α)} (h : Resumable [] p)
    (before : List Token) : Resumable before p :=
  fun ts us => (h ts us).of_suffix (List.suffix_append _ _)

theorem Resumable.pure (before : List Token) (a : α) :
    Resumable before fun ts => .ok (a, ts) :=
  fun _ _ => .inr rfl

/-- A reader that fails whenever another one does resumes where that one fails. -/
theorem Resumes.of_error {seen more : List Token} {e : ParseError}
    {y : Except ParseError (Parsed α)} {z : Except ParseError (Parsed β)}
    (h : Resumes seen more (.error e : Except ParseError (Parsed α)) y)
    (hz : ∀ e', y = .error e' → ∃ e'', z = .error e'') :
    Resumes seen more (.error e : Except ParseError (Parsed β)) z := by
  refine h.imp_right fun he => ?_
  obtain ⟨e', he⟩ := he
  exact hz e' he

theorem Resumes.map {seen more : List Token} {x y : Except ParseError (Parsed α)}
    (h : Resumes seen more x y) (f : α → β) :
    Resumes seen more (x.map fun (a, rest) => (f a, rest))
      (y.map fun (a, rest) => (f a, rest)) := by
  cases x with
  | error e => exact h.of_error fun e' he => ⟨e', by rw [he]; rfl⟩
  | ok p => exact h.imp_right fun he => by rw [he]; rfl

/-- What comes after a reader resumes if the reader does. -/
theorem Resumes.bind {seen more : List Token} {x y : Except ParseError (Parsed α)}
    {k : Parsed α → Except ParseError (Parsed β)} (h : Resumes seen more x y)
    (hk : ∀ a rest, x = .ok (a, rest) → rest ≠ [] →
      Resumes seen more (k (a, rest)) (k (a, rest ++ more)))
    (hend : ∀ a, x = .ok (a, []) → Resumes seen more (k (a, [])) (y >>= k)) :
    Resumes seen more (x >>= k) (y >>= k) := by
  cases x with
  | error e => exact h.of_error fun e' he => ⟨e', by rw [he]; rfl⟩
  | ok p =>
    obtain ⟨a, rest⟩ := p
    by_cases hrest : rest = []
    · subst hrest
      exact hend a rfl
    · rcases h with hnil | rfl
      · exact absurd hnil hrest
      · exact hk a rest rfl hrest

/-- One reader after the other. -/
theorem Resumable.bind {before : List Token} {p : List Token → Except ParseError (Parsed α)}
    {k : Parsed α → Except ParseError (Parsed β)} (hp : Resumable before p) (hlocal : Local p)
    (hk : ∀ a, Resumable [] fun rest => k (a, rest)) (hend : ∀ a, Missing (k (a, []))) :
    Resumable before fun ts => p ts >>= k :=
  fun ts us => (hp ts us).bind
    (fun a rest hx _ => (hk a rest us).of_suffix
      ((hlocal hx).1.trans (List.suffix_append _ _)))
    fun a _ => (hend a).resumes _ _ _

/-- A reader after one that skips. -/
theorem ResumableSkip.bind {p : List Token → Except ParseError (List Token)}
    {q : List Token → Except ParseError (Parsed α)} (hlocal : LocalSkip p) (hp : ResumableSkip p)
    (hq : Resumable [] q) (hend : Missing (q [])) : Resumable [] fun ts => p ts >>= q := by
  intro ts us
  have h := hp ts us
  dsimp only
  cases hx : p ts with
  | error e =>
    rw [hx] at h
    exact h.imp (fun he => .inl he) fun ⟨e', he⟩ => ⟨e', by rw [he]; rfl⟩
  | ok rest =>
    rw [hx] at h
    rcases h with rfl | he
    · exact hend.resumes _ _ _
    · rw [he]
      exact (hq rest us).of_suffix (hlocal hx).1

end

/-! ## Readers that take no more -/

/-- What the reader takes ends with its last token: it takes no more when more tokens follow. -/
def SelfClosed {α : Type} (p : List Token → Except ParseError (Parsed α)) : Prop :=
  ∀ ⦃ts a rest⦄, p ts = .ok (a, rest) → ∀ us, p (ts ++ us) = .ok (a, rest ++ us)

section
variable {α β : Type}

theorem SelfClosed.map {p : List Token → Except ParseError (Parsed α)} (hp : SelfClosed p)
    (f : α → β) : SelfClosed fun ts => (p ts).map fun (a, rest) => (f a, rest) := by
  intro ts b rest h us
  obtain ⟨⟨a, r⟩, h1, h2⟩ := map_eq_ok.1 h
  cases h2
  exact map_eq_ok.2 ⟨_, hp h1 us, rfl⟩

/-- A reader that resumes takes no more if one comes after it that needs tokens and takes no more
itself. -/
theorem Resumable.bind_selfClosed {p : List Token → Except ParseError (Parsed α)}
    {k : Parsed α → Except ParseError (Parsed β)} (hp : Resumable [] p)
    (hk : ∀ a, SelfClosed fun rest => k (a, rest)) (hend : ∀ a b, k (a, []) ≠ .ok b) :
    SelfClosed fun ts => p ts >>= k := by
  intro ts b rest h us
  obtain ⟨⟨a, r⟩, h1, h2⟩ := bind_eq_ok.1 h
  have hr : r ≠ [] := by
    rintro rfl
    exact hend _ _ h2
  have hlong := hp ts us
  rw [h1] at hlong
  exact bind_eq_ok.2 ⟨_, hlong.resolve_left hr, hk a h2 us⟩

theorem ResumableSkip.bind_selfClosed {p : List Token → Except ParseError (List Token)}
    {q : List Token → Except ParseError (Parsed α)} (hp : ResumableSkip p) (hq : SelfClosed q)
    (hend : ∀ b, q [] ≠ .ok b) : SelfClosed fun ts => p ts >>= q := by
  intro ts b rest h us
  obtain ⟨r, h1, h2⟩ := bind_eq_ok.1 h
  have hr : r ≠ [] := by
    rintro rfl
    exact hend _ h2
  have hlong := hp ts us
  rw [h1] at hlong
  exact bind_eq_ok.2 ⟨_, hlong.resolve_left hr, hq h2 us⟩

end

/-! ## Names and blocks -/

theorem parseName_resumable : Resumable [] parseName := by
  intro ts us
  cases ts with
  | nil => exact .inl (.inl rfl)
  | cons t rest =>
    cases ht : t.name? with
    | none => simp [parseName, ht, Resumes]
    | some s => simp [parseName, ht, Resumes]

theorem expectToken_resumable (t : Token) (what : Expected) :
    ResumableSkip (expectToken t what) := by
  intro ts us
  cases ts with
  | nil => exact .inl rfl
  | cons u rest => by_cases h : u = t <;> simp [expectToken, h]

theorem parseQualifiedName_resumable : Resumable [] parseQualifiedName := by
  refine parseName_resumable.bind parseName_local (fun first => ?_) fun first => rfl
  intro ts us
  cases ts with
  | nil => exact .inl rfl
  | cons t rest =>
    cases t with
    | dot =>
      refine Resumes.of_suffix ?_ (List.suffix_cons .dot rest)
      exact (parseName_resumable rest us).bind (fun _ _ _ _ => .inr rfl) fun _ _ => .inl rfl
    | _ => exact .inr rfl

theorem skipNested_resumable (depth : Nat) : ResumableSkip (skipNested depth) := by
  intro ts us
  fun_induction skipNested depth ts with
  | case1 => exact .inl rfl
  | case2 depth ts ih => exact ih
  | case3 ts => exact .inr rfl
  | case4 depth ts ih => exact ih
  | case5 depth t ts hl hr1 hr2 ih =>
    rw [List.cons_append, skipNested]
    · exact ih
    · exact hl
    · exact hr1
    · exact hr2

theorem skipBlock_resumable : ResumableSkip skipBlock := by
  intro ts us
  cases ts with
  | nil => exact .inl rfl
  | cons t rest =>
    cases t with
    | lbrace => exact skipNested_resumable 0 rest us
    | _ => exact .inr ⟨_, rfl⟩

theorem skipToBlock_resumable : ResumableSkip skipToBlock := by
  intro ts us
  fun_induction skipToBlock ts with
  | case1 => exact .inl rfl
  | case2 ts => exact .inr rfl
  | case3 t ts ht ih =>
    rw [List.cons_append, skipToBlock]
    · exact ih
    · exact ht

theorem skipToBracket_resumable : ResumableSkip skipToBracket := by
  intro ts us
  fun_induction skipToBracket ts with
  | case1 => exact .inl rfl
  | case2 ts => exact .inr rfl
  | case3 t ts ht ih =>
    rw [List.cons_append, skipToBracket]
    · exact ih
    · exact ht

theorem skipBrackets_resumable : ResumableSkip skipBrackets := by
  intro ts us
  cases ts with
  | nil => exact .inl rfl
  | cons t rest =>
    cases t with
    | lbracket => exact skipToBracket_resumable rest us
    | _ => exact .inr rfl

theorem skipBlock_selfClosed {α : Type} (a : α) :
    SelfClosed fun ts => skipBlock ts >>= fun rest => .ok (a, rest) := by
  intro ts b rest h us
  obtain ⟨r, h1, h2⟩ := bind_eq_ok.1 h
  cases h2
  exact bind_eq_ok.2 ⟨_, (skipBlock_closed h1).2 us, rfl⟩

/-! ## Relationships -/

/-- A sign, and what is read after it. -/
theorem parseSign_bind_resumable {α : Type}
    {k : Parsed RelationSign → Except ParseError (Parsed α)}
    (hk : ∀ sign : RelationSign, Resumable [sign.token] fun rest => k (sign, rest)) :
    Resumable [] fun ts => parseSign ts >>= k := by
  intro ts us
  cases ts with
  | nil => exact .inl (.inl rfl)
  | cons t rest =>
    cases t with
    | gt => exact hk .manyToOne rest us
    | lt => exact hk .oneToMany rest us
    | dash => exact hk .oneToOne rest us
    | ltGt => exact hk .manyToMany rest us
    | _ => exact .inr ⟨_, rfl⟩

theorem parseDottedNames_resumable : Resumable [] parseDottedNames := by
  intro ts us
  fun_induction parseDottedNames ts with
  | case1 rest => exact .inr ⟨_, rfl⟩
  | case2 t rest hparen s hs ih =>
    rw [List.cons_append, List.cons_append, parseDottedNames]
    · rw [hs]
      refine Resumes.of_suffix (ih.map (s :: ·)) ?_
      exact (List.suffix_cons t rest).trans (List.suffix_cons Token.dot _)
    · exact hparen
  | case3 t rest hparen hs =>
    rw [List.cons_append, List.cons_append, parseDottedNames]
    · rw [hs]
      exact .inr ⟨_, rfl⟩
    · exact hparen
  | case4 => exact .inl (.inl rfl)
  | case5 ts hparen hname hend =>
    cases ts with
    | nil => exact .inl rfl
    | cons t rest =>
      have hdot : t ≠ .dot := by
        rintro rfl
        cases rest with
        | nil => exact hend rfl
        | cons u r => exact hname u r rfl
      refine .inr ?_
      rw [List.cons_append, parseDottedNames]
      · exact fun r heq => hdot (List.cons.inj heq).1
      · exact fun u r heq => hdot (List.cons.inj heq).1
      · exact fun heq => hdot (List.cons.inj heq).1

/-- Names that are read to the end of the tokens are the first ones of longer tokens. -/
theorem parseDottedNames_append {ts : List Token} {names : List String}
    (h : parseDottedNames ts = .ok (names, [])) (us : List Token) :
    (∃ e, parseDottedNames (ts ++ us) = .error e) ∨
      ∃ more rest, parseDottedNames (ts ++ us) = .ok (names ++ more, rest) := by
  fun_induction parseDottedNames ts generalizing names with
  | case1 => cases h
  | case2 t ts hparen s hs ih =>
    obtain ⟨⟨names, r⟩, h1, h2⟩ := map_eq_ok.1 h
    cases h2
    rw [List.cons_append, List.cons_append, parseDottedNames_cons hs]
    rcases ih h1 with ⟨e, he⟩ | ⟨more, rest, hmore⟩
    · exact .inl ⟨e, by rw [he]; rfl⟩
    · exact .inr ⟨more, rest, by rw [hmore]; rfl⟩
  | case3 => cases h
  | case4 => cases h
  | case5 =>
    cases h
    rw [List.nil_append]
    cases hus : parseDottedNames us with
    | error e => exact .inl ⟨e, rfl⟩
    | ok p => exact .inr ⟨p.1, p.2, rfl⟩

theorem parseDottedNames_nil {ts : List Token}
    (h : parseDottedNames ts = .ok ([], [])) : ts = [] := by
  obtain ⟨tokens, hnames, rfl⟩ := parseDottedNames_sound h
  cases hnames
  rfl

/-- Tokens that end after the first name of an endpoint dangle: it has two. -/
theorem parseEndpoint_resumable {before : List Token} (hbefore : ExpectsEndpoint before) :
    Resumable before parseEndpoint := by
  intro ts us
  cases ts with
  | nil => exact .inl (.inl rfl)
  | cons t rest =>
    cases ht : t.name? with
    | none => simp [parseEndpoint, parseName, ht, Resumes, bind, Except.bind]
    | some first =>
      simp only [parseEndpoint, List.cons_append, parseName_cons ht]
      refine ((parseDottedNames_resumable rest us).of_suffix
        ((List.suffix_cons t rest).trans (List.suffix_append before _))).bind
        (fun names r _ _ => ?_) fun names hnames => ?_
      · rcases names with _ | ⟨table, _ | ⟨column, _ | ⟨extra, names⟩⟩⟩
        · exact .inr ⟨_, rfl⟩
        · exact .inr rfl
        · exact .inr rfl
        · exact .inr ⟨_, rfl⟩
      · rcases names with _ | ⟨table, _ | ⟨column, _ | ⟨extra, names⟩⟩⟩
        · obtain rfl := parseDottedNames_nil hnames
          exact .inl (.inr ⟨_, rfl, .endpoint ht hbefore⟩)
        · exact .inl rfl
        · exact .inl rfl
        · -- too many names, and no fewer if more follow
          rcases parseDottedNames_append hnames us with ⟨e, he⟩ | ⟨more, r, hmore⟩
          · exact .inr ⟨e, by rw [he]; rfl⟩
          · exact .inr ⟨_, by rw [hmore]; rfl⟩

theorem parseRelationship_resumable {before : List Token} (hbefore : ExpectsEndpoint before)
    (name : Option String) : Resumable before (parseRelationship name) := by
  refine (parseEndpoint_resumable hbefore).bind parseEndpoint_local (fun left => ?_) fun left => rfl
  refine parseSign_bind_resumable fun sign => ?_
  refine (parseEndpoint_resumable (.sign sign [])).bind parseEndpoint_local (fun right => ?_)
    fun right => rfl
  exact skipBrackets_resumable.bind skipBrackets_local (.pure _ _) rfl

theorem parseRelationships_error {name : Option String} {read : List Relationship} {t : Token}
    {ts : List Token} {e : ParseError} (ht : t ≠ .rbrace)
    (h : parseRelationship name (t :: ts) = .error e) :
    parseRelationships name read (t :: ts) = .error e := by
  rw [parseRelationships.eq_def]
  split
  · contradiction
  · rename_i heq
    exact absurd (List.cons.inj heq).1 ht
  · rw [h]

theorem parseRelationships_resumable {head : List Token} {name : Option String}
    (hhead : IsRefHead head name) (ps : List RelationshipPhrase) (read : List Relationship) :
    Resumable (head ++ .lbrace :: relationshipTokens ps) (parseRelationships name read) := by
  intro ts us
  have hone := parseRelationship_resumable (.block hhead ps []) name
  fun_induction parseRelationships name read ts generalizing ps with
  | case1 => exact .inl (.inl rfl)
  | case2 => exact .inr (by rw [List.cons_append, parseRelationships])
  | case3 read ts hnil hbrace e he =>
    have h := hone ts us
    rw [he] at h
    obtain ⟨t, rest, rfl⟩ := List.exists_cons_of_ne_nil hnil
    refine h.of_error fun e' he' => ⟨e', parseRelationships_error ?_ he'⟩
    rintro rfl
    exact hbrace rest rfl
  | case4 read ts hnil hbrace r rest hr ih =>
    have h := hone ts us
    rw [hr] at h
    rcases h with rfl | h
    · rw [parseRelationships]
      exact .inl (.inl rfl)
    · rw [parseRelationships_step h]
      -- what was read is one more relationship before the rest
      obtain ⟨p, rfl, -⟩ := parseRelationship_sound hr
      have hrest := ih (ps ++ [p]) (parseRelationship_resumable (.block hhead _ []) name)
      simpa [relationshipTokens] using hrest

theorem parseRefBody_resumable {head : List Token} {name : Option String}
    (hhead : IsRefHead head name) : Resumable head (parseRefBody name) := by
  intro ts us
  cases ts with
  | nil => exact .inl (.inl rfl)
  | cons t rest =>
    cases t with
    | colon =>
      have h := (parseRelationship_resumable (.one hhead []) name rest us).map fun r => [r]
      simpa [parseRefBody] using h
    | lbrace =>
      have h := parseRelationships_resumable hhead [] [] rest us
      simpa [parseRefBody, relationshipTokens] using h
    | _ => exact .inr ⟨_, rfl⟩

/-- After the word `ref`. -/
theorem parseRefs_resumable {w : String} (hw : Text.lowerAscii w = "ref") :
    Resumable [.ident w] parseRefs := by
  intro ts us
  cases ts with
  | nil => exact .inl (.inl rfl)
  | cons t rest =>
    simp only [List.cons_append, parseRefs]
    split
    · rename_i name ht
      exact parseRefBody_resumable (.named hw ht) rest us
    · exact parseRefBody_resumable (.unnamed hw) (t :: rest) us

end EntityForge.Dbml
