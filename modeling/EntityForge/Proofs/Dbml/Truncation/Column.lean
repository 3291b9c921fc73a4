import EntityForge.Proofs.Dbml.Locality.Column
import EntityForge.Proofs.Dbml.Truncation.Basic

/-!
# Columns whose tokens stop

Readers of columns resume (`parseColumn_resumable`). A type alone does not: an opening bracket at the
end may be that of an array or of settings (`parseType_resumes`), but settings that stop there end
too soon.
-/

namespace EntityForge.Dbml

/-! ## Types -/

theorem parseTypeArguments_resumable : Resumable [] parseTypeArguments := by
  intro ts us
  fun_induction parseTypeArguments ts with
  | case1 => exact .inl (.inl rfl)
  | case2 => exact .inr rfl
  | case3 ts ih => exact ih.of_suffix (List.suffix_cons Token.comma ts)
  | case4 t ts hparen hcomma s hs ih =>
    rw [List.cons_append, parseTypeArguments]
    · rw [hs]
      exact (ih.map (s :: ·)).of_suffix (List.suffix_cons t ts)
    · exact hparen
    · exact hcomma
  | case5 t ts hparen hcomma hs =>
    rw [List.cons_append, parseTypeArguments]
    · rw [hs]
      exact .inr ⟨_, rfl⟩
    · exact hparen
    · exact hcomma

theorem parseTypeMember_resumable (name : String) : Resumable [] (parseTypeMember name) := by
  intro ts us
  cases ts with
  | nil => exact .inl rfl
  | cons t rest =>
    cases t with
    | dot =>
      exact ((parseName_resumable rest us).map (name ++ "." ++ ·)).of_suffix
        (List.suffix_cons Token.dot rest)
    | _ => exact .inr rfl

theorem parseTypeCall_resumable (name : String) : Resumable [] (parseTypeCall name) := by
  intro ts us
  cases ts with
  | nil => exact .inl rfl
  | cons t rest =>
    cases t with
    | lparen =>
      exact ((parseTypeArguments_resumable rest us).map fun as =>
        name ++ "(" ++ ",".intercalate as ++ ")").of_suffix (List.suffix_cons Token.lparen rest)
    | _ => exact .inr rfl

theorem parseTypeArray_resumes (name : String) {ts : List Token} (h : ts ≠ [.lbracket])
    (seen us : List Token) :
    Resumes seen us (.ok (parseTypeArray name ts)) (.ok (parseTypeArray name (ts ++ us))) := by
  match ts with
  | [] => exact .inl rfl
  | [t] => cases t <;> first | exact absurd rfl h | exact .inr rfl
  | t :: u :: rest =>
    cases t <;> first | exact .inr rfl | skip
    cases u <;> exact .inr rfl

/-- A type resumes, unless the tokens end in a bracket after it. -/
theorem parseType_resumes (ts us : List Token) :
    Resumes ts us (parseType ts) (parseType (ts ++ us)) ∨
      ∃ s, parseType ts = .ok (s, [.lbracket]) := by
  by_cases hbracket : ∃ s, parseType ts = .ok (s, [.lbracket])
  · exact .inr hbracket
  refine .inl ((parseName_resumable ts us).bind (fun name r1 h1 _ => ?_) fun name _ => .inl rfl)
  have hr1 := (parseName_local h1).1
  refine ((parseTypeMember_resumable name r1 us).of_suffix hr1).bind (fun name r2 h2 _ => ?_)
    fun name _ => .inl rfl
  have hr2 := (parseTypeMember_local _ h2).1.trans hr1
  refine ((parseTypeCall_resumable name r2 us).of_suffix hr2).bind (fun name r3 h3 _ => ?_)
    fun name _ => .inl rfl
  refine parseTypeArray_resumes name ?_ _ _
  rintro rfl
  refine hbracket ⟨name, ?_⟩
  simp only [parseType, bind_eq_ok]
  exact ⟨_, h1, _, h2, _, h3, rfl⟩

/-! ## Settings -/

theorem skipSetting_resumable : ResumableSkip skipSetting := by
  intro ts us
  fun_induction skipSetting ts with
  | case1 => exact .inl rfl
  | case2 ts => exact .inr rfl
  | case3 ts => exact .inr rfl
  | case4 t ts hcomma hbracket ih =>
    rw [List.cons_append, skipSetting]
    · exact ih
    · exact hcomma
    · exact hbracket

/-- After the word `default`. -/
theorem parseDefault_resumable {s : String} (hs : Text.lowerAscii s = "default") :
    Resumable [.ident s, .colon] parseDefault := by
  intro ts us
  match ts with
  | [] => exact .inl (.inl rfl)
  | [t] =>
    cases t with
    | dash => exact .inl (.inr ⟨_, rfl, .number hs []⟩)
    | _ => first | exact .inl rfl | exact .inr ⟨_, rfl⟩
  | t :: u :: rest =>
    cases t with
    | dash => cases u <;> first | exact .inr rfl | exact .inr ⟨_, rfl⟩
    | _ => first | exact .inr rfl | exact .inr ⟨_, rfl⟩

theorem startsWithWord_cons_append (word : String) (t : Token) (ts us : List Token) :
    startsWithWord word (t :: (ts ++ us)) = startsWithWord word (t :: ts) := by
  cases t <;> rfl

/-- The sign and the endpoint of a reference. -/
theorem parseSign_endpoint_resumable :
    Resumable [] fun ts => parseSign ts >>= fun (sign, rest) =>
      parseEndpoint rest >>= fun (other, rest) =>
        (.ok (.ref ⟨sign, other⟩, rest) : Except ParseError (Parsed ColumnItem)) :=
  parseSign_bind_resumable fun sign => (parseEndpoint_resumable (.sign sign [])).bind
    parseEndpoint_local (fun _ => .pure _ _) fun _ => rfl

theorem parseSetting_resumable (s : String) :
    Resumable [.ident s] (parseSetting (Text.lowerAscii s)) := by
  generalize hk : Text.lowerAscii s = keyword
  intro ts us
  unfold parseSetting
  split
  · exact .inr rfl
  · cases ts with
    | nil => exact .inl rfl
    | cons t rest =>
      simp only [List.cons_append, startsWithWord_cons_append]
      split
      · exact .inr rfl
      · exact .inr rfl
  · exact .inr rfl
  · exact .inr rfl
  · exact .inr rfl
  · cases ts with
    | nil => exact .inl (.inr ⟨_, rfl, .nullKeyword hk []⟩)
    | cons t rest =>
      simp only [List.cons_append, startsWithWord_cons_append]
      split
      · exact .inr rfl
      · exact .inr ⟨_, rfl⟩
  · cases ts with
    | nil => exact .inl (.inl rfl)
    | cons t rest =>
      by_cases ht : t = .colon
      · subst ht
        exact (parseDefault_resumable hk rest us).bind (fun value r _ _ => .inr rfl)
          fun value _ => .inl rfl
      · simp [expectToken, ht, bind, Except.bind, Resumes]
  · rcases ts with _ | ⟨t, _ | ⟨u, rest⟩⟩
    · exact .inl (.inl rfl)
    · by_cases ht : t = .colon
      · subst ht
        exact .inl (.inr ⟨_, rfl, .noteText hk []⟩)
      · simp [expectToken, ht, bind, Except.bind, Resumes]
    · by_cases ht : t = .colon
      · subst ht
        cases u <;> first | exact .inr rfl | exact .inr ⟨_, rfl⟩
      · simp [expectToken, ht, bind, Except.bind, Resumes]
  · exact ((expectToken_resumable _ _).bind (expectToken_local _ _)
      parseSign_endpoint_resumable rfl).of_nil _ ts us
  · exact (skipSetting_resumable.bind skipSetting_local (.pure _ _) rfl).of_nil _ ts us

theorem parseColumnItem_resumable : Resumable [] parseColumnItem := by
  intro ts us
  cases ts with
  | nil => exact .inl (.inl rfl)
  | cons t rest =>
    cases t with
    | ident s => exact parseSetting_resumable s rest us
    | _ => exact .inr ⟨_, rfl⟩

theorem parseColumnItems_resumable (read : List ColumnItem) :
    Resumable [] (parseColumnItems read) := by
  intro ts us
  have h := parseColumnItem_resumable ts us
  fun_induction parseColumnItems read ts with
  | case1 read ts e he =>
    rw [he] at h
    refine h.of_error fun e' he' => ⟨e', ?_⟩
    rw [parseColumnItems.eq_def, he']
  | case2 read ts i rest hi ih =>
    rw [hi] at h
    rcases h with h | h
    · cases h
    · rw [parseColumnItems.eq_def read (ts ++ us), h]
      refine (ih (parseColumnItem_resumable rest us)).of_suffix ?_
      exact (List.suffix_cons Token.comma rest).trans (parseColumnItem_local hi).1
  | case3 read ts i rest hi =>
    rw [hi] at h
    rcases h with h | h
    · cases h
    · rw [parseColumnItems.eq_def, h]
      exact .inr rfl
  | case4 read ts i rest hcomma hbracket hi =>
    rw [hi] at h
    cases rest with
    | nil => exact .inl (.inl rfl)
    | cons t rest =>
      rcases h with h | h
      · cases h
      · rw [parseColumnItems.eq_def, h]
        cases t with
        | comma => exact absurd rfl (hcomma rest)
        | rbracket => exact absurd rfl (hbracket rest)
        | _ => exact .inr ⟨_, rfl⟩

theorem parseColumnSettings_resumable : Resumable [] parseColumnSettings := by
  intro ts us
  cases ts with
  | nil => exact .inl rfl
  | cons t rest =>
    cases t with
    | lbracket =>
      exact (parseColumnItems_resumable [] rest us).of_suffix (List.suffix_cons Token.lbracket rest)
    | _ => exact .inr rfl

theorem parseColumnSettings_lbracket :
    parseColumnSettings [.lbracket] = .error .unexpectedEnd := by
  rw [parseColumnSettings, parseColumnItems.eq_def]
  rfl

theorem parseColumn_resumable : Resumable [] parseColumn := by
  refine parseName_resumable.bind parseName_local (fun name => ?_) fun name => rfl
  intro ts us
  rcases parseType_resumes ts us with h | ⟨type, h⟩
  · refine h.bind (fun type rest htype _ => ?_) fun type _ => .inl rfl
    refine ((parseColumnSettings_resumable rest us).of_suffix (parseType_local htype).1).bind
      (fun items r _ _ => .inr rfl) fun items _ => .inl rfl
  · -- the bracket is taken for one that opens settings, and there are none
    simp only [h, bind, Except.bind, parseColumnSettings_lbracket]
    exact .inl (.inl rfl)

/-- The first token of a column is its name. -/
theorem parseColumn_name {ts rest : List Token} {c : Column} {refs : List InlineRef}
    (h : parseColumn ts = .ok ((c, refs), rest)) :
    ∃ t r, ts = t :: r ∧ t.name? = some c.name := by
  simp only [parseColumn, bind_eq_ok] at h
  obtain ⟨⟨name, r1⟩, h1, _, -, _, -, h4⟩ := h
  cases h4
  cases ts with
  | nil => cases h1
  | cons t r =>
    refine ⟨t, r, rfl, ?_⟩
    cases ht : t.name? with
    | none => simp [parseName, ht] at h1
    | some s => simp_all [parseName]

end EntityForge.Dbml
