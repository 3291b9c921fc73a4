import EntityForge.Dbml.Parser.Column
import EntityForge.Proofs.Dbml.Locality.Reference

/-!
# Readers of columns are local
-/

namespace EntityForge.Dbml

theorem parseTypeArguments_local : Local parseTypeArguments := by
  intro ts as rest h
  fun_induction parseTypeArguments ts generalizing as with
  | case1 => cases h
  | case2 =>
    cases h
    exact ⟨List.suffix_cons _ _, fun us _ => rfl⟩
  | case3 ts ih =>
    obtain ⟨hr, hru⟩ := ih h
    exact ⟨hr.trans (List.suffix_cons _ _), fun us hus => hru us hus⟩
  | case4 t ts hparen hcomma s hs ih =>
    obtain ⟨⟨more, r⟩, h1, h2⟩ := map_eq_ok.1 h
    cases h2
    obtain ⟨hr, hru⟩ := ih h1
    refine ⟨hr.trans (List.suffix_cons _ _), fun us hus => ?_⟩
    rw [List.cons_append, parseTypeArguments]
    · simp [hs, hru us hus, Except.map]
    · exact hparen
    · exact hcomma
  | case5 => cases h

theorem parseTypeMember_local (name : String) : Local (parseTypeMember name) := by
  intro ts s rest h
  unfold parseTypeMember at h
  split at h
  · exact (parseName_local.map _).cons h
  · rename_i hdot
    cases h
    refine ⟨List.suffix_refl _, fun us hus => ?_⟩
    unfold parseTypeMember
    split
    · rename_i heq
      exact absurd heq (hus.append_ne_cons (by simp) hdot _)
    · rfl

theorem parseTypeCall_local (name : String) : Local (parseTypeCall name) := by
  intro ts s rest h
  unfold parseTypeCall at h
  split at h
  · exact (parseTypeArguments_local.map fun as => name ++ "(" ++ ",".intercalate as ++ ")").cons h
  · rename_i hparen
    cases h
    refine ⟨List.suffix_refl _, fun us hus => ?_⟩
    unfold parseTypeCall
    split
    · rename_i heq
      exact absurd heq (hus.append_ne_cons (by simp) hparen _)
    · rfl

theorem parseTypeArray_local (name : String) :
    Local fun ts => .ok (parseTypeArray name ts) := by
  intro ts s rest h
  simp only [Except.ok.injEq] at h
  unfold parseTypeArray at h
  split at h
  · cases h
    exact ⟨(List.suffix_cons _ _).trans (List.suffix_cons _ _), fun us _ => rfl⟩
  · rename_i hbrackets
    cases h
    refine ⟨List.suffix_refl _, fun us hus => ?_⟩
    simp only [Except.ok.injEq]
    unfold parseTypeArray
    split
    · rename_i r heq
      obtain ⟨r', rfl⟩ := hus.of_append_eq_cons (by simp) heq
      obtain ⟨r'', rfl⟩ := hus.of_append_eq_cons (by simp) (List.cons.inj heq).2
      exact absurd rfl (hbrackets r'')
    · rfl

theorem parseType_local : Local parseType := by
  refine parseName_local.bind fun name => ?_
  refine (parseTypeMember_local name).bind fun name => ?_
  refine (parseTypeCall_local name).bind fun name => ?_
  exact parseTypeArray_local name

theorem parseDefault_local : Local parseDefault := by
  intro ts s rest h
  unfold parseDefault at h
  split at h
  · cases h; exact ⟨List.suffix_cons _ _, fun us _ => rfl⟩
  · cases h; exact ⟨List.suffix_cons _ _, fun us _ => rfl⟩
  · cases h; exact ⟨List.suffix_cons _ _, fun us _ => rfl⟩
  · cases h; exact ⟨List.suffix_cons _ _, fun us _ => rfl⟩
  · cases h
    exact ⟨(List.suffix_cons _ _).trans (List.suffix_cons _ _), fun us _ => rfl⟩
  · cases h
  · cases h

theorem skipSetting_local : LocalSkip skipSetting := by
  intro ts rest h
  fun_induction skipSetting ts with
  | case1 => cases h
  | case2 ts =>
    cases h
    exact ⟨List.suffix_refl _, fun us _ => rfl⟩
  | case3 ts =>
    cases h
    exact ⟨List.suffix_refl _, fun us _ => rfl⟩
  | case4 t ts hcomma hbracket ih =>
    obtain ⟨hr, hru⟩ := ih h
    refine ⟨hr.trans (List.suffix_cons _ _), fun us hus => ?_⟩
    rw [List.cons_append, skipSetting]
    · exact hru us hus
    · exact hcomma
    · exact hbracket

theorem tail_append_of_startsWithWord {word : String} {ts : List Token}
    (h : startsWithWord word ts = true) (us : List Token) : (ts ++ us).tail = ts.tail ++ us := by
  cases ts with
  | nil => cases h
  | cons t r => rfl

theorem parseSetting_local (keyword : String) : Local (parseSetting keyword) := by
  intro ts i rest h
  unfold parseSetting at h ⊢
  split at h
  · cases h; exact ⟨List.suffix_refl _, fun us _ => rfl⟩
  · -- the optional word `key` after `primary`
    cases h
    refine ⟨?_, fun us hus => ?_⟩
    · split
      · exact List.tail_suffix _
      · exact List.suffix_refl _
    · rw [hus.startsWithWord_append (by decide)]
      split
      · rename_i hk
        rw [tail_append_of_startsWithWord hk]
      · rfl
  · cases h; exact ⟨List.suffix_refl _, fun us _ => rfl⟩
  · cases h; exact ⟨List.suffix_refl _, fun us _ => rfl⟩
  · cases h; exact ⟨List.suffix_refl _, fun us _ => rfl⟩
  · split at h
    · rename_i hn
      cases h
      refine ⟨List.tail_suffix _, fun us hus => ?_⟩
      have hn' : startsWithWord "null" (ts ++ us) = true := by
        rw [hus.startsWithWord_append (by decide), hn]
      simp only [hn', ↓reduceIte, tail_append_of_startsWithWord hn]
    · cases h
  · refine (expectToken_local _ _).bind ?_ h
    exact parseDefault_local.bind fun value => .pure (ColumnItem.setting (.defaultValue value))
  · obtain ⟨r1, h1, h2⟩ := bind_eq_ok.1 h
    obtain ⟨hr1, hu1⟩ := expectToken_local _ _ h1
    split at h2
    · cases h2
      exact ⟨(List.suffix_cons _ _).trans hr1, fun us hus => bind_eq_ok.2 ⟨_, hu1 us hus, rfl⟩⟩
    · cases h2
  · refine (expectToken_local _ _).bind ?_ h
    exact parseSign_local.bind fun sign =>
      parseEndpoint_local.bind fun other => .pure (ColumnItem.ref ⟨sign, other⟩)
  · exact skipSetting_local.bind (.pure _) h

theorem parseColumnItem_local : Local parseColumnItem := by
  intro ts i rest h
  unfold parseColumnItem at h
  split at h
  · exact (parseSetting_local _).cons h
  · cases h

theorem parseColumnItems_local (read : List ColumnItem) : Local (parseColumnItems read) := by
  intro ts is rest h
  fun_induction parseColumnItems read ts with
  | case1 => cases h
  | case2 read ts i r hi ih =>
    obtain ⟨hr1, hu1⟩ := parseColumnItem_local hi
    obtain ⟨hr2, hu2⟩ := ih h
    refine ⟨hr2.trans ((List.suffix_cons _ _).trans hr1), fun us hus => ?_⟩
    rw [parseColumnItems.eq_def, hu1 us hus]
    exact hu2 us hus
  | case3 read ts i r hi =>
    obtain ⟨hr1, hu1⟩ := parseColumnItem_local hi
    cases h
    refine ⟨(List.suffix_cons _ _).trans hr1, fun us hus => ?_⟩
    rw [parseColumnItems.eq_def, hu1 us hus]
    rfl
  | case4 => cases h

theorem parseColumnSettings_local : Local parseColumnSettings := by
  intro ts is rest h
  unfold parseColumnSettings at h
  split at h
  · exact (parseColumnItems_local []).cons h
  · rename_i hb
    cases h
    refine ⟨List.suffix_refl _, fun us hus => ?_⟩
    unfold parseColumnSettings
    split
    · rename_i heq
      exact absurd heq (hus.append_ne_cons (by simp) hb _)
    · rfl

theorem parseColumn_local : Local parseColumn := by
  refine parseName_local.bind fun name => ?_
  refine parseType_local.bind fun type => ?_
  refine parseColumnSettings_local.bind fun items => ?_
  exact .pure _

end EntityForge.Dbml
