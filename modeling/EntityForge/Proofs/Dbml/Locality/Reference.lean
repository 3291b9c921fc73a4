import EntityForge.Dbml.Parser.Reference
import EntityForge.Proofs.Dbml.Locality.Basic

/-!
# Readers of relationships are local
-/

namespace EntityForge.Dbml

theorem parseSign_local : Local parseSign := by
  intro ts sign rest h
  unfold parseSign at h
  split at h <;> first | cases h; exact ⟨List.suffix_cons _ _, fun us _ => rfl⟩ | cases h

theorem parseDottedNames_local : Local parseDottedNames := by
  intro ts names rest h
  fun_induction parseDottedNames ts generalizing names with
  | case1 => cases h
  | case2 t ts hparen s hs ih =>
    obtain ⟨⟨more, r⟩, h1, h2⟩ := map_eq_ok.1 h
    cases h2
    obtain ⟨hr, hru⟩ := ih h1
    refine ⟨hr.trans ((List.suffix_cons _ _).trans (List.suffix_cons _ _)), fun us hus => ?_⟩
    rw [List.cons_append, List.cons_append, parseDottedNames]
    · simp [hs, hru us hus, Except.map]
    · exact hparen
  | case3 => cases h
  | case4 => cases h
  | case5 ts hparen hname hend =>
    cases h
    refine ⟨List.suffix_refl _, fun us hus => ?_⟩
    -- the shorter input does not start with a dot, so neither does the longer one
    have hdot : ∀ r, rest ++ us ≠ .dot :: r := by
      intro r heq
      obtain ⟨r', rfl⟩ := hus.of_append_eq_cons (by simp) heq
      cases r' with
      | nil => exact hend rfl
      | cons t r' => exact hname t r' rfl
    rw [parseDottedNames]
    · exact fun r heq => hdot _ heq
    · exact fun t r heq => hdot _ heq
    · exact fun heq => hdot _ heq

theorem parseEndpoint_local : Local parseEndpoint := by
  refine parseName_local.bind fun first => ?_
  refine parseDottedNames_local.bind fun more => ?_
  match more with
  | [column] => exact .pure _
  | [table, column] => exact .pure _
  | [] => exact .error _
  | _ :: _ :: _ :: _ => exact .error _

theorem parseRelationship_local (name : Option String) : Local (parseRelationship name) := by
  refine parseEndpoint_local.bind fun left => ?_
  refine parseSign_local.bind fun sign => ?_
  refine parseEndpoint_local.bind fun right => ?_
  exact skipBrackets_local.bind (.pure _)

theorem parseRelationships_step {name : Option String} {read : List Relationship}
    {ts rest : List Token} {r : Relationship} (h : parseRelationship name ts = .ok (r, rest)) :
    parseRelationships name read ts = parseRelationships name (r :: read) rest := by
  rw [parseRelationships.eq_def]
  split
  · cases h
  · cases h
  · rw [h]

theorem parseRelationships_local (name : Option String) (read : List Relationship) :
    Local (parseRelationships name read) := by
  intro ts rs rest h
  fun_induction parseRelationships name read ts with
  | case1 => cases h
  | case2 =>
    cases h
    exact ⟨List.suffix_cons _ _, fun us _ => by rw [List.cons_append, parseRelationships]⟩
  | case3 => cases h
  | case4 read ts _ _ r rest' hr ih =>
    obtain ⟨hr1, hu1⟩ := parseRelationship_local name hr
    obtain ⟨hr2, hu2⟩ := ih h
    exact ⟨hr2.trans hr1, fun us hus => (parseRelationships_step (hu1 us hus)).trans (hu2 us hus)⟩

theorem parseRefBody_local (name : Option String) : Local (parseRefBody name) := by
  intro ts rs rest h
  unfold parseRefBody at h
  split at h
  · exact ((parseRelationship_local name).map fun r => [r]).cons h
  · exact (parseRelationships_local name []).cons h
  · cases h

theorem parseRefs_local : Local parseRefs := by
  intro ts rs rest h
  cases ts with
  | nil => cases h
  | cons t ts =>
    simp only [parseRefs] at h
    split at h
    · rename_i name hname
      obtain ⟨hr, hru⟩ := parseRefBody_local (some name) h
      refine ⟨hr.trans (List.suffix_cons _ _), fun us hus => ?_⟩
      simpa [parseRefs, hname] using hru us hus
    · rename_i hname
      obtain ⟨hr, hru⟩ := parseRefBody_local none h
      exact ⟨hr, fun us hus => by simpa [parseRefs, hname] using hru us hus⟩

end EntityForge.Dbml
