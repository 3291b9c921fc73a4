import EntityForge.Proofs.Dbml.Locality.Document
import EntityForge.Proofs.Dbml.Truncation.Table
import EntityForge.Proofs.Dbml.Written

/-!
# Documents that stop

A document that is accepted may be cut after any of its tokens: what is left is accepted, or it is
refused for its end (`parse_truncated`). In four places the end is reported as something not
expected: after `not`, after the colon of a note, after the sign of a default value and after the
first name of an endpoint (`Dangling`).
-/

namespace EntityForge.Dbml

/-! ## Declarations -/

theorem parseEnum_resumable : Resumable [] parseEnum := by
  refine parseQualifiedName_resumable.bind parseQualifiedName_local (fun name => ?_) fun name => rfl
  exact skipBlock_resumable.bind skipBlock_local (.pure _ _) rfl

theorem parseProject_resumable : Resumable [] parseProject := by
  refine parseName_resumable.bind parseName_local (fun name => ?_) fun name => rfl
  exact skipBlock_resumable.bind skipBlock_local (.pure _ _) rfl

theorem skipGroup_resumable : Resumable [] skipGroup := by
  refine skipToBlock_resumable.bind skipToBlock_local ?_ rfl
  exact skipBlock_resumable.bind skipBlock_local (.pure _ _) rfl

theorem parseEnum_selfClosed : SelfClosed parseEnum :=
  parseQualifiedName_resumable.bind_selfClosed (fun _ => skipBlock_selfClosed _) fun _ _ => nofun

theorem parseProject_selfClosed : SelfClosed parseProject :=
  parseName_resumable.bind_selfClosed (fun _ => skipBlock_selfClosed _) fun _ _ => nofun

theorem skipGroup_selfClosed : SelfClosed skipGroup :=
  skipToBlock_resumable.bind_selfClosed (skipBlock_selfClosed _) fun _ => nofun

theorem parseDeclaration_resumes (t : Token) (ts us : List Token) :
    Resumes (t :: ts) us (parseDeclaration (t :: ts)) (parseDeclaration (t :: (ts ++ us))) := by
  cases t with
  | ident s =>
    simp only [parseDeclaration]
    generalize hk : Text.lowerAscii s = keyword
    unfold parseDeclarationOf
    split
    · exact ((parseTable_resumable ts us).map fun d => Declaration.table d.table d.refs).of_suffix
        (List.suffix_cons (Token.ident s) ts)
    · exact (parseRefs_resumable hk ts us).map Declaration.refs
    · exact (parseEnum_resumable ts us).of_suffix (List.suffix_cons (Token.ident s) ts)
    · exact (parseProject_resumable ts us).of_suffix (List.suffix_cons (Token.ident s) ts)
    · exact (parseNote_resumable hk ts us).map fun _ => Declaration.remark
    · exact (skipGroup_resumable ts us).of_suffix (List.suffix_cons (Token.ident s) ts)
    · exact (skipGroup_resumable ts us).of_suffix (List.suffix_cons (Token.ident s) ts)
    · exact .inr ⟨_, rfl⟩
  | _ => exact .inr ⟨_, rfl⟩

/-- A declaration that is not of relationships takes no more. -/
theorem parseDeclaration_closed {ts rest : List Token} {d : Declaration}
    (h : parseDeclaration ts = .ok (d, rest)) (us : List Token) :
    parseDeclaration (ts ++ us) = .ok (d, rest ++ us) ∨ ∃ rs, d = .refs rs := by
  unfold parseDeclaration at h
  split at h
  case h_2 => cases h
  rename_i s r
  rw [List.cons_append, parseDeclaration]
  unfold parseDeclarationOf at h ⊢
  split at h
  · exact .inl (parseTable_selfClosed.map (fun d => Declaration.table d.table d.refs) h us)
  · obtain ⟨⟨rs, _⟩, -, heq⟩ := map_eq_ok.1 h
    cases heq
    exact .inr ⟨rs, rfl⟩
  · exact .inl (parseEnum_selfClosed h us)
  · exact .inl (parseProject_selfClosed h us)
  · exact .inl (parseNote_selfClosed.map (fun _ => Declaration.remark) h us)
  · exact .inl (skipGroup_selfClosed h us)
  · exact .inl (skipGroup_selfClosed h us)
  · cases h

/-- Only a table of a name that is taken is refused. -/
theorem declare_eq_error {db : Database} {d : Declaration} {e : ParseError}
    (h : db.declare d = .error e) : ∃ t refs, d = .table t refs := by
  cases d with
  | table t refs => exact ⟨t, refs, rfl⟩
  | _ => cases h

/-! ## Documents -/

/-- What is left of an accepted document is accepted, or refused for its end. -/
theorem parseDeclarations_truncated {db db' : Database} {ts us : List Token}
    (h : parseDeclarations db (ts ++ us) = .ok db') :
    (∃ d, parseDeclarations db ts = .ok d) ∨
      ∃ e, parseDeclarations db ts = .error e ∧ EndsEarly ts e := by
  fun_induction parseDeclarations db ts with
  | case1 db => exact .inl ⟨db, rfl⟩
  | case2 db ts hnil e he =>
    obtain ⟨t, r, rfl⟩ := List.exists_cons_of_ne_nil hnil
    have hd := parseDeclaration_resumes t r us
    rw [he] at hd
    rcases hd with hends | ⟨e', he'⟩
    · exact .inr ⟨e, rfl, hends⟩
    · rw [List.cons_append, parseDeclarations_cons, he'] at h
      cases h
  | case3 db ts hnil d rest hd e hdeclare =>
    -- a table of a name that is taken, whatever follows
    obtain ⟨t, refs, rfl⟩ := declare_eq_error hdeclare
    obtain ⟨u, r, rfl⟩ := List.exists_cons_of_ne_nil hnil
    have hlong := (parseDeclaration_closed hd us).resolve_right (by simp)
    rw [List.cons_append] at h hlong
    rw [parseDeclarations_cons, hlong] at h
    simp only [bind, Except.bind, hdeclare] at h
    cases h
  | case4 db ts hnil d rest hd db'' hdeclare ih =>
    obtain ⟨t, r, rfl⟩ := List.exists_cons_of_ne_nil hnil
    have hresumes := parseDeclaration_resumes t r us
    rw [hd] at hresumes
    rcases hresumes with rfl | hlong
    · rw [parseDeclarations]
      exact .inl ⟨_, rfl⟩
    · rw [List.cons_append, parseDeclarations_cons, hlong] at h
      simp only [bind, Except.bind, hdeclare] at h
      rcases ih h with hok | ⟨e, he, hends⟩
      · exact .inl hok
      · exact .inr ⟨e, he, hends.of_suffix (parseDeclaration_local hd).1⟩

/-- The first tokens of an accepted document are those of a document, and every such document is
accepted or refused as one that ends too soon. The error names the end of the input in place of a
token only where the tokens dangle, and it never names a token. -/
theorem parse_truncated {input : String} {db : Database} {ts us : List Token}
    (h : parse input = .ok db) (hts : tokenize input = .ok ts) (hus : us <+: ts) :
    (∃ cut, tokenize cut = .ok us) ∧
      ∀ cut, tokenize cut = .ok us → (∃ d, parse cut = .ok d) ∨
        parse cut = .error .unexpectedEnd ∨
        ∃ what, parse cut = .error (.unexpected none what) ∧ Dangling what us := by
  obtain ⟨rest, rfl⟩ := hus
  have hwritable := (List.forall_mem_append.1 (tokenize_isWritable hts)).1
  refine ⟨⟨_, tokenize_writeTokens hwritable⟩, fun cut hcut => ?_⟩
  rw [parse, hts] at h
  rw [parse, hcut]
  rcases parseDeclarations_truncated h with hok | ⟨e, he, rfl | ⟨what, rfl, hdangling⟩⟩
  · exact .inl hok
  · exact .inr (.inl he)
  · exact .inr (.inr ⟨what, he, hdangling⟩)

/-- A column cut after its type. -/
theorem parse_truncated_column :
    (∃ d, parse "Table t \x7b id int" = .ok d) ∨
      parse "Table t \x7b id int" = .error .unexpectedEnd ∨
      ∃ what, parse "Table t \x7b id int" = .error (.unexpected none what) ∧
        Dangling what [.ident "Table", .ident "t", .lbrace, .ident "id", .ident "int"] := by
  have haccepted : parse "Table t \x7b id int [pk] \x7d" = .ok {
      schemas := [⟨"public",
        [⟨"public", "t", none, [⟨"id", "int", [.primaryKey]⟩], none⟩]⟩] } := by
    decide +kernel
  have htokens : tokenize "Table t \x7b id int [pk] \x7d" = .ok [.ident "Table", .ident "t",
      .lbrace, .ident "id", .ident "int", .lbracket, .ident "pk", .rbracket, .rbrace] := by
    decide +kernel
  exact (parse_truncated haccepted htokens ⟨_, rfl⟩).2 _ (by decide +kernel)

/-- Cut after `not`, the document is refused for what was expected in place of its end. -/
theorem parse_cut_after_not : ∃ db ts us,
    parse "Table t \x7b id int [not null] \x7d" = .ok db ∧
      tokenize "Table t \x7b id int [not null] \x7d" = .ok ts ∧ us <+: ts ∧ us ≠ ts ∧
      tokenize "Table t \x7b id int [not" = .ok us ∧
      parse "Table t \x7b id int [not" = .error (.unexpected none .nullKeyword) := by
  refine ⟨{ schemas := [⟨"public",
      [⟨"public", "t", none, [⟨"id", "int", [.notNull]⟩], none⟩]⟩] },
    [.ident "Table", .ident "t", .lbrace, .ident "id", .ident "int", .lbracket, .ident "not",
      .ident "null", .rbracket, .rbrace],
    [.ident "Table", .ident "t", .lbrace, .ident "id", .ident "int", .lbracket, .ident "not"], ?_⟩
  decide +kernel

end EntityForge.Dbml
