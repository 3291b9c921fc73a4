import EntityForge.Dbml.Parser.Document
import EntityForge.Proofs.Dbml.Locality.Table

/-!
# Documents are lists of declarations

Readers of declarations are local (`parseDeclaration_local`), so a document is a list of
declarations whatever database they are added to. `Reads ts ds` says that the tokens are the
declarations `ds`: `parse_eq_ok` states parsing through it, and `Reads.append` joins two documents.
-/

namespace EntityForge.Dbml

/-! ## Declarations -/

theorem parseEnum_local : Local parseEnum := by
  refine parseQualifiedName_local.bind fun name => ?_
  exact skipBlock_local.bind (.pure _)

theorem parseProject_local : Local parseProject := by
  refine parseName_local.bind fun name => ?_
  exact skipBlock_local.bind (.pure _)

theorem skipGroup_local : Local skipGroup := by
  refine skipToBlock_local.bind ?_
  exact skipBlock_local.bind (.pure _)

theorem parseDeclaration_local : Local parseDeclaration := by
  intro ts d rest h
  unfold parseDeclaration at h
  split at h
  · rename_i s r
    suffices hs : rest <:+ r ∧ ∀ us, Opening us →
        parseDeclarationOf (Text.lowerAscii s) (.ident s :: (r ++ us)) (r ++ us) =
          .ok (d, rest ++ us) from
      ⟨hs.1.trans (List.suffix_cons _ _), fun us hus => hs.2 us hus⟩
    unfold parseDeclarationOf at h ⊢
    split at h
    · exact parseTable_local.map (fun d => Declaration.table d.table d.refs) h
    · exact parseRefs_local.map Declaration.refs h
    · exact parseEnum_local h
    · exact parseProject_local h
    · exact parseNote_closed.local.map (fun _ => Declaration.remark) h
    · exact skipGroup_local h
    · exact skipGroup_local h
    · cases h
  · cases h

theorem parseDeclaration_opening {ts rest : List Token} {d : Declaration}
    (h : parseDeclaration ts = .ok (d, rest)) : Opening ts := by
  unfold parseDeclaration at h
  split at h
  · rename_i s r
    refine .inr ⟨s, r, rfl, ?_⟩
    unfold parseDeclarationOf at h
    split at h <;> simp_all [declarationWords]
  · cases h

/-- What a declaration that is read can be. -/
theorem parseDeclaration_cases {ts rest : List Token} {d : Declaration}
    (h : parseDeclaration ts = .ok (d, rest)) :
    ∃ s r, ts = .ident s :: r ∧
      ((Text.lowerAscii s = "table" ∧
          ∃ t refs, d = .table t refs ∧ parseTable r = .ok (⟨t, refs⟩, rest)) ∨
        (Text.lowerAscii s = "ref" ∧ ∃ rs, d = .refs rs ∧ parseRefs r = .ok (rs, rest)) ∨
        (∃ name, d = .enum name) ∨ (∃ name, d = .project name) ∨ d = .remark) := by
  unfold parseDeclaration at h
  split at h
  case h_2 => cases h
  rename_i s r
  refine ⟨s, r, rfl, ?_⟩
  unfold parseDeclarationOf at h
  split at h
  · rename_i hs
    obtain ⟨⟨d, r'⟩, h1, h2⟩ := map_eq_ok.1 h
    cases h2
    exact .inl ⟨hs, _, _, rfl, h1⟩
  · rename_i hs
    obtain ⟨⟨rs, r'⟩, h1, h2⟩ := map_eq_ok.1 h
    cases h2
    exact .inr (.inl ⟨hs, _, rfl, h1⟩)
  · simp only [parseEnum, bind_eq_ok] at h
    obtain ⟨_, -, _, -, h3⟩ := h
    cases h3
    exact .inr (.inr (.inl ⟨_, rfl⟩))
  · simp only [parseProject, bind_eq_ok] at h
    obtain ⟨_, -, _, -, h3⟩ := h
    cases h3
    exact .inr (.inr (.inr (.inl ⟨_, rfl⟩)))
  · obtain ⟨_, -, h2⟩ := map_eq_ok.1 h
    cases h2
    exact .inr (.inr (.inr (.inr rfl)))
  · simp only [skipGroup, bind_eq_ok] at h
    obtain ⟨_, -, _, -, h3⟩ := h
    cases h3
    exact .inr (.inr (.inr (.inr rfl)))
  · simp only [skipGroup, bind_eq_ok] at h
    obtain ⟨_, -, _, -, h3⟩ := h
    cases h3
    exact .inr (.inr (.inr (.inr rfl)))
  · cases h

theorem parseDeclaration_eq_table {ts rest : List Token} {t : Table} {refs : List Relationship} :
    parseDeclaration ts = .ok (.table t refs, rest) ↔
      ∃ s r, ts = .ident s :: r ∧ Text.lowerAscii s = "table" ∧
        parseTable r = .ok (⟨t, refs⟩, rest) := by
  constructor
  · intro h
    obtain ⟨s, r, rfl, ⟨hs, t', refs', heq, h⟩ | ⟨-, _, heq, -⟩ | ⟨_, heq⟩ | ⟨_, heq⟩ | heq⟩ :=
      parseDeclaration_cases h
    all_goals cases heq
    exact ⟨s, r, rfl, hs, h⟩
  · rintro ⟨s, r, rfl, hs, h⟩
    rw [parseDeclaration, hs]
    exact map_eq_ok.2 ⟨_, h, rfl⟩

theorem parseDeclaration_eq_refs {ts rest : List Token} {rs : List Relationship} :
    parseDeclaration ts = .ok (.refs rs, rest) ↔
      ∃ s r, ts = .ident s :: r ∧ Text.lowerAscii s = "ref" ∧ parseRefs r = .ok (rs, rest) := by
  constructor
  · intro h
    obtain ⟨s, r, rfl, ⟨-, _, _, heq, -⟩ | ⟨hs, rs', heq, h⟩ | ⟨_, heq⟩ | ⟨_, heq⟩ | heq⟩ :=
      parseDeclaration_cases h
    all_goals cases heq
    exact ⟨s, r, rfl, hs, h⟩
  · rintro ⟨s, r, rfl, hs, h⟩
    rw [parseDeclaration, hs]
    exact map_eq_ok.2 ⟨_, h, rfl⟩

/-! ## Documents -/

/-- The tokens are the declarations `ds`. -/
inductive Reads : List Token → List Declaration → Prop
  | nil : Reads [] []
  | cons {ts rest : List Token} {d : Declaration} {ds : List Declaration} :
      parseDeclaration ts = .ok (d, rest) → Reads rest ds → Reads ts (d :: ds)

theorem Reads.opening {ts : List Token} {ds : List Declaration} (h : Reads ts ds) : Opening ts := by
  cases h with
  | nil => exact .inl rfl
  | cons hd _ => exact parseDeclaration_opening hd

theorem Reads.append {ts us : List Token} {ds es : List Declaration} (h : Reads ts ds)
    (hus : Reads us es) : Reads (ts ++ us) (ds ++ es) := by
  induction h with
  | nil => exact hus
  | cons hd _ ih => exact .cons ((parseDeclaration_local hd).2 us hus.opening) ih

theorem parseDeclarations_cons (db : Database) (t : Token) (ts : List Token) :
    parseDeclarations db (t :: ts) = parseDeclaration (t :: ts) >>= fun (d, rest) =>
      db.declare d >>= fun db => parseDeclarations db rest := by
  rw [parseDeclarations.eq_def]
  dsimp only
  cases parseDeclaration (t :: ts) with
  | error e => rfl
  | ok p =>
    simp only [bind, Except.bind]
    cases db.declare p.1 <;> rfl

/-- A declaration that is read is added before what follows it is read. -/
theorem parseDeclarations_of_declaration {ts rest : List Token} {d : Declaration}
    (h : parseDeclaration ts = .ok (d, rest)) (db : Database) :
    parseDeclarations db ts = db.declare d >>= fun db => parseDeclarations db rest := by
  obtain ⟨s, r, rfl, -⟩ := parseDeclaration_cases h
  rw [parseDeclarations_cons, h]
  rfl

/-- Declarations that are read are added before what follows them is read. -/
theorem parseDeclarations_append {ts us : List Token} {ds : List Declaration} (h : Reads ts ds)
    (hus : Opening us) (db : Database) : parseDeclarations db (ts ++ us) =
      ds.foldlM Database.declare db >>= fun db => parseDeclarations db us := by
  induction h generalizing db with
  | nil => rfl
  | @cons ts rest d ds hd _ ih =>
    have hlong := (parseDeclaration_local hd).2 us hus
    rw [parseDeclarations_of_declaration hlong, List.foldlM_cons]
    cases db.declare d with
    | error e => rfl
    | ok db' => exact ih db'

/-- Parsing adds the declarations that the tokens are, one after the other. -/
theorem parseDeclarations_of_reads {ts : List Token} {ds : List Declaration} (h : Reads ts ds)
    (db : Database) : parseDeclarations db ts = ds.foldlM Database.declare db := by
  have happend := parseDeclarations_append h (.inl rfl) db
  rw [List.append_nil] at happend
  rw [happend]
  cases ds.foldlM Database.declare db with
  | error e => rfl
  | ok db' => exact parseDeclarations.eq_def db' []

theorem reads_of_parseDeclarations {db db' : Database} {ts : List Token}
    (h : parseDeclarations db ts = .ok db') : ∃ ds, Reads ts ds := by
  fun_induction parseDeclarations db ts with
  | case1 => exact ⟨[], .nil⟩
  | case2 => cases h
  | case3 => cases h
  | case4 db ts _ d rest hd db'' _ ih =>
    obtain ⟨ds, hds⟩ := ih h
    exact ⟨d :: ds, .cons hd hds⟩

/-- The declarations of an accepted document. -/
theorem parse_eq_ok {input : String} {db : Database} :
    parse input = .ok db ↔ ∃ ts ds, tokenize input = .ok ts ∧ Reads ts ds ∧
      ds.foldlM Database.declare {} = .ok db := by
  unfold parse
  constructor
  · intro h
    split at h
    · cases h
    · rename_i ts hts
      obtain ⟨ds, hds⟩ := reads_of_parseDeclarations h
      exact ⟨ts, ds, hts, hds, by rw [← parseDeclarations_of_reads hds, h]⟩
  · rintro ⟨ts, ds, hts, hds, h⟩
    rw [hts]
    exact (parseDeclarations_of_reads hds {}).trans h

/-- An accepted document at one of its declarations. -/
theorem parse_eq_ok_at {input : String} {db : Database} (h : parse input = .ok db)
    {before rest after : List Token} {ds : List Declaration} {d : Declaration}
    (hts : tokenize input = .ok (before ++ rest)) (hbefore : Reads before ds)
    (hd : parseDeclaration rest = .ok (d, after)) :
    ∃ es, Reads after es ∧ (ds ++ d :: es).foldlM Database.declare {} = .ok db := by
  rw [parse, hts] at h
  replace h := (parseDeclarations_append hbefore (parseDeclaration_opening hd) {}).symm.trans h
  obtain ⟨mid, hmid, hrest⟩ := bind_eq_ok.1 h
  rw [parseDeclarations_of_declaration hd] at hrest
  obtain ⟨mid', hdeclare, hafter⟩ := bind_eq_ok.1 hrest
  obtain ⟨es, hes⟩ := reads_of_parseDeclarations hafter
  rw [parseDeclarations_of_reads hes] at hafter
  refine ⟨es, hes, ?_⟩
  rw [List.foldlM_append, hmid]
  exact (List.foldlM_cons ..).trans (bind_eq_ok.2 ⟨_, hdeclare, hafter⟩)

end EntityForge.Dbml
