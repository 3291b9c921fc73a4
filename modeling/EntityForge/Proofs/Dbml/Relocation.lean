import EntityForge.Proofs.Dbml.Declared
import EntityForge.Proofs.Dbml.Grammar.Document

/-!
# References inside and outside tables

A reference among the settings of a column says what a declaration of its own says after the table
(`TablePhrase.withoutRefs`, `IsRelocated`), and a relationship says the same from its other side
(`RelationshipPhrase.turned`). `Rewrites` is one such change of a document; none of them changes the
database that is read (`parse_rewritten`).
-/

namespace EntityForge.Dbml

/-! ## Tables without references -/

namespace ColumnPhrase

/-- The references among the settings of the column. -/
def inlineRefs (p : ColumnPhrase) : List (Phrase IsSetting) :=
  p.settings.filter (·.value.ref?.isSome)

/-- The column with its other settings; the brackets go with the last of them. -/
def withoutRefs (p : ColumnPhrase) : ColumnPhrase :=
  { p with settings := p.settings.filter (·.value.ref?.isNone) }

/-- A reference is no setting of its column. -/
theorem withoutRefs_column (p : ColumnPhrase) : p.withoutRefs.column = p.column := by
  have hsettings : (p.settings.filter (·.value.ref?.isNone)).filterMap (·.value.setting?) =
      p.settings.filterMap (·.value.setting?) := by
    rw [List.filterMap_filter]
    refine List.filterMap_congr fun s _ => ?_
    cases h : s.value <;> simp [ColumnItem.ref?, ColumnItem.setting?]
  rw [column, withoutRefs, hsettings, column]

theorem withoutRefs_refs (p : ColumnPhrase) : p.withoutRefs.refs = [] := by
  rw [refs, withoutRefs, List.filterMap_eq_nil_iff]
  simp

end ColumnPhrase

namespace ItemPhrase

/-- The item without the references in it. -/
def withoutRefs : ItemPhrase → ItemPhrase
  | column p => column p.withoutRefs
  | note p => note p
  | indexes p => indexes p

/-- The references in the item, each with the column it is written at. -/
def inlineRefs : ItemPhrase → List (String × Phrase IsSetting)
  | column p => p.inlineRefs.map (p.name.value, ·)
  | _ => []

end ItemPhrase

namespace TablePhrase

/-- The declaration without the references in it. -/
def withoutRefs (p : TablePhrase) : TablePhrase :=
  { p with items := p.items.map (·.withoutRefs) }

/-- The references in the declaration, each with the endpoint it is written at. -/
def inlineRefs (p : TablePhrase) : List (Endpoint × Phrase IsSetting) :=
  (p.items.flatMap (·.inlineRefs)).map fun (column, s) =>
    (⟨p.name.value.1, p.name.value.2, column⟩, s)

end TablePhrase

/-- The tokens of a reference at the endpoint `e`, as the tokens of a declaration: `ref: > other` is
`Ref: e > other`. -/
inductive IsRelocated (e : Endpoint) : List Token → List Token → Prop where
  | mk {w w' : String} (hw : Text.lowerAscii w = "ref") (hw' : Text.lowerAscii w' = "ref")
      (sign : RelationSign) {own : List Token} (hown : IsEndpoint own e) (other : List Token) :
      IsRelocated e (.ident w :: .colon :: sign.token :: other)
        (.ident w' :: .colon :: (own ++ sign.token :: other))

/-- The references of a table as declarations, in the same order. -/
def TablePhrase.Relocates (p : TablePhrase) (ds : List (List Token)) : Prop :=
  List.Forall₂ (fun r d => IsRelocated r.1 r.2.tokens d) p.inlineRefs ds

/-! ## Relationships from the other side -/

/-- `L < R` as `R > L`. -/
def RelationshipPhrase.turned (p : RelationshipPhrase) : RelationshipPhrase :=
  { p with left := p.right, sign := .manyToOne, right := p.left }

theorem RelationshipPhrase.turned_value {p : RelationshipPhrase} (h : p.sign = .oneToMany)
    (name : Option String) : p.turned.value name = p.value name := by
  simp [turned, value, h, RelationSign.relate]

/-- One relationship of a declaration is turned. -/
inductive RefsBody.Turns : RefsBody → RefsBody → Prop where
  | one {p : RelationshipPhrase} (h : p.sign = .oneToMany) : Turns (.one p) (.one p.turned)
  | block {p : RelationshipPhrase} (h : p.sign = .oneToMany)
      (before after : List RelationshipPhrase) :
      Turns (.block (before ++ p :: after)) (.block (before ++ p.turned :: after))

theorem RefsBody.Turns.values_eq {b b' : RefsBody} (h : b.Turns b') (head : Phrase IsRefHead) :
    (RefsPhrase.mk head b').values = (RefsPhrase.mk head b).values := by
  cases h with
  | one h =>
    simp [RefsPhrase.values, RefsBody.relationships, RelationshipPhrase.turned_value h]
  | block h before after =>
    simp [RefsPhrase.values, RefsBody.relationships, RelationshipPhrase.turned_value h]

/-- One change of the tokens of a document: the references in a table are declared after it instead,
or one relationship is turned. -/
inductive Rewrites : List Token → List Token → Prop where
  | relocate {before : List Token} {earlier : List Declaration} (hbefore : Reads before earlier)
      (p : TablePhrase) {ds : List (List Token)} (hds : p.Relocates ds) (after : List Token) :
      Rewrites (before ++ (p.tokens ++ after))
        (before ++ (p.withoutRefs.tokens ++ (ds.flatten ++ after)))
  | turn {before after : List Token} {earlier : List Declaration} (hbefore : Reads before earlier)
      (head : Phrase IsRefHead) {b b' : RefsBody} (h : b.Turns b') (hafter : Opening after) :
      Rewrites (before ++ ((RefsPhrase.mk head b).tokens ++ after))
        (before ++ ((RefsPhrase.mk head b').tokens ++ after))

/-! ## What a table declares without its references -/

/-- The draft without its references. -/
def TableDraft.dropRefs (d : TableDraft) : TableDraft :=
  { d with refs := [] }

theorem TableDraft.dropRefs_add (d : TableDraft) (p : ItemPhrase) :
    d.dropRefs.add p.withoutRefs.value = (d.add p.value).map dropRefs := by
  cases p with
  | column p =>
    simp only [ItemPhrase.withoutRefs, ItemPhrase.value, add, dropRefs, p.withoutRefs_column,
      p.withoutRefs_refs]
    by_cases hc : (d.table.column? p.column.name).isSome = true <;> simp [hc, Except.map, dropRefs]
  | note p => rfl
  | indexes p => rfl

theorem TableDraft.dropRefs_addAll (d : TableDraft) (ps : List ItemPhrase) :
    d.dropRefs.addAll ((ps.map (·.withoutRefs)).map (·.value)) =
      (d.addAll (ps.map (·.value))).map dropRefs := by
  induction ps generalizing d with
  | nil => rfl
  | cons p ps ih =>
    rw [addAll, List.map_cons, List.map_cons, List.foldlM_cons, dropRefs_add, addAll, List.map_cons,
      List.foldlM_cons]
    cases d.add p.value with
    | error e => rfl
    | ok d' => exact ih d'

theorem TablePhrase.withoutRefs_draft (p : TablePhrase) :
    p.withoutRefs.draft = p.draft.map TableDraft.dropRefs :=
  p.start.dropRefs_addAll p.items

/-- The relationship of a reference at an endpoint. -/
def relationshipAt (e : Endpoint) (s : Phrase IsSetting) : Option Relationship :=
  s.value.ref?.map fun r => r.sign.relate none e r.other

theorem ColumnPhrase.refs_eq (p : ColumnPhrase) (e : Endpoint) :
    p.refs.map (fun r => r.sign.relate none e r.other) =
      p.inlineRefs.filterMap (relationshipAt e) := by
  rw [refs, inlineRefs, List.map_filterMap, List.filterMap_filter]
  refine List.filterMap_congr fun s _ => ?_
  cases h : s.value.ref? <;> simp [relationshipAt, h]

/-- What one item adds to the references of a table. -/
theorem TableDraft.add_refs {d d' : TableDraft} {p : ItemPhrase} (h : d.add p.value = .ok d') :
    (d'.table.schema = d.table.schema ∧ d'.table.name = d.table.name) ∧
      d'.refs = d.refs ++ p.inlineRefs.filterMap fun (column, s) =>
        relationshipAt ⟨d.table.schema, d.table.name, column⟩ s := by
  cases p with
  | column p =>
    simp only [ItemPhrase.value, add] at h
    split at h
    · cases h
    · cases h
      refine ⟨⟨rfl, rfl⟩, ?_⟩
      rw [ItemPhrase.inlineRefs, List.filterMap_map]
      exact congrArg _ (p.refs_eq _)
  | note p =>
    cases h
    exact ⟨⟨rfl, rfl⟩, (List.append_nil _).symm⟩
  | indexes p =>
    cases h
    exact ⟨⟨rfl, rfl⟩, (List.append_nil _).symm⟩

theorem TableDraft.addAll_refs {d d' : TableDraft} {ps : List ItemPhrase}
    (h : d.addAll (ps.map (·.value)) = .ok d') :
    d'.refs = d.refs ++ (ps.flatMap (·.inlineRefs)).filterMap fun (column, s) =>
      relationshipAt ⟨d.table.schema, d.table.name, column⟩ s := by
  induction ps generalizing d with
  | nil =>
    cases h
    exact (List.append_nil _).symm
  | cons p ps ih =>
    obtain ⟨mid, hmid, hrest⟩ := bind_eq_ok.1 h
    obtain ⟨⟨hschema, hname⟩, hrefs⟩ := add_refs hmid
    rw [ih hrest, hschema, hname, hrefs, List.flatMap_cons, List.filterMap_append,
      List.append_assoc]

/-- The references of a table are those written in it. -/
theorem TablePhrase.draft_refs {p : TablePhrase} {d : TableDraft} (h : p.draft = .ok d) :
    d.refs = p.inlineRefs.filterMap fun r => relationshipAt r.1 r.2 := by
  rw [TableDraft.addAll_refs h, inlineRefs, List.filterMap_map]
  rfl

/-! ## Declarations of references -/

theorem RelationSign.token_inj {s s' : RelationSign} (h : s.token = s'.token) : s = s' := by
  cases s <;> cases s' <;> first | rfl | cases h

/-- A setting of the form of a reference is one. -/
theorem IsSetting.eq_ref {w : String} {sign : RelationSign} {other : List Token} {i : ColumnItem}
    (hw : Text.lowerAscii w = "ref")
    (h : IsSetting (.ident w :: .colon :: sign.token :: other) i) :
    ∃ e, IsEndpoint other e ∧ i = .ref ⟨sign, e⟩ := by
  generalize hts : Token.ident w :: .colon :: sign.token :: other = ts at h
  cases h with
  | ref _ sign' hother =>
    simp only [List.cons.injEq] at hts
    obtain ⟨-, -, hsign, rfl⟩ := hts
    exact ⟨_, hother, by rw [RelationSign.token_inj hsign]⟩
  | defaultValue hw' => simp_all
  | note hw' => simp_all
  | other hw' => simp_all [settingWords]
  | _ => simp at hts

/-- A declared reference is read as the relationship of the reference in the table. -/
theorem IsRelocated.parseDeclaration {e : Endpoint} {s : Phrase IsSetting} {d : List Token}
    (h : IsRelocated e s.tokens d) : ∃ r, relationshipAt e s = some r ∧
      ∀ rest, Opening rest → parseDeclaration (d ++ rest) = .ok (.refs [r], rest) := by
  obtain ⟨ts, i, hs⟩ := s
  obtain @⟨w, w', hw, hw', sign, own, hown, other⟩ := h
  obtain ⟨target, hother, rfl⟩ := hs.eq_ref hw
  refine ⟨_, rfl, fun rest hrest => ?_⟩
  let q : RefsPhrase := ⟨⟨_, _, .unnamed hw'⟩,
    .one ⟨⟨own, e, hown⟩, sign, ⟨other, target, hother⟩, [], .absent⟩⟩
  have hq : q.tokens = .ident w' :: .colon :: (own ++ sign.token :: other) := by
    simp [q, RefsPhrase.tokens, RefsBody.tokens, RelationshipPhrase.tokens]
  rw [← hq]
  exact parseDeclaration_refs_complete q (hrest.ends q.body)

theorem IsRelocated.opening {e : Endpoint} {ts d : List Token} (h : IsRelocated e ts d)
    (rest : List Token) : Opening (d ++ rest) := by
  obtain ⟨-, hw', -, -⟩ := h
  exact .inr ⟨_, _, rfl, by simp [hw', declarationWords]⟩

/-- References declared one after the other. -/
theorem parseDeclarations_relocated {rs : List (Endpoint × Phrase IsSetting)}
    {ds : List (List Token)} (h : List.Forall₂ (fun r d => IsRelocated r.1 r.2.tokens d) rs ds)
    {after : List Token} (hafter : Opening after) (db : Database) :
    Opening (ds.flatten ++ after) ∧ parseDeclarations db (ds.flatten ++ after) =
      parseDeclarations
        (db.addRelationships (rs.filterMap fun r => relationshipAt r.1 r.2)) after := by
  induction h generalizing db with
  | nil => exact ⟨hafter, by simp [Database.addRelationships]⟩
  | @cons r d rs ds hd _ ih =>
    obtain ⟨hopening, -⟩ := ih db
    obtain ⟨rel, hrel, hread⟩ := hd.parseDeclaration
    have hrels : ((r :: rs).filterMap fun r => relationshipAt r.1 r.2) =
        rel :: rs.filterMap fun r => relationshipAt r.1 r.2 := List.filterMap_cons_some hrel
    rw [List.flatten_cons, List.append_assoc, hrels]
    refine ⟨hd.opening _, (parseDeclarations_of_declaration (hread _ hopening) db).trans ?_⟩
    refine (ih _).2.trans ?_
    simp [Database.addRelationships]

/-! ## Changes of a document -/

theorem declare_table_refs (db : Database) (t : Table) (refs : List Relationship) :
    db.declare (.table t refs) =
      (db.declare (.table t [])).map (·.addRelationships refs) := by
  simp only [Database.declare]
  split
  · rfl
  · simp [Except.map, Database.addRelationships]

/-- A table with its references declared after it adds what it adds with them. -/
theorem parseDeclarations_relocate {p : TablePhrase} {ds : List (List Token)} (hds : p.Relocates ds)
    {after : List Token} (hafter : Opening after) (db : Database) :
    parseDeclarations db (p.withoutRefs.tokens ++ (ds.flatten ++ after)) =
      parseDeclarations db (p.tokens ++ after) := by
  rw [parseDeclarations_tablePhrase, parseDeclarations_tablePhrase, p.withoutRefs_draft]
  cases hd : p.draft with
  | error e => rfl
  | ok d =>
    simp only [Except.map, bind, Except.bind]
    rw [declare_table_refs db d.table d.refs, TableDraft.dropRefs]
    cases db.declare (.table d.table []) with
    | error e => rfl
    | ok db' =>
      simp only [Except.map]
      rw [(parseDeclarations_relocated hds hafter db').2, p.draft_refs hd]

/-- A turned relationship adds what it adds from its other side. -/
theorem parseDeclarations_turn (head : Phrase IsRefHead) {b b' : RefsBody} (h : b.Turns b')
    {after : List Token} (hafter : Opening after) (db : Database) :
    parseDeclarations db ((RefsPhrase.mk head b').tokens ++ after) =
      parseDeclarations db ((RefsPhrase.mk head b).tokens ++ after) := by
  have hread := fun b => parseDeclaration_refs_complete (RefsPhrase.mk head b) (hafter.ends b)
  rw [parseDeclarations_of_declaration (hread b), parseDeclarations_of_declaration (hread b'),
    h.values_eq head]

theorem Rewrites.parseDeclarations_eq {ts us : List Token} (h : Rewrites ts us) {db : Database}
    (hts : parseDeclarations {} ts = .ok db) : parseDeclarations {} us = .ok db := by
  cases h with
  | @relocate before earlier hbefore p ds hds after =>
    have hlong := parseDeclarations_append hbefore (p.opening after) {}
    have hshort := parseDeclarations_append hbefore (p.withoutRefs.opening (ds.flatten ++ after)) {}
    rw [hlong] at hts
    rw [hshort]
    obtain ⟨mid, hmid, hrest⟩ := bind_eq_ok.1 hts
    -- what follows the table is accepted, so it starts a declaration
    have hafter : Opening after := by
      rw [parseDeclarations_tablePhrase] at hrest
      obtain ⟨d, -, hrest⟩ := bind_eq_ok.1 hrest
      obtain ⟨_, -, hrest⟩ := bind_eq_ok.1 hrest
      obtain ⟨es, hes⟩ := reads_of_parseDeclarations hrest
      exact hes.opening
    exact bind_eq_ok.2 ⟨mid, hmid, (parseDeclarations_relocate hds hafter mid).trans hrest⟩
  | @turn before after earlier hbefore head b b' h hafter =>
    have hlong := parseDeclarations_append hbefore ((RefsPhrase.mk head b).opening after) {}
    have hshort := parseDeclarations_append hbefore ((RefsPhrase.mk head b').opening after) {}
    rw [hlong] at hts
    rw [hshort]
    obtain ⟨mid, hmid, hrest⟩ := bind_eq_ok.1 hts
    exact bind_eq_ok.2 ⟨mid, hmid, (parseDeclarations_turn head h hafter mid).trans hrest⟩

/-! ## Texts of changed documents -/

theorem writable_listedTokens {s : Phrase IsSetting} {ss : List (Phrase IsSetting)} :
    (∀ t ∈ listedTokens s ss, t.isWritable = true) ↔
      ∀ s' ∈ s :: ss, ∀ t ∈ s'.tokens, t.isWritable = true := by
  induction ss generalizing s with
  | nil => simp [listedTokens, or_imp, forall_and, Token.isWritable]
  | cons s' ss ih =>
    rw [List.forall_mem_cons, ← ih]
    simp [listedTokens, or_imp, forall_and, Token.isWritable]

theorem writable_bracketedTokens {ss : List (Phrase IsSetting)} :
    (∀ t ∈ bracketedTokens ss, t.isWritable = true) ↔
      ∀ s ∈ ss, ∀ t ∈ s.tokens, t.isWritable = true := by
  cases ss with
  | nil => simp [bracketedTokens]
  | cons s ss =>
    rw [bracketedTokens, List.forall_mem_cons, writable_listedTokens]
    simp [Token.isWritable]

namespace ColumnPhrase

theorem writable_iff {p : ColumnPhrase} : (∀ t ∈ p.tokens, t.isWritable = true) ↔
    (∀ t ∈ p.name.tokens ++ p.type.tokens, t.isWritable = true) ∧
      ∀ s ∈ p.settings, ∀ t ∈ s.tokens, t.isWritable = true := by
  rw [tokens, ← List.append_assoc, List.forall_mem_append, writable_bracketedTokens]

end ColumnPhrase

theorem ItemPhrase.writable_withoutRefs {p : ItemPhrase}
    (h : ∀ t ∈ p.tokens, t.isWritable = true) :
    ∀ t ∈ p.withoutRefs.tokens, t.isWritable = true := by
  cases p with
  | column p =>
    obtain ⟨hnames, hsettings⟩ := ColumnPhrase.writable_iff.1 h
    exact ColumnPhrase.writable_iff.2 ⟨hnames, fun s hs => hsettings s (List.mem_of_mem_filter hs)⟩
  | note p => exact h
  | indexes p => exact h

namespace TablePhrase

/-- The tokens of a table are those of its items and some others. -/
theorem exists_tokens_eq (p : TablePhrase) : ∃ header, p.tokens = header ++ itemTokens p.items ∧
    p.withoutRefs.tokens = header ++ itemTokens (p.items.map (·.withoutRefs)) := by
  refine ⟨.ident p.word :: (p.name.tokens ++ (p.aliasName.tokens ++ (p.settings ++ [.lbrace]))),
    ?_, ?_⟩
  · simp [tokens, rest]
  · simp [tokens, rest, withoutRefs]

theorem writable_items {p : TablePhrase} (h : ∀ t ∈ p.tokens, t.isWritable = true) :
    ∀ i ∈ p.items, ∀ t ∈ i.tokens, t.isWritable = true := by
  obtain ⟨header, heq, -⟩ := p.exists_tokens_eq
  intro i hi t ht
  refine h t ?_
  rw [heq, itemTokens]
  exact List.mem_append_right _ (List.mem_append_left _ (List.mem_flatMap.2 ⟨i, hi, ht⟩))

theorem writable_withoutRefs {p : TablePhrase} (h : ∀ t ∈ p.tokens, t.isWritable = true) :
    ∀ t ∈ p.withoutRefs.tokens, t.isWritable = true := by
  have hitems := writable_items h
  obtain ⟨header, heq, heq'⟩ := p.exists_tokens_eq
  rw [heq, List.forall_mem_append] at h
  rw [heq', List.forall_mem_append]
  refine ⟨h.1, fun t ht => ?_⟩
  simp only [itemTokens, List.mem_append, List.mem_flatMap, List.mem_map] at ht
  obtain ⟨_, ⟨i, hi, rfl⟩, ht⟩ | ht := ht
  · exact ItemPhrase.writable_withoutRefs (hitems i hi) t ht
  · rw [List.mem_singleton.1 ht]
    rfl

/-- The references of a table are settings of its columns. -/
theorem mem_inlineRefs {p : TablePhrase} {r : Endpoint × Phrase IsSetting}
    (h : r ∈ p.inlineRefs) :
    r.2.value.ref?.isSome = true ∧ ∃ c, .column c ∈ p.items ∧ r.2 ∈ c.settings := by
  obtain ⟨⟨column, s⟩, hs, rfl⟩ := List.mem_map.1 h
  obtain ⟨i, hi, hs⟩ := List.mem_flatMap.1 hs
  cases i with
  | column c =>
    obtain ⟨s', hs', heq⟩ := List.mem_map.1 hs
    cases heq
    exact ⟨(List.mem_filter.1 hs').2, c, hi, (List.mem_filter.1 hs').1⟩
  | note p => cases hs
  | indexes p => cases hs

end TablePhrase

theorem IsSetting.ref_tokens {ts : List Token} {r : InlineRef} (h : IsSetting ts (.ref r)) :
    ∃ w other, Text.lowerAscii w = "ref" ∧ ts = .ident w :: .colon :: r.sign.token :: other := by
  cases h with
  | ref hw sign _ => exact ⟨_, _, hw, rfl⟩

/-- A reference can be declared, in tokens that have a text if its own have one. -/
theorem exists_isRelocated {r : Endpoint × Phrase IsSetting}
    (href : r.2.value.ref?.isSome = true) (h : ∀ t ∈ r.2.tokens, t.isWritable = true) :
    ∃ d, IsRelocated r.1 r.2.tokens d ∧ ∀ t ∈ d, t.isWritable = true := by
  obtain ⟨e, ⟨ts, i, hs⟩⟩ := r
  cases i with
  | ref r =>
    obtain ⟨w, other, hw, rfl⟩ := hs.ref_tokens
    have hword : Text.lowerAscii "Ref" = "ref" := by decide
    refine ⟨_, .mk hw hword r.sign (.full (s := .str e.schema) (t := .str e.table)
      (c := .str e.column) rfl rfl rfl) other, ?_⟩
    simp only [List.forall_mem_cons] at h
    simp only [List.forall_mem_cons, List.forall_mem_append]
    exact ⟨by decide +kernel, h.2.1, by simp [Token.isWritable], h.2.2⟩
  | _ => cases href

theorem TablePhrase.exists_relocates {p : TablePhrase}
    (h : ∀ t ∈ p.tokens, t.isWritable = true) :
    ∃ ds, p.Relocates ds ∧ ∀ t ∈ ds.flatten, t.isWritable = true := by
  have hrefs : ∀ r ∈ p.inlineRefs, ∃ d, IsRelocated r.1 r.2.tokens d ∧
      ∀ t ∈ d, t.isWritable = true := by
    intro r hr
    obtain ⟨href, c, hc, hs⟩ := mem_inlineRefs hr
    exact exists_isRelocated href ((ColumnPhrase.writable_iff.1 (writable_items h _ hc)).2 _ hs)
  unfold Relocates
  generalize p.inlineRefs = rs at hrefs
  induction rs with
  | nil => exact ⟨[], .nil, by simp⟩
  | cons r rs ih =>
    obtain ⟨d, hd, hwritable⟩ := hrefs r (.head _)
    obtain ⟨ds, hds, hall⟩ := ih fun r' hr' => hrefs r' (.tail _ hr')
    exact ⟨d :: ds, .cons hd hds, by
      rw [List.flatten_cons, List.forall_mem_append]
      exact ⟨hwritable, hall⟩⟩

/-- The tokens of a turned relationship are its own ones, but for the sign. -/
theorem RefsBody.Turns.writable {b b' : RefsBody} (h : b.Turns b') {head : Phrase IsRefHead}
    (hb : ∀ t ∈ (RefsPhrase.mk head b).tokens, t.isWritable = true) :
    ∀ t ∈ (RefsPhrase.mk head b').tokens, t.isWritable = true := by
  have hturned : ∀ p : RelationshipPhrase, (∀ t ∈ p.tokens, t.isWritable = true) →
      ∀ t ∈ p.turned.tokens, t.isWritable = true := by
    intro p hp
    simp only [RelationshipPhrase.tokens, List.forall_mem_append, List.forall_mem_cons] at hp
    simp only [RelationshipPhrase.tokens, RelationshipPhrase.turned, List.forall_mem_append,
      List.forall_mem_cons]
    exact ⟨hp.2.2.1, rfl, hp.1, hp.2.2.2⟩
  cases h with
  | one _ =>
    simp only [RefsPhrase.tokens, tokens, List.forall_mem_append, List.forall_mem_cons] at hb ⊢
    exact ⟨hb.1, hb.2.1, hturned _ hb.2.2⟩
  | block _ before after =>
    simp only [RefsPhrase.tokens, tokens, relationshipTokens, List.flatMap_append,
      List.flatMap_cons, List.forall_mem_append, List.forall_mem_cons] at hb ⊢
    exact ⟨hb.1, hb.2.1, ⟨hb.2.2.1.1, hturned _ hb.2.2.1.2.1, hb.2.2.1.2.2⟩, hb.2.2.2⟩

/-- References inside tables and outside mean the same. In an accepted document, all references in a
table may be declared after it in the same order, and any relationship may be turned around, and the
same database is read (`Rewrites`). This covers all tables and all declarations of relationships of
the document: each is a phrase of the grammar, and there is a text of the changed document. -/
theorem parse_rewritten {input : String} {db : Database} (h : parse input = .ok db)
    {ts : List Token} (hts : tokenize input = .ok ts) :
    (∀ us output, Rewrites ts us → tokenize output = .ok us → parse output = .ok db) ∧
    (∀ before rest after earlier t refs, ts = before ++ rest → Reads before earlier →
      parseDeclaration rest = .ok (.table t refs, after) →
      ∃ p : TablePhrase, rest = p.tokens ++ after ∧ ∃ ds output, p.Relocates ds ∧
        tokenize output = .ok (before ++ (p.withoutRefs.tokens ++ (ds.flatten ++ after)))) ∧
    ∀ before rest after earlier refs, ts = before ++ rest → Reads before earlier →
      parseDeclaration rest = .ok (.refs refs, after) →
      Opening after ∧ ∃ p : RefsPhrase, rest = p.tokens ++ after ∧ ∀ b, p.body.Turns b →
        ∃ output, tokenize output = .ok (before ++ ((RefsPhrase.mk p.head b).tokens ++ after)) := by
  have hwritable := tokenize_isWritable hts
  refine ⟨fun us output hus houtput => ?_, ?_, ?_⟩
  · rw [parse, hts] at h
    rw [parse, houtput]
    exact hus.parseDeclarations_eq h
  · rintro before rest after earlier t refs rfl - htable
    obtain ⟨p, rfl⟩ := parseDeclaration_table_sound htable
    simp only [List.forall_mem_append] at hwritable
    obtain ⟨hbefore, hp, hafter⟩ := hwritable
    obtain ⟨ds, hds, hall⟩ := TablePhrase.exists_relocates hp
    refine ⟨p, rfl, ds, _, hds, tokenize_writeTokens ?_⟩
    simp only [List.forall_mem_append]
    exact ⟨hbefore, TablePhrase.writable_withoutRefs hp, hall, hafter⟩
  · rintro before rest after earlier refs rfl hbefore hrefs
    obtain ⟨p, hp, -⟩ := parseDeclaration_refs_sound hrefs
    obtain ⟨es, hes, -⟩ := parse_eq_ok_at h hts hbefore hrefs
    subst hp
    simp only [List.forall_mem_append] at hwritable
    refine ⟨hes.opening, p, rfl, fun b hb => ⟨_, tokenize_writeTokens ?_⟩⟩
    simp only [List.forall_mem_append]
    exact ⟨hwritable.1, hb.writable hwritable.2.1, hwritable.2.2⟩

/-- A document with a reference in its table declared after it, and with a relationship turned. -/
theorem parse_rewritten_table : ∃ db,
    parse "Ref: b.y < a.x Table a \x7b x int [ref: < b.y, pk] \x7d" = .ok db ∧
      parse "Ref: b.y < a.x Table a \x7b x int [pk] \x7d Ref: public.a.x < b.y" = .ok db ∧
      parse "Ref: a.x > b.y Table a \x7b x int [ref: < b.y, pk] \x7d" = .ok db := by
  let x : Phrase IsEndpoint := ⟨_, _, .short (t := .ident "a") (c := .ident "x") rfl rfl⟩
  let y : Phrase IsEndpoint := ⟨_, _, .short (t := .ident "b") (c := .ident "y") rfl rfl⟩
  let head : Phrase IsRefHead := ⟨_, _, .unnamed (w := "Ref") (by decide)⟩
  let r : RelationshipPhrase := ⟨y, .oneToMany, x, [], .absent⟩
  let c : ColumnPhrase := ⟨⟨_, _, .mk (t := .ident "x") rfl⟩,
    ⟨_, _, .mk (.bare (t := .ident "int") rfl) .absent .absent⟩,
    [⟨_, _, .ref (w := "ref") (by decide) .oneToMany y.valid⟩,
      ⟨_, _, .pk (w := "pk") (by decide)⟩]⟩
  let p : TablePhrase := ⟨"Table", by decide, ⟨_, _, .bare (t := .ident "a") rfl⟩,
    ⟨_, _, .absent⟩, [], .absent, [.column c]⟩
  have h : parse "Ref: b.y < a.x Table a \x7b x int [ref: < b.y, pk] \x7d" = .ok {
      schemas := [⟨"public", [⟨"public", "a", none, [⟨"x", "int", [.primaryKey]⟩], none⟩]⟩]
      relationships := [⟨none, ⟨"public", "a", "x"⟩, ⟨"public", "b", "y"⟩, .manyToOne⟩,
        ⟨none, ⟨"public", "b", "y"⟩, ⟨"public", "a", "x"⟩, .manyToOne⟩] } := by
    decide +kernel
  have hts : tokenize "Ref: b.y < a.x Table a \x7b x int [ref: < b.y, pk] \x7d" =
      .ok ((RefsPhrase.mk head (.one r)).tokens ++ (p.tokens ++ [])) := by
    decide +kernel
  have hdeclared : parseDeclaration (RefsPhrase.mk head (.one r)).tokens =
      .ok (.refs [⟨none, ⟨"public", "a", "x"⟩, ⟨"public", "b", "y"⟩, .manyToOne⟩], []) := by
    decide +kernel
  have hrelocates : p.Relocates [[.ident "Ref", .colon, .ident "public", .dot, .ident "a", .dot,
      .ident "x", .lt, .ident "b", .dot, .ident "y"]] :=
    .cons (.mk (by decide) (by decide) .oneToMany
      (.full (s := .ident "public") (t := .ident "a") (c := .ident "x") rfl rfl rfl) _) .nil
  have hturn : Rewrites ([] ++ ((RefsPhrase.mk head (.one r)).tokens ++ (p.tokens ++ []))) _ :=
    .turn .nil head (.one rfl) (p.opening [])
  obtain ⟨hrewritten, -⟩ := parse_rewritten h hts
  have hrelocate := Rewrites.relocate (.cons hdeclared .nil) p hrelocates []
  exact ⟨_, h, hrewritten _ _ hrelocate (by decide +kernel),
    hrewritten _ _ hturn (by decide +kernel)⟩

end EntityForge.Dbml
