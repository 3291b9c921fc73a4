import EntityForge.Proofs.Java.Reading
import EntityForge.Proofs.Java.TypeSyntax

/-!
# Field declarations read back

A field statement is a type that starts with no modifier, and one or more names with array brackets.
`FieldStatement.IsSpelled` is a text of it: modifiers before the type, commas between the names, and
blanks of any kind in between. A text of a statement declares its fields
(`FieldStatement.IsSpelled.fieldsOfStatement`), newlines in it being blanks like others
(`FieldStatement.IsSpelled.oneLine`), and a class of such statements declares the fields of all of
them in order (`fieldsOfSource_declarations`).
-/

namespace EntityForge.Java

/-! ## Statements -/

/-- An identifier with the number of its array brackets. -/
structure DeclaredName where
  name : List Char
  isIdentifier : isIdentifier name = true
  dims : Nat

/-- A statement that declares fields: a type that starts with no modifier, and the names. -/
structure FieldStatement where
  type : JavaType
  not_modifier : type.name.first.chars ∉ modifiers
  first : DeclaredName
  more : List DeclaredName

/-- The field that a name declares has the type with the brackets of the name. -/
def DeclaredName.field (type : JavaType) (d : DeclaredName) : FieldDecl :=
  ⟨String.ofList d.name, String.ofList (type.text ++ bracketPairs d.dims)⟩

/-- The fields of a statement, one for each name. -/
def FieldStatement.fields (s : FieldStatement) : List FieldDecl :=
  (s.first :: s.more).map (·.field s.type)

/-- The text is the name with its array brackets, and blanks around and between them. -/
def DeclaredName.IsSpelled (d : DeclaredName) (cs : List Char) : Prop :=
  ∃ lead dims, cs = lead ++ (d.name ++ dims) ∧ (∀ c ∈ lead, Unicode.isBlank c = true) ∧
    IsDims d.dims dims

/-- The text is the statement after some modifiers, with commas between its names. -/
def FieldStatement.IsSpelled (s : FieldStatement) (cs : List Char) : Prop :=
  ∃ head dims parts, cs = [','].intercalate ((head ++ (s.first.name ++ dims)) :: parts) ∧
    IsHead s.type.text head ∧ IsDims s.first.dims dims ∧
    List.Forall₂ DeclaredName.IsSpelled s.more parts

/-! ## Characters -/

/-- The character can stand in the text of a statement. -/
def isFieldChar (c : Char) : Bool :=
  isSpacedTypeChar c || c == '-'

theorem isPlain_of_isFieldChar {c : Char} (h : isFieldChar c = true) : isPlain c = true := by
  have hmarks : c ∉ "/\"'".toList := Unicode.not_mem_of_class h (by decide +kernel)
  simpa [isPlain, and_assoc] using hmarks

theorem isInner_of_isFieldChar {c : Char} (h : isFieldChar c = true) : isInner c = true := by
  have hmarks : c ∉ "\x7b\x7d;".toList := Unicode.not_mem_of_class h (by decide +kernel)
  simpa [isInner, and_assoc] using hmarks

theorem isFieldChar_of_isIdentChar {c : Char} (h : isIdentChar c = true) : isFieldChar c = true := by
  simp [isFieldChar, isSpacedTypeChar, h]

theorem isFieldChar_of_isBlank {c : Char} (h : Unicode.isBlank c = true) : isFieldChar c = true := by
  simp [isFieldChar, isSpacedTypeChar, h]

theorem isPlain_of_isBlank {c : Char} (h : Unicode.isBlank c = true) : isPlain c = true :=
  isPlain_of_isFieldChar (isFieldChar_of_isBlank h)

theorem isInner_of_isBlank {c : Char} (h : Unicode.isBlank c = true) : isInner c = true :=
  isInner_of_isFieldChar (isFieldChar_of_isBlank h)

theorem isFieldChar_of_mem_name {d : DeclaredName} {dims : List Char} (hdims : IsDims d.dims dims) :
    ∀ c ∈ d.name ++ dims, isFieldChar c = true := by
  intro c hc
  rcases List.mem_append.1 hc with hc | hc
  · exact isFieldChar_of_isIdentChar (isIdentChar_of_isIdentifier d.isIdentifier c hc)
  · rcases hdims.mem hc with h | rfl | rfl
    · exact isFieldChar_of_isBlank h
    · decide
    · decide

theorem IsHead.isFieldChar_of_mem {type head : List Char} (h : IsHead type head) :
    ∀ c ∈ head, isFieldChar c = true := by
  obtain ⟨htype, ms, gap, rfl, hms, hgap, -⟩ := h
  intro c hc
  simp only [List.mem_append] at hc
  rcases hc with hc | hc | hc
  · rcases hms.mem hc with h | h
    · exact isFieldChar_of_isBlank h
    · have hall : modifierChars.all isFieldChar = true := by decide +kernel
      exact List.all_eq_true.1 hall c h
  · rw [isFieldChar, List.all_eq_true.1 htype.chars c hc, Bool.true_or]
  · exact isFieldChar_of_isBlank (hgap c hc)

theorem mem_intercalate {parts : List (List Char)} {c : Char} (h : c ∈ [','].intercalate parts) :
    c = ',' ∨ ∃ part ∈ parts, c ∈ part := by
  induction parts with
  | nil => simp [List.intercalate] at h
  | cons part parts ih =>
    cases parts with
    | nil =>
      rw [List.intercalate_singleton] at h
      exact .inr ⟨part, .head _, h⟩
    | cons next parts =>
      simp only [List.intercalate_cons_cons, List.mem_append, List.mem_singleton] at h
      rcases h with (h | h) | h
      · exact .inr ⟨part, .head _, h⟩
      · exact .inl h
      · rcases ih h with h | ⟨p, hp, h⟩
        · exact .inl h
        · exact .inr ⟨p, .tail _ hp, h⟩

/-- What holds of the text of every name holds of the texts of a list of names. -/
theorem forall_mem_of_forall₂ {P : List Char → Prop} {ds : List DeclaredName}
    {parts : List (List Char)} (h : List.Forall₂ DeclaredName.IsSpelled ds parts)
    (hP : ∀ d part, DeclaredName.IsSpelled d part → P part) : ∀ part ∈ parts, P part := by
  induction h with
  | nil => simp
  | cons hd h ih => exact List.forall_mem_cons.2 ⟨hP _ _ hd, ih⟩

theorem DeclaredName.IsSpelled.isFieldChar_of_mem {d : DeclaredName} {cs : List Char}
    (h : d.IsSpelled cs) : ∀ c ∈ cs, isFieldChar c = true := by
  obtain ⟨lead, dims, rfl, hlead, hdims⟩ := h
  intro c hc
  rcases List.mem_append.1 hc with hc | hc
  · exact isFieldChar_of_isBlank (hlead c hc)
  · exact isFieldChar_of_mem_name hdims c hc

theorem FieldStatement.IsSpelled.isFieldChar_of_mem {s : FieldStatement} {cs : List Char}
    (h : s.IsSpelled cs) : ∀ c ∈ cs, isFieldChar c = true := by
  obtain ⟨head, dims, parts, rfl, hhead, hdims, hparts⟩ := h
  intro c hc
  rcases mem_intercalate hc with rfl | ⟨part, hpart, hc⟩
  · decide
  rcases List.mem_cons.1 hpart with rfl | hpart
  · rcases List.mem_append.1 hc with hc | hc
    · exact hhead.isFieldChar_of_mem c hc
    · exact isFieldChar_of_mem_name hdims c hc
  · exact forall_mem_of_forall₂ hparts (fun _ _ => DeclaredName.IsSpelled.isFieldChar_of_mem) part
      hpart c hc

/-! ## Fields of a statement -/

/-- The text of a further name is a declarator. -/
theorem DeclaredName.IsSpelled.writes {d : DeclaredName} {cs : List Char} (h : d.IsSpelled cs) :
    ∃ e : Declarator, e.Writes cs ∧ (∀ c ∈ e.head, Unicode.isBlank c = true) ∧
      ∀ type : JavaType, e.field type.text = d.field type := by
  obtain ⟨lead, dims, rfl, hlead, hdims⟩ := h
  refine ⟨⟨lead, d.name, d.dims⟩, ⟨?_, ?_, ?_, d.isIdentifier, dims, [], hdims, .inl rfl, by simp⟩,
    hlead, fun type => rfl⟩
  · exact Text.isEnclosed_iff.2
      (enclose_unmarked (fun c hc => isDeclaratorMark_of_isBlank (hlead c hc)) false [])
  · exact fun hc => absurd (hlead _ hc) (by decide)
  · exact fun c hc => isIdentChar_of_isBlank (hlead c (List.mem_of_getLast? hc))

theorem writes_of_isSpelled {ds : List DeclaredName} {parts : List (List Char)}
    (h : List.Forall₂ DeclaredName.IsSpelled ds parts) :
    ∃ es, List.Forall₂ Declarator.Writes es parts ∧
      (∀ e ∈ es, ∀ c ∈ e.head, Unicode.isBlank c = true) ∧
        ∀ type : JavaType, es.map (·.field type.text) = ds.map (·.field type) := by
  induction h with
  | nil => exact ⟨[], .nil, by simp, fun _ => rfl⟩
  | cons hd h ih =>
    obtain ⟨e, hwrites, hblank, hfield⟩ := hd.writes
    obtain ⟨es, hrest, hblanks, hfields⟩ := ih
    refine ⟨e :: es, .cons hwrites hrest, List.forall_mem_cons.2 ⟨hblank, hblanks⟩, fun type => ?_⟩
    rw [List.map_cons, List.map_cons, hfield, hfields]

/-- The text of a statement declares its fields. -/
theorem FieldStatement.IsSpelled.fieldsOfStatement {s : FieldStatement} {cs : List Char}
    (h : s.IsSpelled cs) : fieldsOfStatement cs = s.fields := by
  have hchars := h.isFieldChar_of_mem
  have hnot : ∀ d : Char, isFieldChar d = false → d ∉ cs := by
    intro d hd hmem
    exact Unicode.ne_of_class (hchars d hmem) hd rfl
  obtain ⟨head, dims, parts, hcs, hhead, hdims, hparts⟩ := h
  obtain ⟨es, hwrites, hblank, hfields⟩ := writes_of_isSpelled hparts
  have hfirst : Declarator.Writes ⟨head, s.first.name, s.first.dims⟩
      (head ++ (s.first.name ++ dims)) := by
    simpa using hhead.writes s.first.isIdentifier hdims (.inl rfl)
  have hsplit : splitDeclarators cs = (head ++ (s.first.name ++ dims)) :: parts :=
    hcs ▸ splitDeclarators_intercalate (.cons hfirst hwrites) (List.cons_ne_nil _ _)
  have hparen : (before '=' cs).contains '(' = false := by
    rw [before_of_not_mem (hnot '=' (by decide +kernel))]
    simpa using hnot '(' (by decide +kernel)
  have hfull : (Unicode.trim cs).isEmpty = false := by
    obtain ⟨c, hc⟩ := List.exists_mem_of_ne_nil _ (ne_nil_of_isIdentifier s.first.isIdentifier)
    have hmem : c ∈ cs := by
      rw [hcs]
      cases parts <;> simp [hc]
    simpa using trim_ne_nil hmem
      (isBlank_of_isIdentChar (isIdentChar_of_isIdentifier s.first.isIdentifier c hc))
  have hall := fieldsOfDeclarators_writes hhead hfirst hwrites hblank
  rw [Java.fieldsOfStatement, stripAnnotations_of_not_mem (hnot '@' (by decide +kernel)), hparen,
    hfull, hsplit, hall, JavaType.normalizeType_text, List.map_cons, hfields]
  rfl

/-! ## Newlines in statements -/

theorem oneLine_append (cs ds : List Char) : oneLine (cs ++ ds) = oneLine cs ++ oneLine ds :=
  List.map_append

theorem isBlank_oneLine {w : List Char} (hw : ∀ c ∈ w, Unicode.isBlank c = true) :
    ∀ c ∈ oneLine w, Unicode.isBlank c = true := by
  intro c hc
  obtain ⟨d, hd, rfl⟩ := List.mem_map.1 hc
  split
  · decide
  · exact hw d hd

theorem oneLine_of_isBlank {cs : List Char} (h : ∀ c ∈ cs, Unicode.isBlank c = false) :
    oneLine cs = cs :=
  oneLine_of_not_mem fun hc => absurd (h _ hc) (by decide)

theorem oneLine_name (d : DeclaredName) : oneLine d.name = d.name :=
  oneLine_of_isBlank fun c hc => isBlank_of_isIdentChar
    (isIdentChar_of_isIdentifier d.isIdentifier c hc)

theorem oneLine_text {part : TypePart} (t : TypeTree part) : oneLine t.text = t.text :=
  oneLine_of_not_mem fun hc => absurd (TypeTree.isTypeTextChar_of_mem t _ hc) (by decide +kernel)

theorem IsDims.oneLine {k : Nat} {cs : List Char} (h : IsDims k cs) : IsDims k (oneLine cs) := by
  induction h with
  | blanks hw => exact .blanks (isBlank_oneLine hw)
  | @pair k cs w v h hw hv ih =>
    have hshape : Java.oneLine (cs ++ '[' :: (w ++ ']' :: v)) =
        Java.oneLine cs ++ '[' :: (Java.oneLine w ++ ']' :: Java.oneLine v) := by
      simp [Java.oneLine]
    rw [hshape]
    exact .pair ih (isBlank_oneLine hw) (isBlank_oneLine hv)

theorem IsModifiers.oneLine {ms : List Char} (h : IsModifiers ms) : IsModifiers (oneLine ms) := by
  induction h with
  | nil => exact .nil
  | blank hc h ih =>
    exact .blank (isBlank_oneLine (List.forall_mem_singleton.2 hc) _ (.head _)) ih
  | @word m c ms hm hc h ih =>
    have hmod : '\n' ∉ m := fun hmem => absurd (mem_modifierChars hm hmem) (by decide)
    rw [oneLine_append, oneLine_of_not_mem hmod]
    exact .word hm (isBlank_oneLine (List.forall_mem_singleton.2 hc) _ (.head _)) ih

theorem IsHead.oneLine {t : JavaType} {head : List Char} (h : IsHead t.text head) :
    IsHead t.text (oneLine head) := by
  obtain ⟨htype, ms, gap, rfl, hms, hgap, hlast⟩ := h
  refine ⟨htype, Java.oneLine ms, Java.oneLine gap, ?_, hms.oneLine, isBlank_oneLine hgap, ?_⟩
  · rw [oneLine_append, oneLine_append, oneLine_text]
  · rw [← oneLine_text t, ← oneLine_append]
    intro c hc
    rw [Java.oneLine, List.getLast?_map] at hc
    obtain ⟨d, hd, rfl⟩ := Option.map_eq_some_iff.1 hc
    split
    · decide +kernel
    · exact hlast d hd

theorem DeclaredName.IsSpelled.oneLine {d : DeclaredName} {cs : List Char} (h : d.IsSpelled cs) :
    d.IsSpelled (oneLine cs) := by
  obtain ⟨lead, dims, rfl, hlead, hdims⟩ := h
  refine ⟨Java.oneLine lead, Java.oneLine dims, ?_, isBlank_oneLine hlead, hdims.oneLine⟩
  rw [oneLine_append, oneLine_append, oneLine_name]

theorem oneLine_intercalate (parts : List (List Char)) :
    oneLine ([','].intercalate parts) = [','].intercalate (parts.map oneLine) := by
  induction parts with
  | nil => rfl
  | cons part parts ih =>
    cases parts with
    | nil => simp
    | cons next parts =>
      simp only [List.map_cons, List.intercalate_cons_cons, oneLine_append] at ih ⊢
      rw [ih]
      rfl

/-- A text of a statement stays one if its newlines become spaces. -/
theorem FieldStatement.IsSpelled.oneLine {s : FieldStatement} {cs : List Char}
    (h : s.IsSpelled cs) : s.IsSpelled (oneLine cs) := by
  obtain ⟨head, dims, parts, rfl, hhead, hdims, hparts⟩ := h
  refine ⟨Java.oneLine head, Java.oneLine dims, parts.map Java.oneLine, ?_, hhead.oneLine,
    hdims.oneLine, ?_⟩
  · rw [oneLine_intercalate, List.map_cons, oneLine_append, oneLine_append, oneLine_name]
  · exact List.forall₂_map_right_iff.2 (hparts.imp fun _ _ => DeclaredName.IsSpelled.oneLine)

/-! ## Classes -/

theorem words_of_isBlank {w : List Char} (hw : ∀ c ∈ w, Unicode.isBlank c = true) : words w = [] := by
  rw [← List.append_nil w, words_blanks hw]
  rfl

/-- A word is read up to the blanks after it. -/
theorem words_word {w gap : List Char} (hne : w ≠ []) (hw : ∀ c ∈ w, isIdentChar c = true)
    (hgap : ∀ c ∈ gap, Unicode.isBlank c = true) : words (w ++ gap) = [w] := by
  have hpiece : ∀ c ∈ w, (!isIdentChar c) = false := fun c hc => by rw [hw c hc]; rfl
  cases gap with
  | nil => rw [List.append_nil, words, Text.piecesBy_self hpiece hne]
  | cons c gap =>
    have hc : (!isIdentChar c) = true := by rw [isIdentChar_of_isBlank (hgap c (.head _))]; rfl
    rw [words, Text.piecesBy_append hpiece hne hc]
    exact congrArg _ (words_of_isBlank fun d hd => hgap d (.tail _ hd))

/-- The header of a class: blanks, the keyword, blanks, the name, and blanks. -/
def IsClassHeader (name : Word) (cs : List Char) : Prop :=
  ∃ lead gap after, cs = lead ++ ("class".toList ++ (gap ++ (name.chars ++ after))) ∧ gap ≠ [] ∧
    (∀ c ∈ lead, Unicode.isBlank c = true) ∧ (∀ c ∈ gap, Unicode.isBlank c = true) ∧
    ∀ c ∈ after, Unicode.isBlank c = true

namespace IsClassHeader

variable {name : Word} {cs : List Char}

theorem isFieldChar_of_mem (h : IsClassHeader name cs) : ∀ c ∈ cs, isFieldChar c = true := by
  obtain ⟨lead, gap, after, rfl, -, hlead, hgap, hafter⟩ := h
  intro c hc
  simp only [List.mem_append] at hc
  rcases hc with hc | hc | hc | hc | hc
  · exact isFieldChar_of_isBlank (hlead c hc)
  · have hall : "class".toList.all isFieldChar = true := by decide +kernel
    exact List.all_eq_true.1 hall c hc
  · exact isFieldChar_of_isBlank (hgap c hc)
  · exact isFieldChar_of_isIdentChar (name.ident c hc)
  · exact isFieldChar_of_isBlank (hafter c hc)

theorem oneLine (h : IsClassHeader name cs) : IsClassHeader name (oneLine cs) := by
  obtain ⟨lead, gap, after, rfl, hne, hlead, hgap, hafter⟩ := h
  have hname : Java.oneLine name.chars = name.chars :=
    oneLine_of_isBlank fun c hc => isBlank_of_isIdentChar (name.ident c hc)
  refine ⟨Java.oneLine lead, Java.oneLine gap, Java.oneLine after, ?_, by simpa [Java.oneLine],
    isBlank_oneLine hlead, isBlank_oneLine hgap, isBlank_oneLine hafter⟩
  rw [oneLine_append, oneLine_append, oneLine_append, oneLine_append, hname]
  rfl

theorem typeKeyword? (h : IsClassHeader name cs) : typeKeyword? cs = some .classBody := by
  have hnot : ∀ d : Char, isFieldChar d = false → d ∉ cs := by
    intro d hd hmem
    exact Unicode.ne_of_class (h.isFieldChar_of_mem d hmem) hd rfl
  rw [Java.typeKeyword?, stripAnnotations_of_not_mem (hnot '@' (by decide +kernel)),
    before_of_not_mem (hnot '(' (by decide +kernel))]
  obtain ⟨lead, gap, after, rfl, hne, hlead, hgap, hafter⟩ := h
  have hclass : ∀ c ∈ "class".toList, (!isIdentChar c) = false := by
    have hall : "class".toList.all isIdentChar = true := by decide +kernel
    exact fun c hc => by rw [List.all_eq_true.1 hall c hc]; rfl
  cases gap with
  | nil => exact absurd rfl hne
  | cons c gap =>
    have hc : (!isIdentChar c) = true := by rw [isIdentChar_of_isBlank (hgap c (.head _))]; rfl
    have hwords : words ("class".toList ++ c :: (gap ++ (name.chars ++ after))) =
        ["class".toList, name.chars] := by
      rw [words, Text.piecesBy_append hclass (by decide) hc]
      refine congrArg _ ((words_blanks (fun d hd => hgap d (.tail _ hd)) _).trans ?_)
      exact words_word name.ne_nil name.ident hafter
    rw [words_blanks hlead, List.cons_append, hwords]
    rfl

end IsClassHeader

/-- The text is a class of that name whose body is texts of the statements, each ended by a
semicolon. -/
def IsClassText (name : Word) (ss : List FieldStatement) (cs : List Char) : Prop :=
  ∃ header texts last tail, cs = (header ++ ['\x7b']) ++ (texts.flatMap (· ++ [';']) ++
      (last ++ '\x7d' :: tail)) ∧ IsClassHeader name header ∧
    List.Forall₂ FieldStatement.IsSpelled ss texts ∧
    (∀ c ∈ last, Unicode.isBlank c = true) ∧ ∀ c ∈ tail, Unicode.isBlank c = true

theorem openParens_of_isFieldChar {cs : List Char} (h : ∀ c ∈ cs, isFieldChar c = true) :
    openParens cs = 0 :=
  openParens_of_not_mem (fun hc => absurd (h _ hc) (by decide +kernel))
    (fun hc => absurd (h _ hc) (by decide +kernel))

theorem IsClassHeader.leads {name : Word} {cs : List Char} (h : IsClassHeader name cs) :
    Leads AtTop (cs ++ ['\x7b']) (InClass []) := by
  have hchars := h.isFieldChar_of_mem
  have hclean : Cleans cs cs := cleans_plain fun c hc => isPlain_of_isFieldChar (hchars c hc)
  refine ⟨cs ++ ['\x7b'], hclean.append (cleans_char rfl), fun s hs => ?_⟩
  have hin : s.inStatement = true := by rw [Scanner.inStatement, hs.scopes]
  have hinner := scans_inner (fun c hc => isInner_of_isFieldChar (hchars c hc)) hin
  -- blanks that were read before belong to the header
  have hheader : IsClassHeader name (s.statement.reverse ++ Java.oneLine cs) := by
    obtain ⟨lead, gap, after, heq, hne, hlead, hgap, hafter⟩ := h.oneLine
    refine ⟨s.statement.reverse ++ lead, gap, after, by rw [heq]; simp, hne, fun c hc => ?_, hgap,
      hafter⟩
    exact (List.mem_append.1 hc).elim (fun hc => hs.statement c (List.mem_reverse.1 hc)) (hlead c)
  have hopen : Scans ['\x7b'] { s with statement := (Java.oneLine cs).reverse ++ s.statement }
      { s with scopes := [.type false], statement := [] } := by
    refine scans_classOpen hs.scopes ?_ ?_
    · simpa using openParens_of_isFieldChar hheader.isFieldChar_of_mem
    · simpa using hheader.typeKeyword?
  refine ⟨_, ⟨?_, ?_, ?_⟩, hinner.append hopen⟩
  · rfl
  · exact hs.fields
  · simp

/-- Blanks before a text of a statement belong to it. -/
theorem FieldStatement.IsSpelled.blanks {s : FieldStatement} {cs w : List Char}
    (h : s.IsSpelled cs) (hw : ∀ c ∈ w, Unicode.isBlank c = true) : s.IsSpelled (w ++ cs) := by
  obtain ⟨head, dims, parts, rfl, ⟨htype, ms, gap, rfl, hms, hgap, hlast⟩, hdims, hparts⟩ := h
  refine ⟨w ++ (ms ++ (s.type.text ++ gap)), dims, parts, ?_,
    ⟨htype, w ++ ms, gap, by simp, hms.blanks hw, hgap, hlast⟩, hdims, hparts⟩
  cases parts <;> simp

/-- A statement of a class adds its fields. -/
theorem FieldStatement.IsSpelled.leads {s : FieldStatement} {cs : List Char} (h : s.IsSpelled cs)
    (ds : List FieldDecl) : Leads (InClass ds) (cs ++ [';']) (InClass (ds ++ s.fields)) := by
  have hchars := h.isFieldChar_of_mem
  have hclean : Cleans cs cs := cleans_plain fun c hc => isPlain_of_isFieldChar (hchars c hc)
  refine ⟨cs ++ [';'], hclean.append (cleans_char rfl), fun t ht => ?_⟩
  have hin : t.inStatement = true := by rw [Scanner.inStatement, ht.scopes]
  have hinner := scans_inner (fun c hc => isInner_of_isFieldChar (hchars c hc)) hin
  have hfields := (h.oneLine.blanks fun c hc =>
    ht.statement c (List.mem_reverse.1 hc)).fieldsOfStatement
  have hend := scans_memberEnd
    (s := { t with statement := (Java.oneLine cs).reverse ++ t.statement }) ht.scopes
  rw [List.reverse_append, List.reverse_reverse, hfields] at hend
  refine ⟨_, ⟨?_, ?_, ?_⟩, hinner.append hend⟩
  · exact ht.scopes
  · simp [ht.fields]
  · simp

theorem leads_statements {ss : List FieldStatement} {texts : List (List Char)}
    (h : List.Forall₂ FieldStatement.IsSpelled ss texts) (ds : List FieldDecl) :
    Leads (InClass ds) (texts.flatMap (· ++ [';'])) (InClass (ds ++ ss.flatMap (·.fields))) := by
  induction h generalizing ds with
  | nil => simpa using Leads.nil (InClass ds)
  | cons hs h ih =>
    simpa using (hs.leads ds).append (ih _)

/-- Blanks may stand around the brace that closes the class. -/
theorem leads_close {last tail : List Char} (hlast : ∀ c ∈ last, Unicode.isBlank c = true)
    (htail : ∀ c ∈ tail, Unicode.isBlank c = true) (ds : List FieldDecl) :
    Leads (InClass ds) (last ++ '\x7d' :: tail) (AtEnd ds) := by
  have hblanks : ∀ {w : List Char}, (∀ c ∈ w, Unicode.isBlank c = true) →
      ∀ c ∈ w, isFieldChar c = true := fun hw c hc => isFieldChar_of_isBlank (hw c hc)
  have hclean : ∀ {w : List Char}, (∀ c ∈ w, Unicode.isBlank c = true) → Cleans w w :=
    fun hw => cleans_plain fun c hc => isPlain_of_isFieldChar (hblanks hw c hc)
  refine ⟨last ++ (['\x7d'] ++ tail), (hclean hlast).append ((cleans_char rfl).append
    (hclean htail)), fun s hs => ?_⟩
  have hin : s.inStatement = true := by rw [Scanner.inStatement, hs.scopes]
  have hinner := scans_inner (fun c hc => isInner_of_isFieldChar (hblanks hlast c hc)) hin
  have hclose : Scans ['\x7d'] { s with statement := (oneLine last).reverse ++ s.statement }
      { s with scopes := [], statement := [] } := by
    refine scans_classClose hs.scopes (openParens_of_isFieldChar (hblanks fun c hc => ?_))
    rw [List.mem_reverse, List.mem_append, List.mem_reverse] at hc
    exact hc.elim (isBlank_oneLine hlast c) (hs.statement c)
  have hafter := scans_inner (s := { s with scopes := [], statement := [] })
    (fun c hc => isInner_of_isFieldChar (hblanks htail c hc)) rfl
  refine ⟨_, ⟨?_, ?_⟩, hinner.append (hclose.append hafter)⟩
  · rfl
  · exact hs.fields

/-- A type with a wildcard in its arguments, and two names. -/
def mapStatement : FieldStatement where
  type := .generic ⟨wordOf "Map" (by decide +kernel), []⟩
    (.more (.exact (.plain ⟨wordOf "String" (by decide +kernel), []⟩ 0))
      (.single (.bounded .lower (.plain ⟨wordOf "int" (by decide +kernel), []⟩ 1)))) 1
  not_modifier := by decide
  first := ⟨['a'], by decide +kernel, 0⟩
  more := [⟨['b'], by decide +kernel, 1⟩]

theorem mapStatement_isSpelled :
    mapStatement.IsSpelled "\n  private static Map<String, ? super int[]>[] a, b[]".toList := by
  have hms : IsModifiers "\n  private static ".toList :=
    .blanks (w := "\n  ".toList) (List.all_eq_true.1 (by decide))
      (.word (m := "private".toList) (c := ' ') (by decide) (by decide)
        (.word (m := "static".toList) (c := ' ') (by decide) (by decide) .nil))
  have hhead : IsHead mapStatement.type.text
      "\n  private static Map<String, ? super int[]>[] ".toList :=
    ⟨mapStatement.type.isTypeSpelling_text mapStatement.not_modifier, _, [' '],
      String.toList_ofList, hms, isBlank_of_mem_space, fun c hc => Option.some.inj hc ▸ by decide +kernel⟩
  exact ⟨_, [], [" b[]".toList], String.toList_ofList, hhead, .blanks (by simp),
    .cons ⟨[' '], "[]".toList, rfl, isBlank_of_mem_space, isDims_bracketPairs 1⟩ .nil⟩

/-- A class of field statements declares their fields in order, each with the type of its statement
and its own array brackets. -/
theorem fieldsOfSource_declarations {source : String} {name : Word} {ss : List FieldStatement}
    (h : IsClassText name ss source.toList) :
    fieldsOfSource source = .ok (ss.flatMap (·.fields)) := by
  obtain ⟨header, texts, last, tail, hsource, hheader, htexts, hlast, htail⟩ := h
  refine fieldsOfSource_of_leads ?_
  rw [hsource]
  exact hheader.leads.append ((leads_statements htexts []).append (leads_close hlast htail _))

theorem fieldsOfSource_declarations_map :
    IsClassText (wordOf "C" (by decide +kernel)) [mapStatement]
        "class C \x7b\n  private static Map<String, ? super int[]>[] a, b[];\n\x7d\n".toList ∧
      fieldsOfSource
          "class C \x7b\n  private static Map<String, ? super int[]>[] a, b[];\n\x7d\n" =
        .ok [⟨"a", "Map<String, ? super int[]>[]"⟩, ⟨"b", "Map<String, ? super int[]>[][]"⟩] := by
  have htext : IsClassText (wordOf "C" (by decide +kernel)) [mapStatement]
      "class C \x7b\n  private static Map<String, ? super int[]>[] a, b[];\n\x7d\n".toList :=
    ⟨"class C ".toList, _, ['\n'], ['\n'], String.toList_ofList,
      ⟨[], [' '], [' '], rfl, by decide, by simp, isBlank_of_mem_space, isBlank_of_mem_space⟩,
      .cons mapStatement_isSpelled .nil, by simp; decide, by simp; decide⟩
  exact ⟨htext, fieldsOfSource_declarations htext⟩

end EntityForge.Java
