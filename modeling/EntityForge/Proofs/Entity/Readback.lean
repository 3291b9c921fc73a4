import EntityForge.Entity.Render
import EntityForge.Proofs.Java.Reading

/-!
# Rendered entities are read back

The entity file of an entity is an annotated class whose members are annotated private fields, so
the reader of sources finds a field for each member: plain members first, then the entities it
refers to, then the lists of entities that refer to it (`fieldsOfSource_entity`).
`Entity.IsReadable` states what the names and texts of the entity must be for that.
-/

namespace EntityForge

open Java

/-! ## Lines -/

/-- The characters of a file with these lines. -/
def text (lines : List String) : List Char :=
  lines.flatMap fun l => l.toList ++ ['\n']

theorem toList_fileOfLines (lines : List String) : (fileOfLines lines).toList = text lines := by
  unfold fileOfLines text
  induction lines with
  | nil => rfl
  | cons l lines ih => simp [String.join_cons, ih]

theorem text_append (ls ms : List String) : text (ls ++ ms) = text ls ++ text ms :=
  List.flatMap_append

theorem text_flatMap {α : Type} (xs : List α) (f : α → List String) :
    text (xs.flatMap f) = xs.flatMap fun x => text (f x) :=
  List.flatMap_assoc

/-- An empty line, annotations and a statement, all on lines of the same indentation. -/
theorem text_annotated (indent : String) (as : List String) (body last : String) :
    text ("" :: (as.map (indent ++ ·) ++ [indent ++ body ++ last])) =
      annotated ('\n' :: indent.toList) (as.map (·.toList)) body.toList ++
        (last.toList ++ ['\n']) := by
  have hlines : ∀ ls : List String, text ("" :: ls) = '\n' :: text ls := fun _ => rfl
  rw [hlines]
  induction as with
  | nil => simp [text, annotated]
  | cons a as ih =>
    rw [List.map_cons, List.map_cons, annotated_cons, List.append_assoc, ← ih]
    simp [text]

/-! ## Annotations -/

/-- The text can stand between double quotes as it is. -/
def isLiteralText (cs : List Char) : Bool :=
  !cs.contains '"' && !cs.contains '\\'

theorem annotatesAs_marker {name : List Char} (hname : isIdentifier name = true)
    (hint : name ≠ "interface".toList) : AnnotatesAs ('@' :: name) ('@' :: name) := by
  have hbody : ∀ c ∈ '@' :: name, isPlain c = true ∧ isInner c = true ∧ c ≠ '\n' := by
    intro c hc
    rcases List.mem_cons.1 hc with rfl | hc
    · decide
    · have hchar := isBodyChar_of_mem hname c hc
      exact ⟨isPlain_of_isBodyChar hchar, isInner_of_isBodyChar hchar,
        Unicode.ne_of_class hchar (by decide)⟩
  refine ⟨cleans_plain fun c hc => (hbody c hc).1, ?_, fun c hc => (hbody c hc).2.1⟩
  rw [oneLine_of_not_mem fun hc => (hbody _ hc).2.2 rfl]
  refine ⟨name, [], by simp, fun c hc => ?_, hint, .inl rfl⟩
  simp [isAnnotationChar, isIdentChar_of_isIdentifier hname c hc]

/-- An annotation with arguments that are cleaned to a text without parentheses. -/
theorem annotatesAs_call {name inner out : List Char} (hname : isIdentifier name = true)
    (hint : name ≠ "interface".toList) (hinner : Cleans inner out)
    (hout : ∀ c ∈ out, isInner c = true ∧ c ≠ '(' ∧ c ≠ ')') :
    AnnotatesAs ('@' :: (name ++ '(' :: (inner ++ [')'])))
      ('@' :: (name ++ '(' :: (out ++ [')']))) := by
  obtain ⟨hclean, -, hmarks⟩ := annotatesAs_marker hname hint
  have hopen : Cleans ['('] ['('] := cleans_char (by decide)
  have hclose : Cleans [')'] [')'] := cleans_char (by decide)
  refine ⟨?_, ?_, fun c hc => ?_⟩
  · exact hclean.append (hopen.append (hinner.append hclose))
  · refine ⟨name, '(' :: (oneLine out ++ [')']), ?_, fun c hc => ?_, hint, .inr ⟨_, rfl, ?_⟩⟩
    · have hline : oneLine name = name :=
        oneLine_of_not_mem fun hc => absurd (isBodyChar_of_mem hname _ hc) (by decide)
      have hparts : oneLine ('@' :: (name ++ '(' :: (out ++ [')']))) =
          '@' :: (oneLine name ++ '(' :: (oneLine out ++ [')'])) := by
        simp [oneLine]
      rw [hparts, hline]
    · simp [isAnnotationChar, isIdentChar_of_isIdentifier hname c hc]
    · have hparen : ∀ p : Char, p ≠ ' ' → p ∉ out → p ∉ oneLine out := by
        intro p hp hmem hc
        obtain ⟨d, hd, heq⟩ := List.mem_map.1 hc
        split at heq
        · exact hp heq.symm
        · exact hmem (heq ▸ hd)
      exact ⟨hparen '(' (by decide) fun hc => (hout _ hc).2.1 rfl,
        hparen ')' (by decide) fun hc => (hout _ hc).2.2 rfl⟩
  · have hc : c ∈ ('@' :: name) ++ '(' :: (out ++ [')']) := hc
    rcases List.mem_append.1 hc with hc | hc
    · exact hmarks c hc
    rcases List.mem_cons.1 hc with rfl | hc
    · rfl
    rcases List.mem_append.1 hc with hc | hc
    · exact (hout c hc).1
    · exact List.mem_singleton.1 hc ▸ rfl

/-- An annotation with one argument, a text. -/
theorem annotatesAs_literal {name key s : List Char} (hname : isIdentifier name = true)
    (hint : name ≠ "interface".toList)
    (hkey : key.all isBodyChar = true) (hs : isLiteralText s = true) : ∃ out,
      AnnotatesAs ('@' :: (name ++ '(' :: (key ++ '"' :: (s ++ ['"']) ++ [')']))) out := by
  have hs' : '"' ∉ s ∧ '\\' ∉ s := by
    simpa [isLiteralText] using hs
  have hkey' := List.all_eq_true.1 hkey
  have hclean := (cleans_plain fun c hc => isPlain_of_isBodyChar (hkey' c hc)).append
    (cleans_literal hs'.1 hs'.2)
  refine ⟨_, annotatesAs_call hname hint hclean fun c hc => ?_⟩
  simp only [List.mem_append, List.mem_filter, List.mem_cons, List.not_mem_nil, or_false,
    decide_eq_true_eq] at hc
  rcases hc with hc | ⟨-, rfl⟩ | rfl | rfl
  · exact ⟨isInner_of_isBodyChar (hkey' c hc), Unicode.ne_of_class (hkey' c hc) (by decide),
      Unicode.ne_of_class (hkey' c hc) (by decide)⟩
  all_goals decide

/-! ## Members -/

/-- The lines of a private member with its annotations. -/
def memberLines (annotations : List String) (type name : String) : List String :=
  "" :: (annotations.map ("    " ++ ·) ++ ["    " ++ ("private " ++ type ++ " " ++ name) ++ ";"])

theorem leads_memberLines {annotations : List String} {type name : String}
    (ht : IsTypeText type.toList) (hchars : ∀ c ∈ type.toList, isBodyChar c = true)
    (hname : isIdentifier name.toList = true)
    (has : ∀ a ∈ annotations, ∃ out, AnnotatesAs a.toList out) (ds : List FieldDecl) :
    Leads (InClass ds) (text (memberLines annotations type name))
      (InClass (ds ++ [⟨name, type⟩])) := by
  have hbody : ("private " ++ type ++ " " ++ name).toList =
      "private ".toList ++ (type.toList ++ ' ' :: name.toList) := by
    simp
  have hall : ∀ a ∈ annotations.map (·.toList), ∃ out, AnnotatesAs a out := by
    simpa using has
  have hgap : ∀ c ∈ '\n' :: "    ".toList, c = ' ' ∨ c = '\n' := by simp
  have hlead := leads_member (List.cons_ne_nil _ _) hgap ht hchars hname hall ds
  rw [String.ofList_toList, String.ofList_toList] at hlead
  rw [memberLines, text_annotated, hbody]
  exact hlead

theorem annotates_marker (name : String) (hname : isIdentifier name.toList = true)
    (hint : name.toList ≠ "interface".toList) : ∃ out, AnnotatesAs ("@" ++ name).toList out := by
  rw [String.toList_append]
  exact ⟨_, annotatesAs_marker hname hint⟩

theorem annotates_call (name inner : String) (hname : isIdentifier name.toList = true)
    (hint : name.toList ≠ "interface".toList)
    (hinner : inner.toList.all isBodyChar = true) :
    ∃ out, AnnotatesAs ("@" ++ name ++ "(" ++ inner ++ ")").toList out := by
  have hshape : ("@" ++ name ++ "(" ++ inner ++ ")").toList =
      '@' :: (name.toList ++ '(' :: (inner.toList ++ [')'])) := by
    simp
  have hinner' := List.all_eq_true.1 hinner
  have hclean := cleans_plain fun c hc => isPlain_of_isBodyChar (hinner' c hc)
  rw [hshape]
  refine ⟨_, annotatesAs_call hname hint hclean fun c hc => ⟨?_, ?_, ?_⟩⟩
  · exact isInner_of_isBodyChar (hinner' c hc)
  · exact Unicode.ne_of_class (hinner' c hc) (by decide)
  · exact Unicode.ne_of_class (hinner' c hc) (by decide)

theorem annotates_literal (name key s : String) (hname : isIdentifier name.toList = true)
    (hint : name.toList ≠ "interface".toList)
    (hkey : key.toList.all isBodyChar = true) (hs : isLiteralText s.toList = true) :
    ∃ out, AnnotatesAs ("@" ++ name ++ "(" ++ key ++ "\"" ++ s ++ "\")").toList out := by
  have hshape : ("@" ++ name ++ "(" ++ key ++ "\"" ++ s ++ "\")").toList =
      '@' :: (name.toList ++ '(' :: (key.toList ++ '"' :: (s.toList ++ ['"']) ++ [')'])) := by
    simp
  rw [hshape]
  exact annotatesAs_literal hname hint hkey hs

/-- The annotations of a plain member. -/
def PlainField.annotations (f : PlainField) (generated : Bool) : List String :=
  (if f.isId then ["@Id"] else []) ++
    (if f.isId && generated then ["@GeneratedValue(strategy = GenerationType.IDENTITY)"] else []) ++
    ["@Column(name = \"" ++ f.columnName ++ "\")"]

theorem PlainField.lines_eq (f : PlainField) (generated : Bool) :
    f.lines generated = memberLines (f.annotations generated) f.target.name f.fieldName := by
  have hcolumn : "    @Column(name = \"" ++ f.columnName ++ "\")" =
      "    " ++ ("@Column(name = \"" ++ f.columnName ++ "\")") :=
    String.toList_inj.1 (by simp)
  have hmember : "    private " ++ f.target.name ++ " " ++ f.fieldName ++ ";" =
      "    " ++ ("private " ++ f.target.name ++ " " ++ f.fieldName) ++ ";" :=
    String.toList_inj.1 (by simp)
  unfold lines memberLines annotations
  rw [hcolumn, hmember]
  cases f.isId <;> cases generated <;> rfl

theorem ManyToOne.lines_eq (r : ManyToOne) : r.lines =
    memberLines
      ["@ManyToOne(fetch = FetchType.LAZY)", "@JoinColumn(name = \"" ++ r.joinColumn ++ "\")"]
      r.targetClass r.fieldName := by
  have hcolumn : "    @JoinColumn(name = \"" ++ r.joinColumn ++ "\")" =
      "    " ++ ("@JoinColumn(name = \"" ++ r.joinColumn ++ "\")") :=
    String.toList_inj.1 (by simp)
  have hmember : "    private " ++ r.targetClass ++ " " ++ r.fieldName ++ ";" =
      "    " ++ ("private " ++ r.targetClass ++ " " ++ r.fieldName) ++ ";" :=
    String.toList_inj.1 (by simp)
  rw [lines, hcolumn, hmember]
  rfl

theorem OneToMany.lines_eq (r : OneToMany) : r.lines =
    memberLines ["@OneToMany(mappedBy = \"" ++ r.mappedBy ++ "\")"]
      ("List<" ++ r.targetClass ++ ">") r.fieldName := by
  have hmapped : "    @OneToMany(mappedBy = \"" ++ r.mappedBy ++ "\")" =
      "    " ++ ("@OneToMany(mappedBy = \"" ++ r.mappedBy ++ "\")") :=
    String.toList_inj.1 (by simp)
  have hmember : "    private List<" ++ r.targetClass ++ "> " ++ r.fieldName ++ ";" =
      "    " ++ ("private " ++ ("List<" ++ r.targetClass ++ ">") ++ " " ++ r.fieldName) ++ ";" :=
    String.toList_inj.1 (by simp)
  rw [lines, hmapped, hmember]
  rfl

/-! ## Entities -/

/-- The text is made of identifiers and dots. -/
def isQualifiedName (cs : List Char) : Bool :=
  cs.all fun c => isIdentChar c || c == '.'

/-- The names of the entity are identifiers, its types are no modifiers, and its texts can stand
between double quotes as they are. -/
structure Entity.IsReadable (e : Entity) : Prop where
  packageName : isQualifiedName e.packageName.toList = true
  imports : ∀ i ∈ e.imports, isQualifiedName i.toList = true
  tableName : isLiteralText e.tableName.toList = true
  className : isIdentifier e.className.toList = true
  fields : ∀ f ∈ e.fields,
    isIdentifier f.fieldName.toList = true ∧ isLiteralText f.columnName.toList = true
  manyToOne : ∀ r ∈ e.manyToOne,
    isIdentifier r.fieldName.toList = true ∧ isIdentifier r.targetClass.toList = true ∧
      r.targetClass.toList ∉ modifiers ∧ isLiteralText r.joinColumn.toList = true
  oneToMany : ∀ r ∈ e.oneToMany,
    isIdentifier r.fieldName.toList = true ∧ isIdentifier r.targetClass.toList = true ∧
      isLiteralText r.mappedBy.toList = true

theorem leads_plainField {f : PlainField} (hname : isIdentifier f.fieldName.toList = true)
    (hcolumn : isLiteralText f.columnName.toList = true) (generated : Bool) (ds : List FieldDecl) :
    Leads (InClass ds) (text (f.lines generated))
      (InClass (ds ++ [⟨f.fieldName, f.target.name⟩])) := by
  have htype : isIdentifier f.target.name.toList = true := by
    cases f.target <;> decide +kernel
  have hmodifier : f.target.name.toList ∉ modifiers := by
    cases f.target <;> decide
  rw [f.lines_eq]
  refine leads_memberLines (isTypeText_of_isIdentifier htype hmodifier) (isBodyChar_of_mem htype)
    hname (fun a ha => ?_) ds
  simp only [PlainField.annotations, List.mem_append, List.mem_singleton] at ha
  rcases ha with (ha | ha) | rfl
  · split at ha
    · obtain rfl := List.mem_singleton.1 ha
      exact annotates_marker "Id" (by decide +kernel) (by decide)
    · cases ha
  · split at ha
    · obtain rfl := List.mem_singleton.1 ha
      exact annotates_call "GeneratedValue" "strategy = GenerationType.IDENTITY" (by decide +kernel)
        (by decide) (by decide)
    · cases ha
  · exact annotates_literal "Column" "name = " f.columnName (by decide +kernel) (by decide)
      (by decide) hcolumn

theorem leads_manyToOne {r : ManyToOne} (hname : isIdentifier r.fieldName.toList = true)
    (htype : isIdentifier r.targetClass.toList = true)
    (hmodifier : r.targetClass.toList ∉ modifiers)
    (hcolumn : isLiteralText r.joinColumn.toList = true) (ds : List FieldDecl) :
    Leads (InClass ds) (text r.lines) (InClass (ds ++ [⟨r.fieldName, r.targetClass⟩])) := by
  rw [r.lines_eq]
  refine leads_memberLines (isTypeText_of_isIdentifier htype hmodifier) (isBodyChar_of_mem htype)
    hname (fun a ha => ?_) ds
  rcases List.mem_cons.1 ha with rfl | ha
  · exact annotates_call "ManyToOne" "fetch = FetchType.LAZY" (by decide +kernel) (by decide)
      (by decide)
  · obtain rfl := List.mem_singleton.1 ha
    exact annotates_literal "JoinColumn" "name = " r.joinColumn (by decide +kernel) (by decide)
      (by decide) hcolumn

theorem leads_oneToMany {r : OneToMany} (hname : isIdentifier r.fieldName.toList = true)
    (htype : isIdentifier r.targetClass.toList = true)
    (hmapped : isLiteralText r.mappedBy.toList = true) (ds : List FieldDecl) :
    Leads (InClass ds) (text r.lines)
      (InClass (ds ++ [⟨r.fieldName, "List<" ++ r.targetClass ++ ">"⟩])) := by
  have hlist : ("List<" ++ r.targetClass ++ ">").toList =
      "List<".toList ++ (r.targetClass.toList ++ ['>']) := by
    simp
  have hchars : ∀ c ∈ "List<".toList ++ (r.targetClass.toList ++ ['>']), isBodyChar c = true := by
    intro c hc
    simp only [List.mem_append, List.mem_singleton] at hc
    rcases hc with hc | hc | rfl
    · have hword : "List<".toList.all isBodyChar = true := by decide
      exact List.all_eq_true.1 hword c hc
    · exact isBodyChar_of_mem htype c hc
    · decide
  rw [r.lines_eq]
  refine leads_memberLines (hlist ▸ isTypeText_list htype) (hlist ▸ hchars) hname ?_ ds
  intro a ha
  obtain rfl := List.mem_singleton.1 ha
  exact annotates_literal "OneToMany" "mappedBy = " r.mappedBy (by decide +kernel) (by decide)
    (by decide) hmapped

theorem isBodyChar_of_isQualifiedName {cs : List Char} (h : isQualifiedName cs = true) :
    cs.all isBodyChar = true := by
  rw [List.all_eq_true]
  intro c hc
  have hchar := List.all_eq_true.1 h c hc
  simp only [Bool.or_eq_true, beq_iff_eq] at hchar
  rcases hchar with hchar | rfl
  · exact isBodyChar_of_isIdentChar hchar
  · decide

/-- A line with a statement at the top of a file. -/
theorem leads_topLine {line : String} {cs : List Char} (hline : line.toList = cs ++ [';'])
    (h : cs.all isBodyChar = true) : Leads AtTop (line.toList ++ ['\n']) AtTop := by
  have hchars := List.all_eq_true.1 h
  have hlead := leads_topStatement (fun c hc => isPlain_of_isBodyChar (hchars c hc))
    (fun c hc => isInner_of_isBodyChar (hchars c hc))
  rw [hline, List.append_assoc]
  exact hlead

theorem leads_importLine (name : String) (h : name.toList.all isBodyChar = true) :
    Leads AtTop (("import " ++ name ++ ";").toList ++ ['\n']) AtTop := by
  have hline : ("import " ++ name ++ ";").toList = ("import ".toList ++ name.toList) ++ [';'] := by
    simp
  have hword : "import ".toList.all isBodyChar = true := by decide
  refine leads_topLine hline ?_
  rw [List.all_append, hword, h]
  rfl

theorem leads_packageLine {name : String} (h : isQualifiedName name.toList = true) :
    Leads AtTop (("package " ++ name ++ ".entity;").toList ++ ['\n']) AtTop := by
  have hline : ("package " ++ name ++ ".entity;").toList =
      ("package ".toList ++ (name.toList ++ ".entity".toList)) ++ [';'] := by
    simp
  have hword : "package ".toList.all isBodyChar = true := by decide
  have hend : ".entity".toList.all isBodyChar = true := by decide
  refine leads_topLine hline ?_
  rw [List.all_append, List.all_append, hword, isBodyChar_of_isQualifiedName h, hend]
  rfl

theorem leads_emptyLine : Leads AtTop ("".toList ++ ['\n']) AtTop := by
  refine ⟨['\n'], cleans_char (by decide), fun s hs => ?_⟩
  have hin : s.inStatement = true := by rw [Scanner.inStatement, hs.scopes]
  refine ⟨{ s with statement := ' ' :: s.statement }, ⟨hs.scopes, hs.fields, ?_⟩, scans_newline hin⟩
  exact List.forall_mem_cons.2 ⟨by decide, hs.statement⟩

namespace Entity

/-- The lines before the class. -/
def topLines (e : Entity) : List String :=
  ["package " ++ e.packageName ++ ".entity;", "", "import jakarta.persistence.*;",
    "import lombok.Getter;", "import lombok.Setter;"] ++
    e.imports.map (fun i => "import " ++ i ++ ";")

/-- The annotations of the class. -/
def annotations (e : Entity) : List String :=
  ["@Entity", "@Table(name = \"" ++ e.tableName ++ "\")", "@Getter", "@Setter"]

theorem entityLines_eq (e : Entity) : e.entityLines =
    e.topLines ++ ("" :: (e.annotations.map ("" ++ ·) ++
      ["" ++ ("public class " ++ e.className ++ " ") ++ "\x7b"])) ++
      e.fields.flatMap (·.lines e.hasIncrement) ++ e.manyToOne.flatMap (·.lines) ++
        e.oneToMany.flatMap (·.lines) ++ ["\x7d"] := by
  have hheader : "public class " ++ e.className ++ " \x7b" =
      "" ++ ("public class " ++ e.className ++ " ") ++ "\x7b" :=
    String.toList_inj.1 (by simp)
  have htable : "" ++ ("@Table(name = \"" ++ e.tableName ++ "\")") =
      "@Table(name = \"" ++ e.tableName ++ "\")" := String.empty_append
  unfold entityLines topLines annotations
  simp only [List.map_cons, List.map_nil, htable, hheader]
  rfl

theorem IsReadable.leads_topLines {e : Entity} (h : e.IsReadable) :
    Leads AtTop (text e.topLines) AtTop := by
  refine .flatMap_invariant fun line hline => ?_
  rcases List.mem_append.1 hline with hline | hline
  · simp only [List.mem_cons, List.not_mem_nil, or_false] at hline
    rcases hline with rfl | rfl | rfl | rfl | rfl
    · exact leads_packageLine h.packageName
    · exact leads_emptyLine
    · exact leads_importLine "jakarta.persistence.*" (by decide)
    · exact leads_importLine "lombok.Getter" (by decide)
    · exact leads_importLine "lombok.Setter" (by decide)
  · obtain ⟨i, hi, rfl⟩ := List.mem_map.1 hline
    exact leads_importLine i (isBodyChar_of_isQualifiedName (h.imports i hi))

theorem IsReadable.leads_header {e : Entity} (h : e.IsReadable) :
    Leads AtTop (text ("" :: (e.annotations.map ("" ++ ·) ++
      ["" ++ ("public class " ++ e.className ++ " ") ++ "\x7b"]))) (InClass []) := by
  have hbody : ("public class " ++ e.className ++ " ").toList =
      "public class ".toList ++ (e.className.toList ++ [' ']) := by
    simp
  rw [text_annotated, hbody]
  refine leads_classHeader h.className fun a ha => ?_
  obtain ⟨s, hs, rfl⟩ := List.mem_map.1 ha
  simp only [annotations, List.mem_cons, List.not_mem_nil, or_false] at hs
  rcases hs with rfl | rfl | rfl | rfl
  · exact annotates_marker "Entity" (by decide +kernel) (by decide)
  · exact annotates_literal "Table" "name = " e.tableName (by decide +kernel) (by decide)
      (by decide) h.tableName
  · exact annotates_marker "Getter" (by decide +kernel) (by decide)
  · exact annotates_marker "Setter" (by decide +kernel) (by decide)

/-- The fields that the members of the entity declare. -/
theorem IsReadable.leads_entityLines {e : Entity} (h : e.IsReadable) :
    Leads AtTop (text e.entityLines) (AtEnd
      (e.fields.map (fun f => ⟨f.fieldName, f.target.name⟩) ++
        e.manyToOne.map (fun r => ⟨r.fieldName, r.targetClass⟩) ++
          e.oneToMany.map fun r => ⟨r.fieldName, "List<" ++ r.targetClass ++ ">"⟩)) := by
  have hfields := Leads.flatMap_members
    (fun f hf => leads_plainField (h.fields f hf).1 (h.fields f hf).2 e.hasIncrement) []
  have hmany := Leads.flatMap_members
    (fun r hr => leads_manyToOne (h.manyToOne r hr).1 (h.manyToOne r hr).2.1
      (h.manyToOne r hr).2.2.1 (h.manyToOne r hr).2.2.2)
    (e.fields.map fun f => ⟨f.fieldName, f.target.name⟩)
  have hone := Leads.flatMap_members
    (fun r hr => leads_oneToMany (h.oneToMany r hr).1 (h.oneToMany r hr).2.1 (h.oneToMany r hr).2.2)
    (e.fields.map (fun f => ⟨f.fieldName, f.target.name⟩) ++
      e.manyToOne.map fun r => ⟨r.fieldName, r.targetClass⟩)
  rw [entityLines_eq]
  simp only [text_append, text_flatMap]
  exact ((((h.leads_topLines.append h.leads_header).append hfields).append hmany).append
    hone).append (leads_classEnd _)

end Entity

/-- The reader of sources finds the members of an entity in its entity file, in order and nothing
else. -/
theorem fieldsOfSource_entity {e : Entity} (h : e.IsReadable) :
    e.files.head?.map (fun file => fieldsOfSource file.content) = some (.ok
      (e.fields.map (fun f => ⟨f.fieldName, f.target.name⟩) ++
        e.manyToOne.map (fun r => ⟨r.fieldName, r.targetClass⟩) ++
          e.oneToMany.map fun r => ⟨r.fieldName, "List<" ++ r.targetClass ++ ">"⟩)) := by
  have hread := h.leads_entityLines
  rw [← toList_fileOfLines] at hread
  exact congrArg some (fieldsOfSource_of_leads hread)

/-- An identifier, a reference and a list, with a blank, a brace and a comment sign in the texts. -/
theorem fieldsOfSource_entity_shop :
    (Entity.files ⟨"com.shop", "my orders", "Orders", none, true, [⟨"id; \x7d", "id", .long, true⟩],
      [⟨"customer//", "Customer", "customer"⟩], [⟨"Item", "items", "orders"⟩],
      ["java.util.List"]⟩).head?.map (fun file => fieldsOfSource file.content) =
        some (.ok [⟨"id", "Long"⟩, ⟨"customer", "Customer"⟩, ⟨"items", "List<Item>"⟩]) :=
  fieldsOfSource_entity {
    packageName := by decide +kernel
    imports := by decide +kernel
    tableName := by decide +kernel
    className := by decide +kernel
    fields := by decide +kernel
    manyToOne := by decide +kernel
    oneToMany := by decide +kernel }

end EntityForge
