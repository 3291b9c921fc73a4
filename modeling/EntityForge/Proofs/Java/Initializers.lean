import EntityForge.Proofs.Java.Annotated

/-!
# Initial values

A statement with modifiers and annotations, a type and a name declares one field, and an initial
value does not change it (`fieldsOfStatement_initializer`), if the brackets of the value nest and
every comma in it is within parentheses, brackets or braces. Angle brackets do not count there: the
comma between the type arguments of a value ends the declarator
(`fieldsOfStatement_typeArguments`).

* `IsTypeSpelling`: a type as it may be spelled, with blanks between its parts.
* `IsHead`: what stands before the name of a first declarator.
* `enclose_stripAnnotations`: a value stays enclosed without the annotations in it.
-/

namespace EntityForge.Java

open Text (encloseStep enclose isEnclosed isNested)

/-! ## Types with blanks -/

/-- The character can stand in a type with blanks: in an identifier, between the parts, or as a mark
of type arguments and arrays. -/
def isSpacedTypeChar (c : Char) : Bool :=
  isIdentChar c || Unicode.isBlank c || ".,?<>[]".toList.contains c

/-- A type that may have blanks between its parts. Its first word is no modifier, unless a mark
follows it, as in the name of a package. -/
structure IsTypeSpelling (cs : List Char) : Prop where
  chars : cs.all isSpacedTypeChar = true
  enclosed : isEnclosed (declaratorBrackets false) ',' cs = true
  first : ∃ w rest, cs = w ++ rest ∧ w ≠ [] ∧ (∀ c ∈ w, isIdentChar c = true) ∧
    (∀ c ∈ rest.head?, isIdentChar c = false) ∧
    (w ∈ modifiers → ∃ c ∈ rest.head?, Unicode.isBlank c = false)
  last : ∀ c ∈ cs.getLast?, Unicode.isBlank c = false

namespace IsTypeSpelling

variable {cs : List Char}

theorem not_mem (h : IsTypeSpelling cs) {c : Char} (hc : isSpacedTypeChar c = false) : c ∉ cs := by
  intro hmem
  rw [List.all_eq_true.1 h.chars c hmem] at hc
  cases hc

theorem head_isIdentChar (h : IsTypeSpelling cs) : ∃ c rest, cs = c :: rest ∧
    isIdentChar c = true := by
  obtain ⟨w, rest, rfl, hne, hw, -⟩ := h.first
  cases w with
  | nil => exact absurd rfl hne
  | cons c w => exact ⟨c, w ++ rest, rfl, hw c (.head _)⟩

theorem words_ne_nil (h : IsTypeSpelling cs) : words cs ≠ [] := by
  obtain ⟨w, rest, rfl, hne, hw, hrest, -⟩ := h.first
  have hpiece : ∀ c ∈ w, (!isIdentChar c) = false := fun c hc => by rw [hw c hc]; rfl
  cases rest with
  | nil => simp [words, Text.piecesBy_self hpiece hne]
  | cons c rest =>
    rw [words, Text.piecesBy_append hpiece hne (by rw [hrest c rfl]; rfl)]
    exact List.cons_ne_nil _ _

/-- No modifier is stripped from a type. -/
theorem dropModifier? (h : IsTypeSpelling cs) {gap : List Char}
    (hgap : ∀ c ∈ gap, Unicode.isBlank c = true) : dropModifier? (cs ++ gap) = none := by
  obtain ⟨w, rest, rfl, hne, hw, hrest, hm⟩ := h.first
  have hall : w.all (fun c => !Unicode.isBlank c) = true :=
    List.all_eq_true.2 fun c hc => by rw [isBlank_of_isIdentChar (hw c hc)]; rfl
  refine dropModifier?_eq_none ?_
  rw [List.append_assoc]
  by_cases hmark : ∃ c ∈ rest.head?, Unicode.isBlank c = false
  · -- a mark stands in the first word, but in no modifier
    obtain ⟨c, hc, hblank⟩ := hmark
    obtain ⟨rest, rfl⟩ : ∃ r, rest = c :: r := ⟨_, List.eq_cons_of_mem_head? hc⟩
    have hchar : isSpacedTypeChar c = true := List.all_eq_true.1 h.chars c (by simp)
    have hmarks : ".,?<>[]".toList.contains c = true := by
      simpa [isSpacedTypeChar, hrest c rfl, hblank] using hchar
    have hmod : modifierChars.all (fun c => !".,?<>[]".toList.contains c) = true := by decide
    rw [List.takeWhile_append_of_pos (by simpa using hall), List.cons_append,
      List.takeWhile_cons_of_pos (by simpa using hblank)]
    intro hmem
    have hnot := List.all_eq_true.1 hmod c (mem_modifierChars hmem (by simp))
    rw [hmarks] at hnot
    cases hnot
  · have hstop : ∀ c ∈ (rest ++ gap).head?, (!Unicode.isBlank c) = false := by
      intro c hc
      rw [Bool.not_eq_false']
      cases rest with
      | nil => exact hgap c (List.mem_of_mem_head? hc)
      | cons d rest =>
        by_contra hb
        exact hmark ⟨c, hc, eq_false_of_ne_true hb⟩
    rw [Text.takeWhile_append_stop hall hstop]
    exact fun hmem => hmark (hm hmem)

end IsTypeSpelling

/-! ## First declarators -/

/-- What stands before the name of a first declarator: modifiers, the type, and blanks, which the
type needs after an identifier. -/
def IsHead (type head : List Char) : Prop :=
  IsTypeSpelling type ∧ ∃ ms gap, head = ms ++ (type ++ gap) ∧ IsModifiers ms ∧
    (∀ c ∈ gap, Unicode.isBlank c = true) ∧ ∀ c ∈ (type ++ gap).getLast?, isIdentChar c = false

namespace IsHead

variable {type head : List Char}

theorem stripModifiers (h : IsHead type head) : stripModifiers head = type := by
  obtain ⟨htype, ms, gap, rfl, hms, hgap, -⟩ := h
  obtain ⟨c, rest, rfl, hc⟩ := htype.head_isIdentChar
  have htrim : Unicode.trimStart (c :: rest ++ gap) = c :: rest ++ gap :=
    trimStart_self fun d hd => Option.some.inj hd ▸ isBlank_of_isIdentChar hc
  rw [hms.stripModifiers, stripModifiers_eq, htrim, htype.dropModifier? hgap]
  exact (congrArg _ htrim).trans (trimEnd_append hgap htype.last)

/-- Marks that are in no type are not before a name. -/
theorem not_mem (h : IsHead type head) {c : Char} (hc : isSpacedTypeChar c = false)
    (hm : c ∉ modifierChars) : c ∉ head := by
  obtain ⟨htype, ms, gap, rfl, hms, hgap, -⟩ := h
  have hblank : Unicode.isBlank c = false := by
    simp only [isSpacedTypeChar, Bool.or_eq_false_iff] at hc
    exact hc.1.2
  simp only [List.mem_append, not_or]
  refine ⟨fun hmem => ?_, htype.not_mem hc, fun hmem => ?_⟩
  · rcases hms.mem hmem with hb | hb
    · rw [hb] at hblank
      cases hblank
    · exact hm hb
  · rw [hgap c hmem] at hblank
    cases hblank

theorem isEnclosed (h : IsHead type head) :
    isEnclosed (declaratorBrackets false) ',' head = true := by
  obtain ⟨htype, ms, gap, rfl, hms, hgap, -⟩ := h
  have hmods : enclose (declaratorBrackets false) ',' [] ms = some [] := by
    refine enclose_unmarked (fun c hc => ?_) false []
    rcases hms.mem hc with hb | hb
    · exact isDeclaratorMark_of_isBlank hb
    · have hall : modifierChars.all (fun c => !isDeclaratorMark c) = true := by decide
      simpa using List.all_eq_true.1 hall c hb
  have hblank : enclose (declaratorBrackets false) ',' [] gap = some [] :=
    enclose_unmarked (fun c hc => isDeclaratorMark_of_isBlank (hgap c hc)) false []
  rw [Text.isEnclosed_iff]
  simp [Text.enclose_append, hmods, Text.isEnclosed_iff.1 htype.enclosed, hblank]

/-- A first declarator is written after modifiers and its type. -/
theorem writes (h : IsHead type head) {name dims value : List Char} {k : Nat}
    (hname : isIdentifier name = true) (hdims : IsDims k dims) (hvalue : IsValue value) :
    Declarator.Writes ⟨head, name, k⟩ ((head ++ (name ++ dims)) ++ value) where
  head_enclosed := h.isEnclosed
  head_plain := h.not_mem (by decide +kernel) (by decide)
  head_last := by
    obtain ⟨htype, ms, gap, rfl, -, -, hlast⟩ := h
    obtain ⟨c, rest, rfl, -⟩ := htype.head_isIdentChar
    intro d hd
    rw [List.getLast?_append_of_ne_nil _ (by simp)] at hd
    exact hlast d hd
  name := hname
  text := ⟨dims, value, hdims, hvalue, rfl⟩

end IsHead

/-- The fields of a list of declarators of one type. -/
theorem fieldsOfDeclarators_writes {type part : List Char} {parts : List (List Char)}
    {d : Declarator} {ds : List Declarator} (hhead : IsHead type d.head) (hd : d.Writes part)
    (h : List.Forall₂ Declarator.Writes ds parts)
    (hblank : ∀ d ∈ ds, ∀ c ∈ d.head, Unicode.isBlank c = true) :
    fieldsOfDeclarators (part :: parts) =
      some ((d :: ds).map (·.field (normalizeType type))) := by
  have htype : Java.stripModifiers (Unicode.trimStart d.head) = type := by
    rw [stripModifiers_trimStart, hhead.stripModifiers]
  have hwords : (words type).isEmpty = false := by simpa using hhead.1.words_ne_nil
  rw [fieldsOfDeclarators, hd.ofChars?]
  simp only [Option.bind_eq_bind, Option.bind_some, htype, hwords, moreFields_writes _ h hblank]
  rfl

/-! ## Annotations in initial values -/

theorem enclose_unmarked_append {cs : List Char} (h : ∀ c ∈ cs, isDeclaratorMark c = false)
    (due rest : List Char) :
    enclose valueBrackets ',' due (cs ++ rest) = enclose valueBrackets ',' due rest := by
  have hcs : enclose valueBrackets ',' due cs = some due := enclose_unmarked h true due
  rw [Text.enclose_append, hcs]
  rfl

theorem enclose_dropWhile {p : Char → Bool} (hp : ∀ c, p c = true → isDeclaratorMark c = false)
    (due cs : List Char) :
    enclose valueBrackets ',' due (cs.dropWhile p) = enclose valueBrackets ',' due cs := by
  conv_rhs => rw [← List.takeWhile_append_dropWhile (p := p) (l := cs)]
  rw [enclose_unmarked_append fun c hc => hp c (List.mem_takeWhile_imp hc)]

/-- Only an opening parenthesis makes a closing one due. -/
theorem valueBrackets_ne_paren {c close : Char} (h : valueBrackets.lookup c = some close)
    (hc : c ≠ '(') : close ≠ ')' ∧ c ≠ ')' := by
  obtain ⟨l, r, hmem, -⟩ := List.lookup_eq_some_iff.1 h
  have hpair : (c, close) ∈ valueBrackets := hmem ▸ by simp
  have hpairs : ∀ p ∈ valueBrackets, p.1 ≠ '(' → p.2 ≠ ')' ∧ p.1 ≠ ')' := by decide
  exact hpairs _ hpair hc

/-- What follows the parenthesis that closes annotation arguments closes the brackets around
them. -/
theorem enclose_afterParens {x due cs : List Char}
    (h : enclose valueBrackets ',' (x ++ ')' :: due) cs = some []) :
    enclose valueBrackets ',' due (afterParens (x.count ')') cs) = some [] := by
  induction cs generalizing x with
  | nil => simp [enclose] at h
  | cons c cs ih =>
    rw [Text.enclose_cons] at h
    obtain ⟨mid, hstep, hrest⟩ := Option.bind_eq_some_iff.1 h
    have hnest := (Text.encloseStep_eq_some hstep).2
    by_cases ho : c = '('
    · subst ho
      obtain rfl : ')' :: (x ++ ')' :: due) = mid := Option.some.inj hnest
      rw [afterParens]
      simpa using ih (x := ')' :: x) hrest
    rcases Text.nestStep_eq_some hnest with ⟨d, hopen, rfl⟩ | ⟨hopen, -, hdue⟩ | ⟨hopen, hclose, rfl⟩
    · have hd : d ≠ ')' ∧ c ≠ ')' := valueBrackets_ne_paren hopen ho
      rw [afterParens_other ho hd.2]
      simpa [hd.1] using ih (x := d :: x) hrest
    · cases x with
      | nil =>
        obtain ⟨rfl, rfl⟩ := List.cons.inj hdue
        exact hrest
      | cons d x =>
        obtain ⟨rfl, rfl⟩ := List.cons.inj hdue
        by_cases hc : d = ')'
        · subst hc
          rw [List.count_cons_self, afterParens]
          exact ih hrest
        · rw [afterParens_other ho hc, List.count_cons_of_ne hc]
          exact ih hrest
    · have hc : c ≠ ')' := by
        rintro rfl
        cases hclose
      rw [afterParens_other ho hc]
      exact ih hrest

/-- What follows the arguments of an annotation closes the same brackets. -/
theorem enclose_afterArguments {due cs : List Char}
    (h : enclose valueBrackets ',' due cs = some []) :
    enclose valueBrackets ',' due (afterArguments cs) = some [] := by
  rw [← enclose_dropWhile (p := Unicode.isBlank) fun _ => isDeclaratorMark_of_isBlank] at h
  unfold afterArguments Unicode.trimStart
  split
  · rename_i rest heq
    have hopen : encloseStep valueBrackets ',' due '(' = some (')' :: due) := if_neg (by simp)
    rw [heq, Text.enclose_cons, hopen] at h
    exact enclose_afterParens (x := []) h
  · exact h

theorem isDeclaratorMark_of_isAnnotationChar {c : Char} (h : isAnnotationChar c = true) :
    isDeclaratorMark c = false := by
  rcases Bool.or_eq_true_iff.1 h with h | h
  · exact isDeclaratorMark_of_isIdentChar h
  · obtain rfl : c = '.' := by simpa using h
    decide

theorem enclose_afterName (due rest : List Char) :
    enclose valueBrackets ',' due (rest.dropWhile isAnnotationChar) =
      enclose valueBrackets ',' due ('@' :: rest) := by
  have hsign : ∀ c ∈ ['@'], isDeclaratorMark c = false := List.forall_mem_singleton.2 (by decide)
  rw [enclose_dropWhile fun _ => isDeclaratorMark_of_isAnnotationChar]
  exact (enclose_unmarked_append hsign due rest).symm

/-- Without annotations a text closes the same brackets. -/
theorem enclose_stripAnnotations {due cs : List Char}
    (h : enclose valueBrackets ',' due cs = some []) :
    enclose valueBrackets ',' due (stripAnnotations cs) = some [] := by
  fun_induction stripAnnotations cs generalizing due with
  | case1 => exact h
  | case2 rest hname ih =>
    have hword : " interface".toList.all (fun c => !isDeclaratorMark c) = true := by decide
    rw [enclose_unmarked_append (by simpa using hword)]
    exact ih ((enclose_afterName due rest).trans h)
  | case3 rest hname ih =>
    have hspace : ∀ c ∈ [' '], isDeclaratorMark c = false := List.forall_mem_singleton.2 (by decide)
    refine (enclose_unmarked_append hspace due _).trans (ih ?_)
    exact enclose_afterArguments ((enclose_afterName due rest).trans h)
  | case4 c rest hc ih =>
    rw [Text.enclose_cons] at h ⊢
    obtain ⟨mid, hstep, hrest⟩ := Option.bind_eq_some_iff.1 h
    rw [hstep]
    exact ih hrest

/-! ## Annotated declarations -/

/-- The text is a sequence of modifiers and annotations, each with blanks after it. -/
inductive IsAnnotatedModifiers : List Char → Prop
  | nil : IsAnnotatedModifiers []
  | word {m gap ms : List Char} (hm : m ∈ modifiers) (hne : gap ≠ [])
      (hgap : ∀ c ∈ gap, Unicode.isBlank c = true) (h : IsAnnotatedModifiers ms) :
      IsAnnotatedModifiers (m ++ (gap ++ ms))
  | annotated {a gap ms : List Char} (ha : IsNestedAnnotation a) (hne : gap ≠ [])
      (hgap : ∀ c ∈ gap, Unicode.isBlank c = true) (h : IsAnnotatedModifiers ms) :
      IsAnnotatedModifiers (a ++ (gap ++ ms))

theorem IsModifiers.word_gap {m gap ms : List Char} (hm : m ∈ modifiers) (hne : gap ≠ [])
    (hgap : ∀ c ∈ gap, Unicode.isBlank c = true) (h : IsModifiers ms) :
    IsModifiers (m ++ (gap ++ ms)) := by
  cases gap with
  | nil => exact absurd rfl hne
  | cons c gap => exact .word hm (hgap c (.head _)) (.blanks (fun d hd => hgap d (.tail _ hd)) h)

namespace IsAnnotatedModifiers

variable {ms : List Char}

/-- Neither modifiers nor what they stand before start with a parenthesis. -/
theorem head_append (h : IsAnnotatedModifiers ms) {rest : List Char}
    (hrest : ∀ c ∈ rest.head?, Unicode.isBlank c = false ∧ c ≠ '(') :
    ∀ c ∈ (ms ++ rest).head?, Unicode.isBlank c = false ∧ c ≠ '(' := by
  intro c hc
  cases h with
  | nil => exact hrest c hc
  | @word m gap ms hm hne hgap h =>
    rw [List.append_assoc] at hc
    have hmod := head_append_of_mem_modifiers hm _ c hc
    refine ⟨isBlank_of_mem_modifierChars hmod, ?_⟩
    rintro rfl
    exact absurd hmod (by decide)
  | annotated ha hne hgap h =>
    obtain ⟨name, arguments, rfl, -⟩ := ha
    obtain rfl : '@' = c := Option.some.inj hc
    decide

/-- Annotations among modifiers are stripped. -/
theorem strip (h : IsAnnotatedModifiers ms) {rest : List Char}
    (hrest : ∀ c ∈ rest.head?, Unicode.isBlank c = false ∧ c ≠ '(') :
    ∃ v, IsModifiers v ∧ stripAnnotations (ms ++ rest) = v ++ stripAnnotations rest := by
  induction h with
  | nil => exact ⟨[], .nil, rfl⟩
  | @word m gap ms hm hne hgap h ih =>
    obtain ⟨v, hv, heq⟩ := ih
    have hsign : '@' ∉ m := fun hmem => absurd (mem_modifierChars hm hmem) (by decide)
    refine ⟨m ++ (gap ++ v), .word_gap hm hne hgap hv, ?_⟩
    rw [List.append_assoc, List.append_assoc, stripAnnotations_append hsign,
      stripAnnotations_blanks hgap, heq, List.append_assoc, List.append_assoc]
  | @annotated a gap ms ha hne hgap h ih =>
    obtain ⟨v, hv, heq⟩ := ih
    obtain ⟨w, hw, hstrip⟩ := ha.strip hne hgap (h.head_append hrest)
    refine ⟨w ++ v, .blanks hw hv, ?_⟩
    rw [List.append_assoc, List.append_assoc, hstrip, heq, List.append_assoc]

end IsAnnotatedModifiers

/-- What stands before the name of a first declarator in a source: blanks, modifiers and
annotations, the type, and blanks, which the type needs after an identifier. -/
def IsAnnotatedHead (type head : List Char) : Prop :=
  IsTypeSpelling type ∧ ∃ lead ms gap, head = lead ++ (ms ++ (type ++ gap)) ∧
    (∀ c ∈ lead, Unicode.isBlank c = true) ∧ IsAnnotatedModifiers ms ∧
    (∀ c ∈ gap, Unicode.isBlank c = true) ∧ ∀ c ∈ (type ++ gap).getLast?, isIdentChar c = false

theorem IsAnnotatedHead.strip {type head : List Char} (h : IsAnnotatedHead type head)
    (rest : List Char) :
    ∃ v, IsHead type v ∧ stripAnnotations (head ++ rest) = v ++ stripAnnotations rest := by
  obtain ⟨htype, lead, ms, gap, rfl, hlead, hms, hgap, hlast⟩ := h
  have hfirst : ∀ c ∈ (type ++ (gap ++ rest)).head?, Unicode.isBlank c = false ∧ c ≠ '(' := by
    obtain ⟨d, after, rfl, hd⟩ := htype.head_isIdentChar
    intro c hc
    obtain rfl : d = c := Option.some.inj hc
    exact ⟨isBlank_of_isIdentChar hd, Unicode.ne_of_class hd (by decide +kernel)⟩
  obtain ⟨v, hv, heq⟩ := hms.strip hfirst
  refine ⟨lead ++ (v ++ (type ++ gap)), ?_, ?_⟩
  · exact ⟨htype, lead ++ v, gap, by simp, .blanks hlead hv, hgap, hlast⟩
  · have htext : stripAnnotations (type ++ (gap ++ rest)) =
        type ++ (gap ++ stripAnnotations rest) := by
      rw [stripAnnotations_append (htype.not_mem (by decide +kernel)), stripAnnotations_blanks hgap]
    simp only [List.append_assoc]
    rw [stripAnnotations_blanks hlead, heq, htext]

theorem IsValue.stripAnnotations {value : List Char} (h : IsValue value) :
    IsValue (stripAnnotations value) := by
  rcases h with rfl | ⟨init, rfl, hinit⟩
  · exact .inl (by rw [Java.stripAnnotations])
  · refine .inr ⟨Java.stripAnnotations init, ?_, ?_⟩
    · rw [Java.stripAnnotations, if_neg (by decide)]
    · exact Text.isEnclosed_iff.2 (enclose_stripAnnotations (Text.isEnclosed_iff.1 hinit))

theorem trim_ne_nil {cs : List Char} {c : Char} (hc : c ∈ cs) (hb : Unicode.isBlank c = false) :
    Unicode.trim cs ≠ [] := by
  intro h
  have hblank : ∀ d ∈ Unicode.trimStart cs, Unicode.isBlank d = true := by
    simpa [Unicode.trim, Unicode.trimEnd] using h
  have hall : ∀ d ∈ cs, Unicode.isBlank d = true := by
    rw [← List.takeWhile_append_dropWhile (p := Unicode.isBlank) (l := cs)]
    intro d hd
    exact (List.mem_append.1 hd).elim List.mem_takeWhile_imp (hblank d)
  rw [hall c hc] at hb
  cases hb

/-- A statement with one declarator declares one field, whatever its initial value. -/
theorem fieldsOfStatement_value {type head name dims value : List Char} {k : Nat}
    (hhead : IsAnnotatedHead type head) (hname : isIdentifier name = true) (hdims : IsDims k dims)
    (hvalue : IsValue value) :
    fieldsOfStatement ((head ++ (name ++ dims)) ++ value) =
      [Declarator.field (normalizeType type) ⟨head, name, k⟩] := by
  obtain ⟨v, hv, hstrip⟩ := hhead.strip ((name ++ dims) ++ value)
  have hsign : '@' ∉ name ++ dims :=
    not_mem_name_dims hname hdims (by decide +kernel) (by decide) (by decide)
  have hstmt : stripAnnotations ((head ++ (name ++ dims)) ++ value) =
      (v ++ (name ++ dims)) ++ stripAnnotations value := by
    rw [List.append_assoc, hstrip, stripAnnotations_append hsign, ← List.append_assoc]
  have hwrites := hv.writes hname hdims hvalue.stripAnnotations
  have hbefore : (before '=' ((v ++ (name ++ dims)) ++ stripAnnotations value)).contains '(' =
      false := by
    obtain ⟨dims', hdims', heq⟩ := hwrites.before_eq
    have hname' : '(' ∉ name ++ dims' :=
      not_mem_name_dims hname hdims' (by decide +kernel) (by decide) (by decide)
    have hv' : '(' ∉ v := hv.not_mem (by decide +kernel) (by decide)
    rw [heq]
    simpa using ⟨hv', by simpa using hname'⟩
  have hfull : (Unicode.trim ((v ++ (name ++ dims)) ++ stripAnnotations value)).isEmpty =
      false := by
    obtain ⟨c, hc⟩ := List.exists_mem_of_ne_nil name (ne_nil_of_isIdentifier hname)
    have hblank := isBlank_of_isIdentChar (isIdentChar_of_isIdentifier hname c hc)
    simpa using trim_ne_nil (by simp [hc]) hblank
  have hfields := fieldsOfDeclarators_writes hv hwrites List.Forall₂.nil (by simp)
  rw [fieldsOfStatement, hstmt, hbefore, hfull, hwrites.split_last, hfields]
  rfl

theorem isTypeSpelling_map : IsTypeSpelling "Map<String, int[]>".toList where
  chars := by
    rw [String.toList_ofList]
    decide +kernel
  enclosed := by
    rw [String.toList_ofList]
    decide
  first := ⟨"Map".toList, "<String, int[]>".toList, String.toList_ofList, by decide,
    List.all_eq_true.1 (by decide +kernel), by simp; decide +kernel, fun h => absurd h (by decide)⟩
  last := by simp; decide

theorem isAnnotatedHead_map :
    IsAnnotatedHead "Map<String, int[]>".toList
      " @A(b = @B(\"\")) private Map<String, int[]> ".toList := by
  have hannotation : IsNestedAnnotation "@A(b = @B(\"\"))".toList :=
    ⟨['A'], "(b = @B(\"\"))".toList, String.toList_ofList,
      List.all_eq_true.1 (by decide +kernel), by decide,
      .inr ⟨"b = @B(\"\")".toList, String.toList_ofList, by decide⟩⟩
  have hprivate : IsAnnotatedModifiers "private ".toList :=
    @IsAnnotatedModifiers.word "private".toList [' '] [] (by decide) (by decide)
      isBlank_of_mem_space .nil
  have hmods : IsAnnotatedModifiers "@A(b = @B(\"\")) private ".toList :=
    @IsAnnotatedModifiers.annotated _ [' '] _ hannotation (by decide) isBlank_of_mem_space hprivate
  exact ⟨isTypeSpelling_map, [' '], _, [' '], String.toList_ofList, isBlank_of_mem_space, hmods,
    isBlank_of_mem_space, fun c hc => Option.some.inj hc ▸ by decide +kernel⟩

/-- An initial value with nested brackets and all its commas within parentheses, brackets or braces
does not change the one field that a statement declares. -/
theorem fieldsOfStatement_initializer {type head name dims init : List Char} {k : Nat}
    (hhead : IsAnnotatedHead type head) (hname : isIdentifier name = true) (hdims : IsDims k dims)
    (hinit : isEnclosed valueBrackets ',' init = true) :
    ∃ field : FieldDecl, field.name = String.ofList name ∧
      field.type = String.ofList (normalizeType type ++ bracketPairs k) ∧
      fieldsOfStatement (head ++ (name ++ dims)) = [field] ∧
      fieldsOfStatement ((head ++ (name ++ dims)) ++ '=' :: init) = [field] := by
  have hplain := fieldsOfStatement_value hhead hname hdims (.inl rfl)
  rw [List.append_nil] at hplain
  exact ⟨_, rfl, rfl, hplain, fieldsOfStatement_value hhead hname hdims (.inr ⟨init, rfl, hinit⟩)⟩

theorem fieldsOfStatement_initializer_call :
    IsAnnotatedHead "Map<String, int[]>".toList
        " @A(b = @B(\"\")) private Map<String, int[]> ".toList ∧
      isIdentifier ['m'] = true ∧ IsDims 1 ['[', ']'] ∧
      isEnclosed valueBrackets ',' " f(a < b, \x7bc > d, 2\x7d)[0]".toList = true ∧
      ∃ field : FieldDecl, field.name = "m" ∧ field.type = "Map<String, int[]>[]" ∧
        fieldsOfStatement (" @A(b = @B(\"\")) private Map<String, int[]> ".toList ++
          (['m'] ++ ['[', ']'])) = [field] ∧
        fieldsOfStatement ((" @A(b = @B(\"\")) private Map<String, int[]> ".toList ++
          (['m'] ++ ['[', ']'])) ++ '=' :: " f(a < b, \x7bc > d, 2\x7d)[0]".toList) = [field] := by
  have hname : isIdentifier ['m'] = true := by decide +kernel
  have hinit : isEnclosed valueBrackets ',' " f(a < b, \x7bc > d, 2\x7d)[0]".toList = true := by
    rw [String.toList_ofList]
    decide
  have htype : normalizeType "Map<String, int[]>".toList ++ bracketPairs 1 =
      "Map<String, int[]>[]".toList := by
    rw [String.toList_ofList, String.toList_ofList]
    decide
  obtain ⟨field, hfield, htext, hboth⟩ :=
    fieldsOfStatement_initializer isAnnotatedHead_map hname (isDims_bracketPairs 1) hinit
  rw [htype, String.ofList_toList] at htext
  exact ⟨isAnnotatedHead_map, hname, isDims_bracketPairs 1, hinit, field, hfield, htext, hboth⟩

/-- A comma between type arguments ends the declarator within an initial value: the statement
declares no field. -/
theorem fieldsOfStatement_typeArguments :
    isNested valueBrackets " new HashMap<String, Integer>()".toList = true ∧
      isEnclosed (declaratorBrackets false) ',' " new HashMap<String, Integer>()".toList = true ∧
      fieldsOfStatement "Map m = new HashMap<String, Integer>()".toList = [] ∧
      fieldsOfStatement "Map m ".toList = [⟨"m", "Map"⟩] := by
  refine ⟨?_, ?_, ?_, ?_⟩ <;> rw [String.toList_ofList] <;> decide +kernel

end EntityForge.Java
