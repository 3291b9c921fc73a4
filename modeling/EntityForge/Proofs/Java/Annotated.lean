import EntityForge.Proofs.Java.Modifiers

/-!
# Annotated statements

`Strips stmt body`: without its annotations the statement is `body` after some blanks. Annotations
with blanks around them are stripped one by one (`Strips.annotation`). What is left of a class
header announces a class (`typeKeyword?_class`), and what is left of a private member declares its
field (`fieldsOfStatement_private`).
-/

namespace EntityForge.Java

/-! ## Annotations -/

/-- Without its annotations the statement is `body` after some blanks. -/
def Strips (stmt body : List Char) : Prop :=
  ∃ w, (∀ c ∈ w, Unicode.isBlank c = true) ∧ stripAnnotations stmt = w ++ body

/-- The text is an annotation, with or without arguments. -/
def IsAnnotation (cs : List Char) : Prop :=
  ∃ name arguments, cs = '@' :: (name ++ arguments) ∧ (∀ c ∈ name, isAnnotationChar c = true) ∧
    name ≠ "interface".toList ∧
    (arguments = [] ∨ ∃ inner, arguments = '(' :: (inner ++ [')']) ∧ '(' ∉ inner ∧ ')' ∉ inner)

/-- The text is an annotation; its arguments may hold further parentheses. -/
def IsNestedAnnotation (cs : List Char) : Prop :=
  ∃ name arguments, cs = '@' :: (name ++ arguments) ∧ (∀ c ∈ name, isAnnotationChar c = true) ∧
    name ≠ "interface".toList ∧
    (arguments = [] ∨ ∃ inner, arguments = '(' :: (inner ++ [')']) ∧
      Text.isNested [('(', ')')] inner = true)

theorem IsAnnotation.isNested {cs : List Char} (h : IsAnnotation cs) : IsNestedAnnotation cs := by
  obtain ⟨name, arguments, heq, hname, hint, harg⟩ := h
  refine ⟨name, arguments, heq, hname, hint, harg.imp_right ?_⟩
  rintro ⟨inner, hinner, ho, hc⟩
  refine ⟨inner, hinner, Text.isNested_iff.2 (Text.nest_other fun c hmem => ?_)⟩
  have hopen : c ≠ '(' := fun h => ho (h ▸ hmem)
  have hclose : c ≠ ')' := fun h => hc (h ▸ hmem)
  simp [List.lookup_cons, beq_false_of_ne hopen, Ne.symm hclose]

theorem stripAnnotations_append {cs : List Char} (h : '@' ∉ cs) (ds : List Char) :
    stripAnnotations (cs ++ ds) = cs ++ stripAnnotations ds := by
  induction cs with
  | nil => rfl
  | cons c cs ih =>
    rw [List.mem_cons, not_or] at h
    rw [List.cons_append, stripAnnotations, if_neg (Ne.symm h.1), ih h.2, List.cons_append]

theorem stripAnnotations_of_not_mem {cs : List Char} (h : '@' ∉ cs) : stripAnnotations cs = cs := by
  simpa [stripAnnotations] using stripAnnotations_append h []

theorem strips_self {body : List Char} (h : '@' ∉ body) : Strips body body :=
  ⟨[], by simp, stripAnnotations_of_not_mem h⟩

theorem stripAnnotations_blanks {w : List Char} (hw : ∀ c ∈ w, Unicode.isBlank c = true)
    (cs : List Char) : stripAnnotations (w ++ cs) = w ++ stripAnnotations cs :=
  stripAnnotations_append (fun hc => absurd (hw '@' hc) (by decide)) cs

theorem Strips.blanks {cs body : List Char} (h : Strips cs body) {w : List Char}
    (hw : ∀ c ∈ w, Unicode.isBlank c = true) : Strips (w ++ cs) body := by
  obtain ⟨v, hv, heq⟩ := h
  refine ⟨w ++ v, fun c hc => ?_, by rw [stripAnnotations_blanks hw, heq, List.append_assoc]⟩
  exact (List.mem_append.1 hc).elim (hw c) (hv c)

theorem afterParens_other {c : Char} (ho : c ≠ '(') (hc : c ≠ ')') (depth : Nat)
    (cs : List Char) : afterParens depth (c :: cs) = afterParens depth cs := by
  rw [afterParens]
  · exact ho
  · exact fun _ => hc
  · exact fun _ _ => hc

/-- The text after nested parentheses is found by their depth. -/
theorem afterParens_nest {inner due due' : List Char}
    (h : Text.nest [('(', ')')] due inner = some due') (rest : List Char) :
    afterParens due.length (inner ++ rest) = afterParens due'.length rest := by
  induction inner generalizing due with
  | nil =>
    obtain rfl : due = due' := Option.some.inj h
    rfl
  | cons c inner ih =>
    rw [Text.nest_cons] at h
    obtain ⟨mid, hstep, hinner⟩ := Option.bind_eq_some_iff.1 h
    rw [← ih hinner, List.cons_append]
    by_cases ho : c = '('
    · subst ho
      obtain rfl : ')' :: due = mid := Option.some.inj hstep
      rw [afterParens, List.length_cons]
    have hopen : [('(', ')')].lookup c = none := by
      simp [List.lookup_cons, beq_false_of_ne ho]
    rcases Text.nestStep_eq_some hstep with ⟨close, hlookup, -⟩ | ⟨-, hclose, rfl⟩ | ⟨-, hc, rfl⟩
    · rw [hopen] at hlookup
      cases hlookup
    · obtain rfl : ')' = c := by simpa using hclose
      rw [List.length_cons, afterParens]
    · have hc' : c ≠ ')' := by
        rintro rfl
        simp at hc
      rw [afterParens_other ho hc']

theorem isAnnotationChar_of_isBlank {c : Char} (h : Unicode.isBlank c = true) :
    isAnnotationChar c = false := by
  have hdot : c ≠ '.' := by
    rintro rfl
    exact absurd h (by decide)
  simp [isAnnotationChar, isIdentChar_of_isBlank h, hdot]

/-- An annotation is stripped with the blanks after it, if these do not lead to a parenthesis. -/
theorem IsNestedAnnotation.strip {a gap rest : List Char} (ha : IsNestedAnnotation a)
    (hgap : gap ≠ []) (hblank : ∀ c ∈ gap, Unicode.isBlank c = true)
    (hrest : ∀ c ∈ rest.head?, Unicode.isBlank c = false ∧ c ≠ '(') :
    ∃ v, (∀ c ∈ v, Unicode.isBlank c = true) ∧
      stripAnnotations (a ++ (gap ++ rest)) = v ++ stripAnnotations rest := by
  obtain ⟨name, arguments, rfl, hname, hint, harg⟩ := ha
  have hstop : ∀ {after : List Char}, (∀ c ∈ after.head?, isAnnotationChar c = false) →
      stripAnnotations ('@' :: (name ++ after)) = ' ' :: stripAnnotations (afterArguments after) := by
    intro after hafter
    have hall : name.all isAnnotationChar = true := List.all_eq_true.2 hname
    rw [stripAnnotations, if_pos rfl, Text.takeWhile_append_stop hall hafter, if_neg hint,
      Text.dropWhile_append_stop hall hafter]
  have hhead : ∀ c ∈ (gap ++ rest).head?, isAnnotationChar c = false := by
    cases gap with
    | nil => exact absurd rfl hgap
    | cons c gap =>
      intro d hd
      obtain rfl : c = d := by simpa using hd
      exact isAnnotationChar_of_isBlank (hblank c (.head _))
  rcases harg with rfl | ⟨inner, rfl, hinner⟩
  · have hafter : afterArguments (gap ++ rest) = rest := by
      unfold afterArguments
      rw [trimStart_append hblank fun c hc => (hrest c hc).1]
      split
      · exact absurd rfl (hrest '(' rfl).2
      · rfl
    refine ⟨[' '], isBlank_of_mem_space, ?_⟩
    rw [List.append_nil, List.cons_append, hstop hhead, hafter, List.singleton_append]
  · have hafter : afterArguments ('(' :: (inner ++ ')' :: (gap ++ rest))) = gap ++ rest := by
      unfold afterArguments
      rw [Unicode.trimStart, List.dropWhile_cons_of_neg (by decide)]
      exact afterParens_nest (Text.isNested_iff.1 hinner) _
    refine ⟨' ' :: gap, by simpa using ⟨by decide, hblank⟩, ?_⟩
    have hshape : '@' :: (name ++ '(' :: (inner ++ [')'])) ++ (gap ++ rest) =
        '@' :: (name ++ '(' :: (inner ++ ')' :: (gap ++ rest))) := by simp
    rw [hshape, hstop (by simp; decide +kernel), hafter, stripAnnotations_blanks hblank,
      List.cons_append]

theorem Strips.annotation {a gap rest body : List Char} (ha : IsAnnotation a) (hgap : gap ≠ [])
    (hblank : ∀ c ∈ gap, Unicode.isBlank c = true)
    (hrest : ∀ c ∈ rest.head?, Unicode.isBlank c = false ∧ c ≠ '(') (h : Strips rest body) :
    Strips (a ++ (gap ++ rest)) body := by
  obtain ⟨v, hv, hstrip⟩ := ha.isNested.strip hgap hblank hrest
  obtain ⟨w, hw, heq⟩ := h
  refine ⟨v ++ w, fun c hc => ?_, by rw [hstrip, heq, List.append_assoc]⟩
  exact (List.mem_append.1 hc).elim (hv c) (hw c)

/-! ## Class headers -/

theorem words_blanks {w : List Char} (hw : ∀ c ∈ w, Unicode.isBlank c = true) (cs : List Char) :
    words (w ++ cs) = words cs :=
  Text.piecesBy_seps (fun c hc => by rw [isIdentChar_of_isBlank (hw c hc)]; rfl) cs

theorem words_append {w : List Char} (hw : isIdentifier w = true) (cs : List Char) :
    words (w ++ ' ' :: cs) = w :: words cs :=
  Text.piecesBy_append (fun c hc => by rw [isIdentChar_of_isIdentifier hw c hc]; rfl)
    (ne_nil_of_isIdentifier hw) (by decide +kernel) cs

/-- A public class with any annotations is the header of a class. -/
theorem typeKeyword?_class {stmt name : List Char} (hname : isIdentifier name = true)
    (h : Strips stmt ("public class ".toList ++ (name ++ [' ']))) :
    typeKeyword? stmt = some .classBody := by
  obtain ⟨w, hw, heq⟩ := h
  have hparen : '(' ∉ w ++ ("public class ".toList ++ (name ++ [' '])) := by
    simp only [List.mem_append, not_or]
    refine ⟨fun hc => absurd (hw _ hc) (by decide), by decide, fun hc => ?_, by decide⟩
    exact absurd (isIdentChar_of_isIdentifier hname '(' hc) (by decide +kernel)
  have hpublic : isIdentifier "public".toList = true := by decide +kernel
  have hclass : isIdentifier "class".toList = true := by decide +kernel
  rw [typeKeyword?, heq, before_of_not_mem hparen, words_blanks hw]
  have hwords : words ("public class ".toList ++ (name ++ [' '])) =
      ["public".toList, "class".toList, name] :=
    (words_append hpublic _).trans
      (congrArg _ ((words_append hclass _).trans (congrArg _ (words_append hname []))))
  rw [hwords]
  rfl

/-! ## Private members -/

/-- The character is no blank and ends no declarator. -/
def isTypeChar (c : Char) : Bool :=
  !Unicode.isBlank c && c != '(' && c != '=' && c != ','

theorem isTypeChar_of_isIdentChar {c : Char} (h : isIdentChar c = true) : isTypeChar c = true := by
  have hmarks : c ∉ "(=,".toList := Unicode.not_mem_of_class h (by decide +kernel)
  simpa [isTypeChar, isBlank_of_isIdentChar h, and_assoc] using hmarks

/-- A type that is written without blanks and is no modifier. -/
structure IsTypeText (type : List Char) : Prop where
  chars : ∀ c ∈ type, isTypeChar c = true
  words_ne_nil : words type ≠ []
  not_modifier : type ∉ modifiers

theorem isTypeText_of_isIdentifier {type : List Char} (h : isIdentifier type = true)
    (hm : type ∉ modifiers) : IsTypeText type where
  chars c hc := isTypeChar_of_isIdentChar (isIdentChar_of_isIdentifier h c hc)
  words_ne_nil := by
    rw [words, Text.piecesBy_self (fun c hc => by rw [isIdentChar_of_isIdentifier h c hc]; rfl)
      (ne_nil_of_isIdentifier h)]
    simp
  not_modifier := hm

/-- The type of a list of entities. -/
theorem isTypeText_list {name : List Char} (h : isIdentifier name = true) :
    IsTypeText ("List<".toList ++ (name ++ ['>'])) where
  chars c hc := by
    simp only [List.mem_append, List.mem_singleton] at hc
    rcases hc with hc | hc | rfl
    · have hlist : "List<".toList.all isTypeChar = true := by decide
      exact List.all_eq_true.1 hlist c hc
    · exact isTypeChar_of_isIdentChar (isIdentChar_of_isIdentifier h c hc)
    · decide
  words_ne_nil := by
    have hword : "List".toList.all isIdentChar = true := by decide +kernel
    have hpieces : words ("List".toList ++ '<' :: (name ++ ['>'])) = _ :=
      Text.piecesBy_append (fun c hc => by rw [List.all_eq_true.1 hword c hc]; rfl)
        (List.cons_ne_nil _ _) (by decide +kernel) _
    exact hpieces ▸ List.cons_ne_nil _ _
  not_modifier hm := by
    have hangle : '<' ∈ modifierChars := mem_modifierChars hm (by simp)
    exact absurd hangle (by decide)

theorem IsTypeText.isBlank {type : List Char} (h : IsTypeText type) :
    ∀ c ∈ type, Unicode.isBlank c = false := by
  intro c hc
  have hchar := h.chars c hc
  simp only [isTypeChar, Bool.and_eq_true, Bool.not_eq_true'] at hchar
  exact hchar.1.1.1

theorem IsTypeText.not_mem {type : List Char} (h : IsTypeText type) {c : Char}
    (hc : isTypeChar c = false) : c ∉ type := by
  intro hmem
  rw [h.chars c hmem] at hc
  cases hc

theorem IsTypeText.ne_nil {type : List Char} (h : IsTypeText type) : type ≠ [] := by
  rintro rfl
  exact h.words_ne_nil rfl

theorem glue_self {cs : List Char} (h : ∀ c ∈ cs, c ≠ ' ' ∧ c ≠ ',') (prev : Option Char) :
    glue prev cs = cs := by
  induction cs generalizing prev with
  | nil => rfl
  | cons c cs ih =>
    have hc := h c (.head _)
    rw [glue, if_neg hc.1, if_neg hc.2, ih fun d hd => h d (.tail _ hd)]

theorem IsTypeText.normalizeType {type : List Char} (h : IsTypeText type) :
    normalizeType type = type := by
  have hspace : ∀ c ∈ type, c ≠ ' ' ∧ c ≠ ',' := by
    refine fun c hc => ⟨?_, ?_⟩
    · rintro rfl
      exact h.not_mem (by decide) hc
    · rintro rfl
      exact h.not_mem (by decide) hc
  rw [Java.normalizeType, Unicode.splitBlank, Text.piecesBy_self h.isBlank h.ne_nil,
    List.intercalate_singleton]
  exact glue_self hspace none

theorem isModifiers_private : IsModifiers "private ".toList :=
  .word (m := "private".toList) (by decide) (c := ' ') (by decide) .nil

theorem IsTypeText.stripModifiers {type : List Char} (h : IsTypeText type) :
    stripModifiers ("private ".toList ++ (type ++ [' '])) = type := by
  have hhead : ∀ c ∈ (type ++ [' ']).head?, Unicode.isBlank c = false := by
    cases type with
    | nil => exact absurd rfl h.ne_nil
    | cons c type =>
      intro d hd
      obtain rfl : c = d := by simpa using hd
      exact h.isBlank c (.head _)
  have hlast : ∀ c ∈ type.getLast?, Unicode.isBlank c = false :=
    fun c hc => h.isBlank c (List.mem_of_getLast? hc)
  have hword : (type ++ [' ']).takeWhile (fun c => !Unicode.isBlank c) = type :=
    Text.takeWhile_append_stop (by simpa using h.isBlank) fun c hc => Option.some.inj hc ▸ by decide
  have hkept : dropModifier? (type ++ [' ']) = none :=
    dropModifier?_eq_none (hword.symm ▸ h.not_modifier)
  rw [isModifiers_private.stripModifiers, stripModifiers_eq, trimStart_self hhead, hkept]
  exact (congrArg _ (trimStart_self hhead)).trans (trimEnd_append isBlank_of_mem_space hlast)

theorem trim_declarator {w head name : List Char} (hw : ∀ c ∈ w, Unicode.isBlank c = true)
    (hhead : ∀ c ∈ head.head?, Unicode.isBlank c = false) (hne : head ≠ [])
    (hname : isIdentifier name = true) :
    Unicode.trim (w ++ (head ++ ' ' :: name)) = head ++ ' ' :: name := by
  have hstart : ∀ c ∈ (head ++ ' ' :: name).head?, Unicode.isBlank c = false := by
    cases head with
    | nil => exact absurd rfl hne
    | cons d head => exact hhead
  have hend : ∀ c ∈ (head ++ ' ' :: name).getLast?, Unicode.isBlank c = false := by
    cases hlast : name.getLast? with
    | none => exact absurd (List.getLast?_eq_none_iff.1 hlast) (ne_nil_of_isIdentifier hname)
    | some d =>
      intro c hc
      obtain rfl : d = c := by simpa [List.getLast?_append, List.getLast?_cons, hlast] using hc
      exact isBlank_of_isIdentChar
        (isIdentChar_of_isIdentifier hname d (List.mem_of_getLast? hlast))
  rw [Unicode.trim, trimStart_append hw hstart]
  simpa using trimEnd_append (w := []) (by simp) hend

/-- A declarator that ends in a name is cut before it. -/
theorem Declarator.ofChars?_name {w head name : List Char}
    (hw : ∀ c ∈ w, Unicode.isBlank c = true)
    (hhead : ∀ c ∈ head.head?, Unicode.isBlank c = false) (hne : head ≠ [])
    (hname : isIdentifier name = true) :
    Declarator.ofChars? (w ++ (head ++ ' ' :: name)) = some ⟨head ++ [' '], name, 0⟩ := by
  have hstart : Unicode.trimStart (w ++ (head ++ [' '])) = head ++ [' '] := by
    refine trimStart_append hw ?_
    cases head with
    | nil => exact absurd rfl hne
    | cons d head => exact hhead
  have hspace : ∀ c ∈ (w ++ (head ++ [' '])).getLast?, isIdentChar c = false := by
    rw [← List.append_assoc, List.getLast?_concat]
    exact fun c hc => Option.some.inj hc ▸ by decide +kernel
  have hshape : w ++ (head ++ ' ' :: name) = (w ++ (head ++ [' '])) ++ (name ++ []) := by simp
  rw [hshape, Declarator.ofChars?_dims hname (.blanks (w := []) (by simp)) hspace, hstart]

/-- A single declarator of a type without array brackets. -/
theorem IsTypeText.fieldsOfDeclarators {type part head name : List Char} (h : IsTypeText type)
    (hpart : Declarator.ofChars? (before '=' part) = some ⟨head, name, 0⟩)
    (hhead : Java.stripModifiers head = type) :
    fieldsOfDeclarators [part] = some [⟨String.ofList name, String.ofList type⟩] := by
  rw [Java.fieldsOfDeclarators, hpart]
  simp [hhead, h.words_ne_nil, h.normalizeType, moreFields, Declarator.dimsText]

/-- Characters that end a declarator do not stand in a private member. -/
theorem not_mem_private {w type name : List Char} (hw : ∀ c ∈ w, Unicode.isBlank c = true)
    (ht : IsTypeText type) (hname : isIdentifier name = true) {c : Char}
    (hb : Unicode.isBlank c = false) (hp : c ∉ "private ".toList) (hc : isTypeChar c = false) :
    c ∉ w ++ (("private ".toList ++ type) ++ ' ' :: name) := by
  have hspace : c ≠ ' ' := by
    rintro rfl
    exact absurd hb (by decide)
  have hname' : c ∉ name := fun hmem => by
    rw [isTypeChar_of_isIdentChar (isIdentChar_of_isIdentifier hname c hmem)] at hc
    cases hc
  have hw' : c ∉ w := fun hmem => by
    rw [hw c hmem] at hb
    cases hb
  simp only [List.mem_append, List.mem_cons, not_or]
  exact ⟨hw', ⟨hp, ht.not_mem hc⟩, hspace, hname'⟩

/-- A private member with any annotations declares a field. -/
theorem fieldsOfStatement_private {stmt type name : List Char} (ht : IsTypeText type)
    (hname : isIdentifier name = true)
    (h : Strips stmt ("private ".toList ++ (type ++ ' ' :: name))) :
    fieldsOfStatement stmt = [⟨String.ofList name, String.ofList type⟩] := by
  obtain ⟨w, hw, heq⟩ := h
  have hshape : "private ".toList ++ (type ++ ' ' :: name) =
      ("private ".toList ++ type) ++ ' ' :: name := (List.append_assoc ..).symm
  rw [hshape] at heq
  have hparen : '(' ∉ w ++ (("private ".toList ++ type) ++ ' ' :: name) :=
    not_mem_private hw ht hname (by decide) (by decide) (by decide)
  have hequal : '=' ∉ w ++ (("private ".toList ++ type) ++ ' ' :: name) :=
    not_mem_private hw ht hname (by decide) (by decide) (by decide)
  have hcomma : ',' ∉ w ++ (("private ".toList ++ type) ++ ' ' :: name) :=
    not_mem_private hw ht hname (by decide) (by decide) (by decide)
  have hhead : ∀ c ∈ ("private ".toList ++ type).head?, Unicode.isBlank c = false := by
    intro c hc
    obtain rfl : 'p' = c := Option.some.inj hc
    decide
  have hdecl : Declarator.ofChars? (w ++ (("private ".toList ++ type) ++ ' ' :: name)) =
      some ⟨"private ".toList ++ (type ++ [' ']), name, 0⟩ := by
    rw [← List.append_assoc _ type [' ']]
    exact Declarator.ofChars?_name hw hhead (by simp) hname
  have hsplit : (before '=' (w ++ (("private ".toList ++ type) ++ ' ' :: name))).contains '(' =
      false := by
    rw [before_of_not_mem hequal]
    simpa using hparen
  have hfull : (Unicode.trim (w ++ (("private ".toList ++ type) ++ ' ' :: name))).isEmpty =
      false := by
    rw [trim_declarator hw hhead (by simp) hname]
    simp
  have hfields := ht.fieldsOfDeclarators ((before_of_not_mem hequal).symm ▸ hdecl)
    ht.stripModifiers
  rw [fieldsOfStatement, heq, hsplit, hfull, splitDeclarators_of_not_mem hcomma, hfields]
  rfl

end EntityForge.Java
