import EntityForge.Proofs.Java.Initializers

/-!
# Syntax of types

`TypeTree` is the syntax of types: dotted names with type arguments, wildcards and array brackets,
nested to any depth. `TypeTree.text` writes a type with one blank after each comma and around the
word of a bound. That is the normal form of the type (`JavaType.normalizeType_text`), and a type
that starts with no modifier can be read from it (`JavaType.isTypeSpelling_text`).

Types, arguments and lists of arguments are parts of one inductive type, so that every fact about
them is one induction.
-/

namespace EntityForge.Java

open Text (encloseStep enclose isEnclosed)

/-! ## Trees -/

/-- A word of identifier characters; unlike an identifier it may start with a digit. -/
structure Word where
  chars : List Char
  ne_nil : chars ≠ []
  ident : ∀ c ∈ chars, isIdentChar c = true

/-- The text as a word. -/
def wordOf (text : String) (h : (!text.toList.isEmpty && text.toList.all isIdentChar) = true) :
    Word where
  chars := text.toList
  ne_nil := by
    rw [Bool.and_eq_true] at h
    simpa using h.1
  ident := by
    rw [Bool.and_eq_true] at h
    exact List.all_eq_true.1 h.2

/-- A name with dots between its words. -/
structure QualifiedName where
  first : Word
  rest : List Word

def QualifiedName.text (n : QualifiedName) : List Char :=
  n.first.chars ++ n.rest.flatMap ('.' :: ·.chars)

/-- The word between a wildcard and its bound. -/
inductive Bound where
  | upper
  | lower

def Bound.text : Bound → List Char
  | upper => "extends".toList
  | lower => "super".toList

/-- What a tree stands for. -/
inductive TypePart where
  | type
  | argument
  | arguments

/-- Types, type arguments and lists of them. -/
inductive TypeTree : TypePart → Type where
  | plain (name : QualifiedName) (dims : Nat) : TypeTree .type
  | generic (name : QualifiedName) (args : TypeTree .arguments) (dims : Nat) : TypeTree .type
  | exact (type : TypeTree .type) : TypeTree .argument
  | wildcard : TypeTree .argument
  | bounded (bound : Bound) (type : TypeTree .type) : TypeTree .argument
  | single (arg : TypeTree .argument) : TypeTree .arguments
  | more (arg : TypeTree .argument) (args : TypeTree .arguments) : TypeTree .arguments

abbrev JavaType := TypeTree .type

/-- The text of a tree in normal form. -/
def TypeTree.text {part : TypePart} : TypeTree part → List Char
  | plain name dims => name.text ++ bracketPairs dims
  | generic name args dims => name.text ++ '<' :: (args.text ++ '>' :: bracketPairs dims)
  | exact type => type.text
  | wildcard => ['?']
  | bounded bound type => '?' :: ' ' :: (bound.text ++ ' ' :: type.text)
  | single arg => arg.text
  | more arg args => arg.text ++ ',' :: ' ' :: args.text

/-- The name of a type without arguments and brackets. -/
def JavaType.name : JavaType → QualifiedName
  | .plain name _ => name
  | .generic name _ _ => name

/-! ## Characters -/

/-- The character can stand in a type in normal form. -/
def isTypeTextChar (c : Char) : Bool :=
  isIdentChar c || " .,?<>[]".toList.contains c

theorem isTypeTextChar_of_isIdentChar {c : Char} (h : isIdentChar c = true) :
    isTypeTextChar c = true := by
  rw [isTypeTextChar, h, Bool.true_or]

theorem QualifiedName.mem_text {n : QualifiedName} {c : Char} (h : c ∈ n.text) :
    isIdentChar c = true ∨ c = '.' := by
  rw [text, List.mem_append, List.mem_flatMap] at h
  rcases h with h | ⟨w, -, h⟩
  · exact .inl (n.first.ident c h)
  · rcases List.mem_cons.1 h with rfl | h
    · exact .inr rfl
    · exact .inl (w.ident c h)

theorem isTypeTextChar_of_mem_bracketPairs {k : Nat} {c : Char} (h : c ∈ bracketPairs k) :
    isTypeTextChar c = true := by
  rcases mem_bracketPairs h with rfl | rfl <;> decide

theorem QualifiedName.isTypeTextChar_of_mem {n : QualifiedName} {c : Char} (h : c ∈ n.text) :
    isTypeTextChar c = true := by
  rcases mem_text h with h | rfl
  · exact isTypeTextChar_of_isIdentChar h
  · decide

theorem TypeTree.isTypeTextChar_of_mem {part : TypePart} (t : TypeTree part) :
    ∀ c ∈ t.text, isTypeTextChar c = true := by
  induction t with
  | plain name dims =>
    intro c hc
    rcases List.mem_append.1 hc with hc | hc
    · exact QualifiedName.isTypeTextChar_of_mem hc
    · exact isTypeTextChar_of_mem_bracketPairs hc
  | generic name args dims ih =>
    intro c hc
    simp only [text, List.mem_append, List.mem_cons] at hc
    rcases hc with hc | rfl | hc | rfl | hc
    · exact QualifiedName.isTypeTextChar_of_mem hc
    · decide
    · exact ih c hc
    · decide
    · exact isTypeTextChar_of_mem_bracketPairs hc
  | exact type ih => exact ih
  | wildcard => exact List.forall_mem_singleton.2 (by decide)
  | bounded bound type ih =>
    intro c hc
    simp only [text, List.mem_append, List.mem_cons] at hc
    rcases hc with rfl | rfl | hc | rfl | hc
    · decide
    · decide
    · have hword : bound.text.all isTypeTextChar = true := by cases bound <;> decide +kernel
      exact List.all_eq_true.1 hword c hc
    · decide
    · exact ih c hc
  | single arg ih => exact ih
  | more arg args iharg ihargs =>
    intro c hc
    simp only [text, List.mem_append, List.mem_cons] at hc
    rcases hc with hc | rfl | rfl | hc
    · exact iharg c hc
    · decide
    · decide
    · exact ihargs c hc

/-! ## Brackets -/

theorem QualifiedName.enclose_text (n : QualifiedName) (due : List Char) :
    enclose (declaratorBrackets false) ',' due n.text = some due := by
  refine enclose_unmarked (fun c hc => ?_) false due
  rcases mem_text hc with h | rfl
  · exact isDeclaratorMark_of_isIdentChar h
  · decide

/-- A type is enclosed wherever it stands, and type arguments are within angle brackets. -/
theorem TypeTree.enclose_text {part : TypePart} (t : TypeTree part) {due : List Char}
    (h : part = .type ∨ due ≠ []) :
    enclose (declaratorBrackets false) ',' due t.text = some due := by
  induction t generalizing due with
  | plain name dims =>
    simp [text, Text.enclose_append, name.enclose_text, (isDims_bracketPairs dims).enclose]
  | generic name args dims ih =>
    have hopen : encloseStep (declaratorBrackets false) ',' due '<' = some ('>' :: due) :=
      if_neg (by simp)
    have hclose : encloseStep (declaratorBrackets false) ',' ('>' :: due) '>' = some due := rfl
    have hargs : enclose (declaratorBrackets false) ',' ('>' :: due) args.text =
        some ('>' :: due) := ih (.inr (List.cons_ne_nil _ _))
    simp only [text, Text.enclose_append, Text.enclose_cons, name.enclose_text, hopen, hclose,
      hargs, (isDims_bracketPairs dims).enclose, Option.bind_some]
  | exact type ih => exact ih (.inl rfl)
  | wildcard => exact enclose_unmarked (List.forall_mem_singleton.2 (by decide)) false due
  | bounded bound type ih =>
    have hword : ('?' :: ' ' :: (bound.text ++ [' '])).all (fun c => !isDeclaratorMark c) = true := by
      cases bound <;> decide
    have hfirst : enclose (declaratorBrackets false) ',' due ('?' :: ' ' :: (bound.text ++ [' '])) =
        some due := enclose_unmarked (by simpa using List.all_eq_true.1 hword) false due
    have hshape : (bounded bound type).text =
        ('?' :: ' ' :: (bound.text ++ [' '])) ++ type.text := by simp [text]
    rw [hshape, Text.enclose_append, hfirst]
    exact ih (.inl rfl)
  | single arg ih => exact ih (.inr (h.resolve_left TypePart.noConfusion))
  | more arg args iharg ihargs =>
    have hdue : due ≠ [] := h.resolve_left TypePart.noConfusion
    have hcomma : encloseStep (declaratorBrackets false) ',' due ',' = some due :=
      if_neg fun hc => hdue hc.1
    have hspace : encloseStep (declaratorBrackets false) ',' due ' ' = some due :=
      if_neg (by simp)
    simp only [text, Text.enclose_append, Text.enclose_cons, iharg (.inr hdue), hcomma, hspace,
      ihargs (.inr hdue), Option.bind_some]

/-! ## Normal forms -/

/-- The text is words with one space between them. -/
inductive IsSpaced : List Char → Prop
  | word {w : List Char} (hne : w ≠ []) (hw : ∀ c ∈ w, Unicode.isBlank c = false) : IsSpaced w
  | more {w cs : List Char} (hne : w ≠ []) (hw : ∀ c ∈ w, Unicode.isBlank c = false)
      (h : IsSpaced cs) : IsSpaced (w ++ ' ' :: cs)

namespace IsSpaced

variable {cs ds : List Char}

theorem append_word {w : List Char} (hw : ∀ c ∈ w, Unicode.isBlank c = false) (h : IsSpaced cs) :
    IsSpaced (w ++ cs) := by
  cases h with
  | word hne hv =>
    refine .word (by simp [hne]) fun c hc => ?_
    exact (List.mem_append.1 hc).elim (hw c) (hv c)
  | more hne hv h =>
    rw [← List.append_assoc]
    refine .more (by simp [hne]) (fun c hc => ?_) h
    exact (List.mem_append.1 hc).elim (hw c) (hv c)

theorem append (hc : IsSpaced cs) (hd : IsSpaced ds) : IsSpaced (cs ++ ds) := by
  induction hc with
  | word hne hw => exact hd.append_word hw
  | more hne hw h ih =>
    rw [List.append_assoc, List.cons_append]
    exact .more hne hw ih

theorem space (hc : IsSpaced cs) (hd : IsSpaced ds) : IsSpaced (cs ++ ' ' :: ds) := by
  induction hc with
  | word hne hw => exact .more hne hw hd
  | more hne hw h ih =>
    rw [List.append_assoc, List.cons_append]
    exact .more hne hw ih

/-- The words of the text are what it was made of. -/
theorem intercalate_splitBlank (h : IsSpaced cs) :
    Unicode.splitBlank cs ≠ [] ∧ [' '].intercalate (Unicode.splitBlank cs) = cs := by
  induction h with
  | word hne hw =>
    rw [Unicode.splitBlank, Text.piecesBy_self hw hne, List.intercalate_singleton]
    exact ⟨List.cons_ne_nil _ _, rfl⟩
  | @more w cs hne hw h ih =>
    obtain ⟨hpieces, hcs⟩ := ih
    have hsplit : Unicode.splitBlank (w ++ ' ' :: cs) = w :: Unicode.splitBlank cs :=
      Text.piecesBy_append hw hne (by decide) cs
    rw [hsplit]
    refine ⟨List.cons_ne_nil _ _, ?_⟩
    cases hrest : Unicode.splitBlank cs with
    | nil => exact absurd hrest hpieces
    | cons v vs =>
      rw [hrest] at hcs
      rw [List.intercalate_cons_cons, hcs, List.append_assoc, List.singleton_append]

theorem ne_nil (h : IsSpaced cs) : cs ≠ [] := by
  cases h with
  | word hne hw => exact hne
  | more hne hw h => simp

/-- The text ends in a word. -/
theorem getLast? (h : IsSpaced cs) : ∀ c ∈ cs.getLast?, Unicode.isBlank c = false := by
  induction h with
  | word hne hw => exact fun c hc => hw c (List.mem_of_getLast? hc)
  | @more w cs hne hw h ih =>
    rw [List.append_cons, List.getLast?_append_of_ne_nil _ h.ne_nil]
    exact ih

end IsSpaced

/-- Gluing leaves the text as it is, whatever stands around it. -/
def Glues (cs : List Char) : Prop :=
  cs.head? ≠ some ' ' ∧
    ∀ prev rest, rest.head? ≠ some ' ' → glue prev (cs ++ rest) = cs ++ glue none rest

theorem glue_prev {rest : List Char} (h : rest.head? ≠ some ' ') (prev : Option Char) :
    glue prev rest = glue none rest := by
  cases rest with
  | nil => rfl
  | cons c rest =>
    have hc : c ≠ ' ' := fun hc => h (by rw [hc]; rfl)
    rw [glue, glue, if_neg hc, if_neg hc]

theorem glue_word {w : List Char} (hne : w ≠ []) (hw : ∀ c ∈ w, c ≠ ' ' ∧ c ≠ ',')
    (prev : Option Char) (rest : List Char) :
    glue prev (w ++ rest) = w ++ glue w.getLast? rest := by
  induction w generalizing prev with
  | nil => exact absurd rfl hne
  | cons c w ih =>
    have hc := hw c (.head _)
    rw [List.cons_append, glue, if_neg hc.1, if_neg hc.2, List.cons_append]
    cases w with
    | nil => rfl
    | cons d w =>
      rw [ih (List.cons_ne_nil _ _) fun e he => hw e (.tail _ he), List.getLast?_cons_cons]

namespace Glues

variable {cs ds : List Char}

theorem word {w : List Char} (hne : w ≠ []) (hw : ∀ c ∈ w, c ≠ ' ' ∧ c ≠ ',') : Glues w := by
  refine ⟨fun h => ?_, fun prev rest hrest => ?_⟩
  · exact (hw ' ' (List.mem_of_mem_head? h)).1 rfl
  · rw [glue_word hne hw, glue_prev hrest]

theorem append (hc : Glues cs) (hd : Glues ds) : Glues (cs ++ ds) := by
  have happend : ∀ {xs ys : List Char}, xs.head? ≠ some ' ' → ys.head? ≠ some ' ' →
      (xs ++ ys).head? ≠ some ' ' := by
    intro xs ys hx hy
    cases xs with
    | nil => exact hy
    | cons c xs => exact hx
  refine ⟨happend hc.1 hd.1, fun prev rest hrest => ?_⟩
  rw [List.append_assoc, hc.2 prev _ (happend hd.1 hrest), hd.2 none rest hrest, List.append_assoc]

/-- One blank after a comma stays. -/
theorem comma : Glues [',', ' '] := by
  refine ⟨by decide, fun prev rest hrest => ?_⟩
  have hcomma : glue prev (',' :: ' ' :: rest) = ',' :: ' ' :: glue (some ' ') rest := by
    simp [glue, gluesRight]
  exact hcomma.trans (by rw [glue_prev hrest]; rfl)

/-- A blank stays between characters that do not glue. -/
theorem space {w : List Char} (hne : w ≠ []) (hw : ∀ c ∈ w, c ≠ ' ' ∧ c ≠ ',')
    (hlast : ∀ c ∈ w.getLast?, gluesRight c = false) (hd : Glues ds)
    (hfirst : ∃ c ∈ ds.head?, gluesLeft c = false) : Glues (w ++ ' ' :: ds) := by
  obtain ⟨c, hc, hleft⟩ := hfirst
  obtain ⟨ds, rfl⟩ : ∃ r, ds = c :: r := ⟨_, List.eq_cons_of_mem_head? hc⟩
  have hprev : w.getLast?.any gluesRight = false := by
    cases hw' : w.getLast? with
    | none => rfl
    | some d => simpa using hlast d hw'
  refine ⟨fun h => ?_, fun prev rest hrest => ?_⟩
  · cases w with
    | nil => exact hne rfl
    | cons d w => exact (hw d (.head _)).1 (Option.some.inj h)
  · have hspace : glue w.getLast? (' ' :: (c :: ds ++ rest)) =
        ' ' :: glue (some ' ') (c :: ds ++ rest) := by
      rw [glue, if_pos rfl, if_neg]
      simp [hprev, hleft]
    rw [List.append_assoc, List.cons_append, glue_word hne hw, hspace, hd.2 _ rest hrest,
      List.append_assoc]
    rfl

end Glues

/-- The text is in the normal form of types. -/
structure IsNormalForm (cs : List Char) : Prop where
  spaced : IsSpaced cs
  glues : Glues cs

namespace IsNormalForm

variable {cs ds : List Char}

theorem normalizeType (h : IsNormalForm cs) : normalizeType cs = cs := by
  have hglue := h.glues.2 none [] (by simp)
  rw [List.append_nil] at hglue
  rw [Java.normalizeType, h.spaced.intercalate_splitBlank.2, hglue]
  exact List.append_nil cs

theorem word {w : List Char} (hne : w ≠ [])
    (hw : ∀ c ∈ w, Unicode.isBlank c = false ∧ c ≠ ',') : IsNormalForm w where
  spaced := .word hne fun c hc => (hw c hc).1
  glues := .word hne fun c hc => ⟨fun h => absurd (hw c hc).1 (by rw [h]; decide), (hw c hc).2⟩

theorem append (hc : IsNormalForm cs) (hd : IsNormalForm ds) : IsNormalForm (cs ++ ds) where
  spaced := hc.spaced.append hd.spaced
  glues := hc.glues.append hd.glues

theorem comma (hc : IsNormalForm cs) (hd : IsNormalForm ds) :
    IsNormalForm (cs ++ ',' :: ' ' :: ds) where
  spaced := hc.spaced.append ((IsSpaced.word (w := [',']) (by simp) (by simp; decide)).space
    hd.spaced)
  glues := hc.glues.append (Glues.comma.append hd.glues)

theorem space {w : List Char} (hne : w ≠ [])
    (hw : ∀ c ∈ w, Unicode.isBlank c = false ∧ c ≠ ',')
    (hlast : ∀ c ∈ w.getLast?, gluesRight c = false) (hd : IsNormalForm ds)
    (hfirst : ∃ c ∈ ds.head?, gluesLeft c = false) : IsNormalForm (w ++ ' ' :: ds) where
  spaced := (IsSpaced.word hne fun c hc => (hw c hc).1).space hd.spaced
  glues := .space hne (fun c hc => ⟨fun h => absurd (hw c hc).1 (by rw [h]; decide), (hw c hc).2⟩)
    hlast hd.glues hfirst

end IsNormalForm

/-! ## Types in normal form -/

theorem gluesLeft_of_isIdentChar {c : Char} (h : isIdentChar c = true) : gluesLeft c = false := by
  have hmarks : c ∉ "<>,[]".toList := Unicode.not_mem_of_class h (by decide +kernel)
  simpa [gluesLeft, and_assoc] using hmarks

theorem QualifiedName.isWord_of_mem {n : QualifiedName} {c : Char} (h : c ∈ n.text) :
    Unicode.isBlank c = false ∧ c ≠ ',' := by
  rcases mem_text h with h | rfl
  · exact ⟨isBlank_of_isIdentChar h, Unicode.ne_of_class h (by decide +kernel)⟩
  · decide

theorem QualifiedName.text_ne_nil (n : QualifiedName) : n.text ≠ [] := by
  simp [text, n.first.ne_nil]

theorem QualifiedName.isNormalForm (n : QualifiedName) : IsNormalForm n.text :=
  .word n.text_ne_nil fun _ => isWord_of_mem

theorem isWord_of_mem_bracketPairs {k : Nat} {c : Char} (h : c ∈ bracketPairs k) :
    Unicode.isBlank c = false ∧ c ≠ ',' := by
  rcases mem_bracketPairs h with rfl | rfl <;> decide

/-- A type starts with the first word of its name, which a mark or nothing follows. -/
theorem JavaType.text_eq (t : JavaType) : ∃ rest, t.text = t.name.first.chars ++ rest ∧
    ∀ c ∈ rest.head?, isIdentChar c = false := by
  obtain ⟨after, hafter, hhead⟩ : ∃ after, t.text = t.name.text ++ after ∧
      ∀ c ∈ after.head?, isIdentChar c = false := by
    cases t with
    | plain name dims =>
      refine ⟨bracketPairs dims, rfl, fun c hc => ?_⟩
      rcases mem_bracketPairs (List.mem_of_mem_head? hc) with rfl | rfl <;> decide +kernel
    | generic name args dims =>
      exact ⟨_, rfl, fun c hc => Option.some.inj hc ▸ by decide +kernel⟩
  refine ⟨t.name.rest.flatMap ('.' :: ·.chars) ++ after, by
    rw [hafter, QualifiedName.text, List.append_assoc], ?_⟩
  cases t.name.rest with
  | nil => exact hhead
  | cons w ws => exact fun c hc => Option.some.inj hc ▸ by decide +kernel

theorem JavaType.head_text (t : JavaType) : ∃ c ∈ t.text.head?, isIdentChar c = true := by
  obtain ⟨rest, hrest, -⟩ := t.text_eq
  cases hchars : t.name.first.chars with
  | nil => exact absurd hchars t.name.first.ne_nil
  | cons c cs =>
    refine ⟨c, by rw [hrest, hchars]; rfl, t.name.first.ident c (by rw [hchars]; exact .head _)⟩

theorem TypeTree.isNormalForm {part : TypePart} (t : TypeTree part) : IsNormalForm t.text := by
  induction t with
  | plain name dims =>
    refine .word (by simp [text, name.text_ne_nil]) fun c hc => ?_
    exact (List.mem_append.1 hc).elim QualifiedName.isWord_of_mem isWord_of_mem_bracketPairs
  | generic name args dims ih =>
    have hopen : IsNormalForm ['<'] := .word (by simp) (by simp; decide)
    have hclose : IsNormalForm ('>' :: bracketPairs dims) := by
      refine .word (by simp) fun c hc => ?_
      rcases List.mem_cons.1 hc with rfl | hc
      · decide
      · exact isWord_of_mem_bracketPairs hc
    exact name.isNormalForm.append (hopen.append (ih.append hclose))
  | exact type ih => exact ih
  | wildcard => exact .word (List.cons_ne_nil _ _) (List.forall_mem_singleton.2 (by decide))
  | bounded bound type ih =>
    obtain ⟨c, hc, hident⟩ := JavaType.head_text type
    have htype : IsNormalForm (bound.text ++ ' ' :: type.text) := by
      refine .space (by cases bound <;> decide) ?_ ?_ ih ⟨c, hc, gluesLeft_of_isIdentChar hident⟩
      · have hall : bound.text.all (fun c => !Unicode.isBlank c && c != ',') = true := by
          cases bound <;> decide
        simpa using hall
      · have hlast : bound.text.getLast?.all (fun c => !gluesRight c) = true := by
          cases bound <;> decide
        intro c hc
        rw [hc] at hlast
        simpa using hlast
    have hbound : ∃ c ∈ (bound.text ++ ' ' :: type.text).head?, gluesLeft c = false := by
      cases bound <;> exact ⟨_, rfl, by decide⟩
    exact .space (w := ['?']) (List.cons_ne_nil _ _) (List.forall_mem_singleton.2 (by decide))
      (fun c hc => Option.some.inj hc ▸ by decide) htype hbound
  | single arg ih => exact ih
  | more arg args iharg ihargs => exact iharg.comma ihargs

theorem JavaType.normalizeType_text (t : JavaType) : normalizeType t.text = t.text :=
  (TypeTree.isNormalForm t).normalizeType

theorem isSpacedTypeChar_of_isTypeTextChar {c : Char} (h : isTypeTextChar c = true) :
    isSpacedTypeChar c = true := by
  have hmarks : " .,?<>[]".toList.all isSpacedTypeChar = true := by decide
  rcases Bool.or_eq_true_iff.1 h with h | h
  · rw [isSpacedTypeChar, h, Bool.true_or, Bool.true_or]
  · exact List.all_eq_true.1 hmarks c (List.contains_iff_mem.1 h)

/-- A type that starts with no modifier can be read. -/
theorem JavaType.isTypeSpelling_text (t : JavaType) (h : t.name.first.chars ∉ modifiers) :
    IsTypeSpelling t.text where
  chars := List.all_eq_true.2 fun c hc =>
    isSpacedTypeChar_of_isTypeTextChar (TypeTree.isTypeTextChar_of_mem t c hc)
  enclosed := Text.isEnclosed_iff.2 (TypeTree.enclose_text t (.inl rfl))
  first := by
    obtain ⟨rest, htext, hrest⟩ := t.text_eq
    exact ⟨_, rest, htext, t.name.first.ne_nil, t.name.first.ident, hrest, fun hm => absurd hm h⟩
  last := (TypeTree.isNormalForm t).spaced.getLast?

end EntityForge.Java
