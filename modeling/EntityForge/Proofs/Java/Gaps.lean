import EntityForge.Java.SourceUnit
import EntityForge.Proofs.Java.Annotated
import EntityForge.Proofs.Java.Initializers

/-!
# Gaps in a statement

`Respaces y t w v`: the blanks `v` can stand in the place of `w` between two texts, as no identifier
runs across in one of them alone; the words of the text are then the same (`Respaces.words_eq`).
`RespacesIn` says it of two parts of a statement that may have annotations. A gap stands in an
annotation, where its blanks do not matter, or it stays where it is when the annotations are stripped
(`stripAnnotations_gap`). In both cases a statement keeps its keyword, and its initial value if it has
one (`RespacesIn.typeKeyword?_eq`, `RespacesIn.hasInitializer_eq`).
-/

namespace EntityForge.Java

/-! ## Blanks before a text -/

theorem trimStart_blanks {w : List Char} (hw : ∀ c ∈ w, Unicode.isBlank c = true)
    (cs : List Char) : Unicode.trimStart (w ++ cs) = Unicode.trimStart cs :=
  List.dropWhile_append_of_pos hw

theorem afterArguments_blanks {w : List Char} (hw : ∀ c ∈ w, Unicode.isBlank c = true)
    (cs : List Char) : afterArguments (w ++ cs) = afterArguments cs := by
  rw [afterArguments, afterArguments, trimStart_blanks hw]

theorem afterParens_blanks {w : List Char} (hw : ∀ c ∈ w, Unicode.isBlank c = true) (depth : Nat)
    (cs : List Char) : afterParens depth (w ++ cs) = afterParens depth cs := by
  induction w with
  | nil => rfl
  | cons c w ih =>
    have hc := hw c (.head _)
    have hopen : c ≠ '(' := Unicode.ne_of_class hc (by decide)
    have hclose : c ≠ ')' := Unicode.ne_of_class hc (by decide)
    rw [List.cons_append, afterParens_other hopen hclose, ih fun d hd => hw d (.tail _ hd)]

theorem afterParens_suffix (depth : Nat) (cs : List Char) : afterParens depth cs <:+ cs := by
  fun_induction afterParens depth cs with
  | case1 => exact List.suffix_rfl
  | case2 _ _ ih => exact ih.trans (List.suffix_cons _ _)
  | case3 => exact List.suffix_cons _ _
  | case4 _ _ ih => exact ih.trans (List.suffix_cons _ _)
  | case5 _ _ _ _ _ _ ih => exact ih.trans (List.suffix_cons _ _)

theorem afterArguments_suffix (cs : List Char) : afterArguments cs <:+ cs := by
  have htrim : Unicode.trimStart cs <:+ cs := List.dropWhile_suffix _
  unfold afterArguments
  split
  · rename_i rest hrest
    exact (afterParens_suffix 0 rest).trans ((hrest ▸ List.suffix_cons _ _).trans htrim)
  · exact htrim

/-- A text leaves parentheses open, or they are closed in it. -/
theorem afterParens_append (depth : Nat) (cs : List Char) :
    (∃ open_, ∀ rest, afterParens depth (cs ++ rest) = afterParens open_ rest) ∨
      ∀ rest, afterParens depth (cs ++ rest) = afterParens depth cs ++ rest := by
  fun_induction afterParens depth cs with
  | case1 depth => exact .inl ⟨depth, fun _ => rfl⟩
  | case2 depth cs ih => simpa only [List.cons_append, afterParens] using ih
  | case3 cs => exact .inr fun rest => by rw [List.cons_append, afterParens]
  | case4 depth cs ih => simpa only [List.cons_append, afterParens] using ih
  | case5 depth c cs hopen hclose hclose' ih =>
    have hne : c ≠ ')' := by
      rintro rfl
      cases depth with
      | zero => exact hclose rfl rfl
      | succ depth => exact hclose' depth rfl rfl
    simpa only [List.cons_append, afterParens_other hopen hne] using ih

/-! ## Annotations around a gap -/

/-- The text ends in the name of an annotation. -/
def EndsInAnnotation (x : List Char) : Prop :=
  ∃ lead name, x = lead ++ '@' :: name ∧ ∀ c ∈ name, isAnnotationChar c = true

theorem EndsInAnnotation.of_suffix {x y : List Char} (h : EndsInAnnotation y) (hs : y <:+ x) :
    EndsInAnnotation x := by
  obtain ⟨front, rfl⟩ := hs
  obtain ⟨lead, name, rfl, hname⟩ := h
  exact ⟨front ++ lead, name, by simp, hname⟩

/-- The text is not part of the name of an annotation that what precedes it ends in. -/
def Follows (x rest : List Char) : Prop :=
  EndsInAnnotation x → ∀ c ∈ rest.head?, isAnnotationChar c = false

theorem Follows.of_suffix {x y rest : List Char} (h : Follows x rest) (hs : y <:+ x) :
    Follows y rest :=
  fun hy => h (hy.of_suffix hs)

/-- The sign and the name of an annotation, up to where the name ends. -/
theorem stripAnnotations_sign {name after : List Char}
    (hname : ∀ c ∈ name, isAnnotationChar c = true)
    (hafter : ∀ c ∈ after.head?, isAnnotationChar c = false) :
    stripAnnotations ('@' :: (name ++ after)) =
      if name = "interface".toList then " interface".toList ++ stripAnnotations after
      else ' ' :: stripAnnotations (afterArguments after) := by
  have hall : name.all isAnnotationChar = true := List.all_eq_true.2 hname
  rw [stripAnnotations, if_pos rfl, Text.takeWhile_append_stop hall hafter,
    Text.dropWhile_append_stop hall hafter]

/-- A text that follows an annotation goes on after its name. -/
theorem stripAnnotations_sign_append (x : List Char) :
    (∀ rest, Follows ('@' :: x) rest → stripAnnotations ('@' :: x ++ rest) =
      if x.takeWhile isAnnotationChar = "interface".toList then
        " interface".toList ++ stripAnnotations (x.dropWhile isAnnotationChar ++ rest)
      else ' ' :: stripAnnotations (afterArguments (x.dropWhile isAnnotationChar ++ rest))) ∧
    x.dropWhile isAnnotationChar <:+ '@' :: x := by
  refine ⟨fun rest hf => ?_, (List.dropWhile_suffix _).trans (List.suffix_cons _ _)⟩
  have hname : ∀ c ∈ x.takeWhile isAnnotationChar, isAnnotationChar c = true :=
    fun _ => List.mem_takeWhile_imp
  have hafter : ∀ c ∈ (x.dropWhile isAnnotationChar ++ rest).head?, isAnnotationChar c = false := by
    cases hx : x.dropWhile isAnnotationChar with
    | nil =>
      rw [List.dropWhile_eq_nil_iff] at hx
      exact hf ⟨[], x, rfl, hx⟩
    | cons c after =>
      have hhead := @Text.head?_dropWhile isAnnotationChar x
      rw [hx] at hhead
      exact hhead
  rw [← stripAnnotations_sign hname hafter, ← List.append_assoc, List.takeWhile_append_dropWhile,
    List.cons_append]

/-- What follows the arguments of an annotation that are closed; if they are open, or none are
there yet, blanks that follow do not matter. -/
theorem afterArguments_gap (cs : List Char) :
    (∀ w rest, (∀ c ∈ w, Unicode.isBlank c = true) →
      afterArguments (cs ++ (w ++ rest)) = afterArguments (cs ++ rest)) ∨
    ∀ rest, afterArguments (cs ++ rest) = afterArguments cs ++ rest := by
  rw [← List.takeWhile_append_dropWhile (p := Unicode.isBlank) (l := cs)]
  have hlead : ∀ c ∈ cs.takeWhile Unicode.isBlank, Unicode.isBlank c = true :=
    fun _ => List.mem_takeWhile_imp
  simp only [List.append_assoc, afterArguments_blanks hlead]
  cases hcs : cs.dropWhile Unicode.isBlank with
  | nil => exact .inl fun w rest hw => by simp only [List.nil_append, afterArguments_blanks hw]
  | cons c after =>
    have hc : Unicode.isBlank c = false := by
      have hhead := @Text.head?_dropWhile Unicode.isBlank cs
      rw [hcs] at hhead
      exact hhead c rfl
    have htrim : ∀ rest, Unicode.trimStart (c :: after ++ rest) = c :: (after ++ rest) :=
      fun rest => List.dropWhile_cons_of_neg (by simp [hc])
    by_cases ho : c = '('
    · subst ho
      have hopen : ∀ rest, afterArguments ('(' :: after ++ rest) = afterParens 0 (after ++ rest) :=
        fun rest => by rw [afterArguments, htrim]; rfl
      rcases afterParens_append 0 after with ⟨depth, hdepth⟩ | hclosed
      · exact .inl fun w rest hw => by rw [hopen, hopen, hdepth, hdepth, afterParens_blanks hw]
      · refine .inr fun rest => ?_
        rw [hopen, hclosed, ← List.append_nil ('(' :: after), hopen, List.append_nil]
    · refine .inr fun rest => ?_
      have hself : ∀ rest, afterArguments (c :: after ++ rest) = c :: after ++ rest := by
        intro rest
        unfold afterArguments
        rw [htrim]
        split
        · rename_i heq
          exact absurd (List.cons.inj heq).1 ho
        · rfl
      rw [hself, ← List.append_nil (c :: after), hself, List.append_nil]

/-- A gap stands within an annotation, where its blanks do not matter, or it stays where it is. -/
theorem stripAnnotations_gap (x : List Char) :
    (∀ w v rest, (∀ c ∈ w, Unicode.isBlank c = true) → (∀ c ∈ v, Unicode.isBlank c = true) →
      Follows x (w ++ rest) → Follows x (v ++ rest) →
        stripAnnotations (x ++ (w ++ rest)) = stripAnnotations (x ++ (v ++ rest))) ∨
    ∀ rest, Follows x rest →
      stripAnnotations (x ++ rest) = stripAnnotations x ++ stripAnnotations rest := by
  induction x using stripAnnotations.induct with
  | case1 => exact .inr fun rest _ => by rw [stripAnnotations, List.nil_append, List.nil_append]
  | case2 x hint ih =>
    obtain ⟨hstrip, hsuffix⟩ := stripAnnotations_sign_append x
    simp only [hint, if_true] at hstrip
    rcases ih with h | h
    · refine .inl fun w v rest hw hv hfw hfv => ?_
      rw [hstrip _ hfw, hstrip _ hfv, h w v rest hw hv (hfw.of_suffix hsuffix)
        (hfv.of_suffix hsuffix)]
    · refine .inr fun rest hf => ?_
      rw [hstrip _ hf, h rest (hf.of_suffix hsuffix), stripAnnotations, if_pos rfl, if_pos hint,
        List.append_assoc]
  | case3 x hint ih =>
    obtain ⟨hstrip, hsuffix⟩ := stripAnnotations_sign_append x
    simp only [if_neg hint] at hstrip
    rcases afterArguments_gap (x.dropWhile isAnnotationChar) with hgap | hgap
    · refine .inl fun w v rest hw hv hfw hfv => ?_
      rw [hstrip _ hfw, hstrip _ hfv, hgap w rest hw, hgap v rest hv]
    · simp only [hgap] at hstrip
      have hsuffix' := (afterArguments_suffix (x.dropWhile isAnnotationChar)).trans hsuffix
      rcases ih with h | h
      · refine .inl fun w v rest hw hv hfw hfv => ?_
        rw [hstrip _ hfw, hstrip _ hfv, h w v rest hw hv (hfw.of_suffix hsuffix')
          (hfv.of_suffix hsuffix')]
      · refine .inr fun rest hf => ?_
        rw [hstrip _ hf, h rest (hf.of_suffix hsuffix'), stripAnnotations, if_pos rfl,
          if_neg hint, List.cons_append]
  | case4 c x hc ih =>
    have hcons : ∀ rest, stripAnnotations (c :: x ++ rest) = c :: stripAnnotations (x ++ rest) :=
      fun rest => by rw [List.cons_append, stripAnnotations, if_neg hc]
    have hsuffix : x <:+ c :: x := List.suffix_cons c x
    rcases ih with h | h
    · refine .inl fun w v rest hw hv hfw hfv => ?_
      rw [hcons, hcons, h w v rest hw hv (hfw.of_suffix hsuffix) (hfv.of_suffix hsuffix)]
    · refine .inr fun rest hf => ?_
      rw [hcons, h rest (hf.of_suffix hsuffix), stripAnnotations, if_neg hc, List.cons_append]

/-! ## Blanks between two texts -/

/-- Between `y` and `t` the blanks `v` can stand in the place of `w`: no identifier that ran across
is cut, and none runs across that was cut. -/
structure Respaces (y t w v : List Char) : Prop where
  left : ∀ c ∈ w, Unicode.isBlank c = true
  right : ∀ c ∈ v, Unicode.isBlank c = true
  apart : (w = [] ↔ v = []) ∨
    ∀ c ∈ y.getLast?, ∀ d ∈ t.head?, isIdentChar c = true → isIdentChar d = false

namespace Respaces

variable {y t w v : List Char}

theorem symm (h : Respaces y t w v) : Respaces y t v w where
  left := h.right
  right := h.left
  apart := h.apart.imp_left Iff.symm

theorem mono (h : Respaces y t w v) {y' t' : List Char} (hy : y' <:+ y) (ht : t' <+: t) :
    Respaces y' t' w v where
  left := h.left
  right := h.right
  apart := by
    refine h.apart.imp_right fun hapart c hc d hd => hapart c ?_ d ?_
    · obtain ⟨front, rfl⟩ := hy
      rw [List.getLast?_append, hc]
      rfl
    · obtain ⟨back, rfl⟩ := ht
      rw [List.head?_append, hd]
      rfl

end Respaces

/-- With a gap that is there, or without one where no word runs across, the words are those of the
two texts. -/
theorem words_append_gap {y t w : List Char} (hw : ∀ c ∈ w, Unicode.isBlank c = true)
    (h : w ≠ [] ∨ ∀ c ∈ y.getLast?, ∀ d ∈ t.head?, isIdentChar c = true → isIdentChar d = false) :
    words (y ++ (w ++ t)) = words y ++ words t := by
  refine Text.piecesBy_append_gap (fun c hc => ?_) (h.imp_right fun hapart c hc d hd => ?_)
  · rw [isIdentChar_of_isBlank (hw c hc)]
    rfl
  · by_cases hident : isIdentChar c = true
    · rw [hapart c hc d hd hident]
      exact .inr rfl
    · exact .inl (by simpa using hident)

theorem Respaces.words_eq {y t w v : List Char} (h : Respaces y t w v) :
    words (y ++ (w ++ t)) = words (y ++ (v ++ t)) := by
  by_cases hiff : w = [] ↔ v = []
  · by_cases hw : w = []
    · rw [hw, hiff.1 hw]
    · rw [words_append_gap h.left (.inl hw), words_append_gap h.right (.inl fun hv => hw (hiff.2 hv))]
  · have hapart := h.apart.resolve_left hiff
    rw [words_append_gap h.left (.inr hapart), words_append_gap h.right (.inr hapart)]

/-! ## The text before a mark -/

theorem before_append_of_mem {c : Char} {y : List Char} (h : c ∈ y) (rest : List Char) :
    before c (y ++ rest) = before c y := by
  induction y with
  | nil => cases h
  | cons d y ih =>
    by_cases hd : d = c
    · simp [before, hd]
    · have hy : c ∈ y := (List.mem_cons.1 h).resolve_left (Ne.symm hd)
      have hrest := ih hy
      simp only [before] at hrest ⊢
      rw [List.cons_append, List.takeWhile_cons_of_pos (by simpa using hd), hrest,
        List.takeWhile_cons_of_pos (by simpa using hd)]

theorem before_gap {c : Char} (hc : Unicode.isBlank c = false) {y w : List Char} (h : c ∉ y)
    (hw : ∀ d ∈ w, Unicode.isBlank d = true) (t : List Char) :
    before c (y ++ (w ++ t)) = y ++ (w ++ before c t) := by
  have hcw : c ∉ w := fun hmem => by
    rw [hw c hmem] at hc
    cases hc
  rw [before_append_of_not_mem h, before_append_of_not_mem hcw]

theorem before_isPrefix (c : Char) (t : List Char) : before c t <+: t :=
  List.takeWhile_prefix _

theorem before_mono (c : Char) {q t : List Char} (h : q <+: t) : before c q <+: before c t := by
  obtain ⟨rest, rfl⟩ := h
  by_cases hmem : c ∈ q
  · exact before_append_of_mem hmem rest ▸ List.prefix_rfl
  · rw [before_append_of_not_mem hmem, before_of_not_mem hmem]
    exact List.prefix_append _ _

/-! ## Blanks in a statement -/

/-- Between the parts `x` and `r` of a statement the blanks `v` can stand in the place of `w`. -/
structure RespacesIn (x r w v : List Char) : Prop where
  blanks : Respaces (stripAnnotations x) r w v
  left : Follows x (w ++ r)
  right : Follows x (v ++ r)

theorem head?_stripAnnotations {r : List Char} {d : Char} (h : d ∈ (stripAnnotations r).head?)
    (hd : isIdentChar d = true) : d ∈ r.head? := by
  have hspace : isIdentChar ' ' = false := by decide +kernel
  cases r with
  | nil => simp [stripAnnotations] at h
  | cons c r =>
    rw [stripAnnotations] at h
    split at h
    · have hblank : d = ' ' := by
        split at h
        · exact (Option.some.inj h).symm
        · exact (Option.some.inj h).symm
      rw [hblank, hspace] at hd
      cases hd
    · exact h

namespace RespacesIn

variable {x r w v : List Char}

theorem symm (h : RespacesIn x r w v) : RespacesIn x r v w where
  blanks := h.blanks.symm
  left := h.right
  right := h.left

theorem stripped (h : RespacesIn x r w v) :
    Respaces (stripAnnotations x) (stripAnnotations r) w v where
  left := h.blanks.left
  right := h.blanks.right
  apart := h.blanks.apart.imp_right fun hapart c hc d hd hident => by
    by_contra hnot
    have hnot : isIdentChar d = true := by simpa using hnot
    rw [hapart c hc d (head?_stripAnnotations hd hnot) hident] at hnot
    cases hnot

/-- Without its annotations the statement is the same, or the gap has stayed. -/
theorem strip (h : RespacesIn x r w v) :
    stripAnnotations (x ++ (w ++ r)) = stripAnnotations (x ++ (v ++ r)) ∨
      (stripAnnotations (x ++ (w ++ r)) = stripAnnotations x ++ (w ++ stripAnnotations r) ∧
        stripAnnotations (x ++ (v ++ r)) = stripAnnotations x ++ (v ++ stripAnnotations r)) := by
  rcases stripAnnotations_gap x with hgap | hgap
  · exact .inl (hgap w v r h.blanks.left h.blanks.right h.left h.right)
  · exact .inr ⟨by rw [hgap _ h.left, stripAnnotations_blanks h.blanks.left],
      by rw [hgap _ h.right, stripAnnotations_blanks h.blanks.right]⟩

theorem hasInitializer_eq (h : RespacesIn x r w v) :
    hasInitializer (x ++ (w ++ r)) = hasInitializer (x ++ (v ++ r)) := by
  have hnone : ∀ {u : List Char}, (∀ c ∈ u, Unicode.isBlank c = true) → '=' ∉ u :=
    fun hu hmem => absurd (hu _ hmem) (by decide)
  rcases h.strip with heq | ⟨hw, hv⟩
  · rw [hasInitializer, heq, hasInitializer]
  · rw [hasInitializer, hasInitializer, hw, hv]
    simp [hnone h.blanks.left, hnone h.blanks.right]

theorem typeKeyword?_eq (h : RespacesIn x r w v) :
    typeKeyword? (x ++ (w ++ r)) = typeKeyword? (x ++ (v ++ r)) := by
  rcases h.strip with heq | ⟨hw, hv⟩
  · rw [typeKeyword?, heq, typeKeyword?]
  · rw [typeKeyword?, typeKeyword?, hw, hv]
    by_cases hmem : '(' ∈ stripAnnotations x
    · rw [before_append_of_mem hmem, before_append_of_mem hmem]
    · rw [before_gap (by decide) hmem h.blanks.left, before_gap (by decide) hmem h.blanks.right,
        (h.stripped.mono List.suffix_rfl (before_isPrefix _ _)).words_eq]

end RespacesIn

end EntityForge.Java
