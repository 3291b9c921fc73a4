import EntityForge.Proofs.Java.TypeGaps
import Mathlib.Logic.Relation

/-!
# Types with one normal form

`Reblanked s t`: the texts differ in the blanks of one place, where both have some or where blanks
have no meaning in a type (`IsIdleGap`). Such a change leaves the normal form as it is
(`Reblanked.normalizeType_eq`), and every text is brought into its normal form by such changes
(`reblanked_normalizeType`). So a normal form is its own normal form, and two texts have the same one
exactly if such changes lead from one to the other (`normalizeType_canonical`).
-/

namespace EntityForge.Java

open Relation (ReflTransGen)

/-! ## Blanks without meaning -/

/-- Blanks between the two parts of a type have no meaning: they stand at one of its ends, after `<`,
`,` or `[`, or before one of these, `>` or `]`. -/
def IsIdleGap (u r : List Char) : Prop :=
  u = [] ∨ r = [] ∨ (∃ c ∈ u.getLast?, c ∈ ['<', ',', '[']) ∨
    ∃ d ∈ r.head?, d ∈ ['<', ',', '[', '>', ']']

/-- The texts differ in the blanks of one place: both have some there, or blanks have no meaning
there. -/
inductive Reblanked : List Char → List Char → Prop
  | gap {w v : List Char} (u r : List Char) (hw : ∀ c ∈ w, Unicode.isBlank c = true)
      (hv : ∀ c ∈ v, Unicode.isBlank c = true) (h : (w ≠ [] ∧ v ≠ []) ∨ IsIdleGap u r) :
      Reblanked (u ++ (w ++ r)) (u ++ (v ++ r))

theorem gluesRight_iff {c : Char} : gluesRight c = true ↔ c ∈ ['<', ',', '['] := by
  simp [gluesRight, or_assoc]

theorem gluesLeft_iff {c : Char} : gluesLeft c = true ↔ c ∈ ['<', ',', '[', '>', ']'] := by
  simp only [gluesLeft, Bool.or_eq_true, beq_iff_eq, List.mem_cons, List.not_mem_nil, or_false]
  tauto

/-- Where one of two parts glues to the other, blanks between them can go. -/
theorem normalizeType_gap {u r w : List Char} (hw : ∀ c ∈ w, Unicode.isBlank c = true)
    (h : (∃ c ∈ u.getLast?, gluesRight c = true) ∨ ∃ d ∈ r.head?, gluesLeft d = true) :
    normalizeType (u ++ (w ++ r)) = normalizeType (u ++ r) := by
  rcases splitBlank_gap u r with hsplit | ⟨front, x, z, back, c, hc, d, hd, hx, hz, hcb, hdb, -,
    hnone, hsome⟩
  · have hnil := hsplit [] (by simp)
    rw [List.nil_append] at hnil
    rw [normalizeType, normalizeType, hsplit w hw, hnil]
  · have hglue := glues_of_ends hc hd h
    by_cases hne : w = []
    · rw [hne, List.nil_append]
    · rw [normalizeType, normalizeType, hsome w hw hne, hnone, glue_parted hx hz hcb hdb hglue]

namespace Reblanked

variable {s t : List Char}

theorem symm (h : Reblanked s t) : Reblanked t s := by
  obtain ⟨u, r, hw, hv, h⟩ := h
  exact .gap u r hv hw (h.imp_left And.symm)

instance : Std.Symm Reblanked where
  symm _ _ := symm

/-- The normal form stays as it is. -/
theorem normalizeType_eq (h : Reblanked s t) : normalizeType s = normalizeType t := by
  obtain ⟨u, r, hw, hv, ⟨hwne, hvne⟩ | rfl | rfl | hglue⟩ := h
  · rw [normalizeType, normalizeType, splitBlank_append_gap hw (.inl hwne),
      splitBlank_append_gap hv (.inl hvne)]
  · rw [List.nil_append, List.nil_append, normalizeType, normalizeType, splitBlank_blanks_left hw,
      splitBlank_blanks_left hv]
  · rw [List.append_nil, List.append_nil, normalizeType, normalizeType, splitBlank_blanks_right hw,
      splitBlank_blanks_right hv]
  · simp only [← gluesRight_iff, ← gluesLeft_iff] at hglue
    rw [normalizeType_gap hw hglue, normalizeType_gap hv hglue]

/-- A single blank without meaning is dropped. -/
theorem drop_space {u r : List Char} (h : IsIdleGap u r) : Reblanked (u ++ ' ' :: r) (u ++ r) :=
  .gap u r (w := [' ']) (v := []) isBlank_of_mem_space (by simp) (.inr h)

/-- A run of blanks becomes a single one. -/
theorem single_space {w : List Char} (hne : w ≠ []) (hw : ∀ c ∈ w, Unicode.isBlank c = true)
    (u r : List Char) : Reblanked (u ++ (w ++ r)) (u ++ ' ' :: r) :=
  .gap u r (v := [' ']) hw isBlank_of_mem_space (.inl ⟨hne, by simp⟩)

end Reblanked

/-! ## Single blanks between words -/

/-- From a blank on, the words of a text are parted by single blanks. The last word before `t` is `w`,
which may go on. -/
theorem reblanked_words {w : List Char} (hw : ∀ c ∈ w, Unicode.isBlank c = false)
    (front t : List Char) : ReflTransGen Reblanked (front ++ ' ' :: (w ++ t))
      (front ++ (Unicode.splitBlank (w ++ t)).flatMap (' ' :: ·)) := by
  induction t generalizing front w with
  | nil =>
    rw [List.append_nil]
    by_cases hne : w = []
    · subst hne
      exact .single (.drop_space (.inr (.inl rfl)))
    · rw [Unicode.splitBlank, Text.piecesBy_self hw hne, List.flatMap_singleton]
  | cons c t ih =>
    by_cases hc : Unicode.isBlank c = true
    · have hrest : ∀ front, ReflTransGen Reblanked (front ++ ' ' :: t)
          (front ++ (Unicode.splitBlank t).flatMap (' ' :: ·)) := ih (w := []) (by simp)
      by_cases hne : w = []
      · subst hne
        have hstep : Reblanked (front ++ ' ' :: c :: t) (front ++ ' ' :: t) :=
          .single_space (w := [' ', c]) (by simp) (by simp [hc]; decide) front t
        rw [List.nil_append, Unicode.splitBlank, Text.piecesBy_cons hc]
        exact .head hstep (hrest front)
      · have hstep : Reblanked (front ++ ' ' :: w ++ c :: t) (front ++ ' ' :: w ++ ' ' :: t) :=
          .single_space (w := [c]) (by simp) (by simpa using hc) _ t
        have hsplit : Unicode.splitBlank (w ++ c :: t) = w :: Unicode.splitBlank t :=
          Text.piecesBy_append hw hne hc t
        rw [hsplit, List.flatMap_cons]
        simpa using ReflTransGen.head hstep (hrest _)
    · have hlonger : ∀ d ∈ w ++ [c], Unicode.isBlank d = false := by
        intro d hd
        rcases List.mem_append.1 hd with hd | hd
        · exact hw d hd
        · rw [List.mem_singleton.1 hd]
          simpa using hc
      simpa using ih hlonger front

theorem reblanked_intercalate (t : List Char) :
    ReflTransGen Reblanked t ([' '].intercalate (Unicode.splitBlank t)) := by
  have hlead : ∀ t, Reblanked (' ' :: t) t := fun t => .drop_space (u := []) (.inl rfl)
  have hwords : ReflTransGen Reblanked t ((Unicode.splitBlank t).flatMap (' ' :: ·)) :=
    (reblanked_words (w := []) (by simp) [] t).head (hlead t).symm
  cases hsplit : Unicode.splitBlank t with
  | nil => simpa [hsplit] using hwords
  | cons x back =>
    have hfirst : [' '].intercalate (x :: back) = x ++ back.flatMap (' ' :: ·) :=
      intercalate_append_cons [] x back
    rw [hfirst]
    refine ReflTransGen.tail ?_ (hlead _)
    simpa [hsplit] using hwords

/-! ## Blanks that are glued -/

/-- The text `front` stands before what follows `prev`, where blanks are put after a comma. -/
def Precedes (prev : Option Char) (front : List Char) : Prop :=
  prev.any gluesRight = true → ∃ u b, front = u ++ b ∧ (∀ c ∈ b, Unicode.isBlank c = true) ∧
    ∃ c ∈ u.getLast?, gluesRight c = true

namespace Precedes

variable {prev : Option Char} {front : List Char}

theorem concat (c : Char) (front : List Char) : Precedes (some c) (front ++ [c]) :=
  fun hc => ⟨front ++ [c], [], by simp, by simp, c, by simp, by simpa using hc⟩

theorem of_space (front : List Char) : Precedes (some ' ') front :=
  fun h => absurd h (by decide)

theorem of_comma (front : List Char) : Precedes (some ',') (front ++ [',', ' ']) :=
  fun _ => ⟨front ++ [','], [' '], by simp, isBlank_of_mem_space, ',', by simp, by decide⟩

/-- The blanks that gluing drops have no meaning. -/
theorem drop_space (h : Precedes prev front) {cs : List Char}
    (hglue : (prev.any gluesRight || cs.head?.any gluesLeft) = true) :
    Reblanked (front ++ ' ' :: cs) (front ++ cs) := by
  rcases Bool.or_eq_true_iff.1 hglue with hprev | hnext
  · obtain ⟨u, b, rfl, hb, c, hc, hright⟩ := h hprev
    have hmore : ∀ d ∈ b ++ [' '], Unicode.isBlank d = true := fun d hd =>
      (List.mem_append.1 hd).elim (hb d) (isBlank_of_mem_space d)
    have hidle : IsIdleGap u cs := .inr (.inr (.inl ⟨c, hc, gluesRight_iff.1 hright⟩))
    simpa using Reblanked.gap u cs hmore hb (.inr hidle)
  · obtain ⟨d, hd, hleft⟩ := (Option.any_eq_true _ _).1 hnext
    exact .drop_space (.inr (.inr (.inr ⟨d, hd, gluesLeft_iff.1 hleft⟩)))

end Precedes

/-- Gluing drops blanks without meaning and puts such a blank after each comma. -/
theorem reblanked_glue {prev : Option Char} {front : List Char} (h : Precedes prev front)
    (cs : List Char) : ReflTransGen Reblanked (front ++ cs) (front ++ glue prev cs) := by
  induction cs generalizing prev front with
  | nil => exact .refl
  | cons c cs ih =>
    rw [glue]
    by_cases hspace : c = ' '
    · rw [if_pos hspace, hspace]
      split
      · rename_i hglue
        exact (ih (.of_space front)).head (h.drop_space hglue)
      · simpa using ih (.concat ' ' front)
    by_cases hcomma : c = ','
    · rw [if_neg hspace, if_pos hcomma, hcomma]
      have hidle : IsIdleGap (front ++ [',']) cs := .inr (.inr (.inl ⟨',', by simp, by simp⟩))
      have hstep := (Reblanked.drop_space hidle).symm
      simpa using (ih (.of_comma front)).head (by simpa using hstep)
    · rw [if_neg hspace, if_neg hcomma]
      simpa using ih (.concat c front)

/-! ## Normal forms -/

theorem reblanked_normalizeType (t : List Char) : ReflTransGen Reblanked t (normalizeType t) := by
  have hstart : Precedes none [] := fun h => absurd h (by decide)
  exact (reblanked_intercalate t).trans (reblanked_glue hstart _)

theorem normalizeType_eq_of_reblanked {s t : List Char} (h : ReflTransGen Reblanked s t) :
    normalizeType s = normalizeType t := by
  induction h with
  | refl => rfl
  | tail _ hstep ih => exact ih.trans hstep.normalizeType_eq

/-- The normal form of a type is its own normal form, and two texts have the same normal form exactly
if one is got from the other by changes of blanks, each within a run of blanks or where blanks have no
meaning. -/
theorem normalizeType_canonical :
    (∀ t, normalizeType (normalizeType t) = normalizeType t) ∧
      ∀ s t, normalizeType s = normalizeType t ↔ ReflTransGen Reblanked s t := by
  refine ⟨fun t => (normalizeType_eq_of_reblanked (reblanked_normalizeType t)).symm, fun s t => ?_⟩
  refine ⟨fun h => ?_, normalizeType_eq_of_reblanked⟩
  have hback : ReflTransGen Reblanked (normalizeType t) t :=
    symm_of (ReflTransGen Reblanked) (reblanked_normalizeType t)
  exact (reblanked_normalizeType s).trans (h ▸ hback)

/-- Brackets lose the blanks beside them, and a comma at the end gets one. -/
example : normalizeType "\tMap < A ,List [ ] > ,".toList = "Map<A, List[]>, ".toList := by
  decide

end EntityForge.Java
