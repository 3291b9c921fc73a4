import Mathlib.Data.List.Basic

/-!
# Nested brackets

For some pairs of brackets, `nestStep` takes one character of a text with the closing brackets that
are due, innermost first, and `nest` a whole text. A text is nested if nothing is due after it
(`isNested`); other characters, and brackets of other pairs, are passed over. A text is enclosed if
moreover every separator in it stands within brackets (`enclose`, `isEnclosed`).

* `nestStep_eq_some`: what the three kinds of characters do to a text that stays nested.
* `nestStep_other`: a character that is no bracket leaves what is due.
-/

namespace EntityForge.Text

/-- Takes one character: an opening bracket makes its closing one due, and a closing bracket must be
the one that is due next. -/
def nestStep (pairs : List (Char × Char)) (due : List Char) (c : Char) : Option (List Char) :=
  match pairs.lookup c with
  | some close => some (close :: due)
  | none =>
    if pairs.any (·.2 == c) then
      match due with
      | [] => none
      | d :: due => if d = c then some due else none
    else some due

/-- The closing brackets that are due after a text, innermost first, if all of its own ones were due
where they stand. -/
def nest (pairs : List (Char × Char)) (due : List Char) (cs : List Char) : Option (List Char) :=
  cs.foldlM (nestStep pairs) due

/-- The brackets of the text are properly nested. -/
def isNested (pairs : List (Char × Char)) (cs : List Char) : Bool :=
  nest pairs [] cs == some []

variable {pairs : List (Char × Char)} {due due' : List Char} {c : Char}

theorem nest_cons (cs : List Char) :
    nest pairs due (c :: cs) = (nestStep pairs due c).bind fun due => nest pairs due cs :=
  List.foldlM_cons

theorem isNested_iff {cs : List Char} : isNested pairs cs = true ↔ nest pairs [] cs = some [] := by
  rw [isNested, beq_iff_eq]

theorem nestStep_other (h : pairs.lookup c = none) (hc : pairs.any (·.2 == c) = false) :
    nestStep pairs due c = some due := by
  simp [nestStep, h, hc]

/-- Text without brackets leaves what is due. -/
theorem nest_other {cs : List Char}
    (h : ∀ c ∈ cs, pairs.lookup c = none ∧ pairs.any (·.2 == c) = false) :
    nest pairs due cs = some due := by
  induction cs with
  | nil => rfl
  | cons c cs ih =>
    obtain ⟨hopen, hclose⟩ := h c (.head _)
    rw [nest_cons, nestStep_other hopen hclose]
    exact ih fun d hd => h d (.tail _ hd)

/-- A character that keeps a text nested opens a bracket, closes the one that is due next, or is no
bracket. -/
theorem nestStep_eq_some (h : nestStep pairs due c = some due') :
    (∃ close, pairs.lookup c = some close ∧ due' = close :: due) ∨
      (pairs.lookup c = none ∧ pairs.any (·.2 == c) = true ∧ due = c :: due') ∨
        (pairs.lookup c = none ∧ pairs.any (·.2 == c) = false ∧ due' = due) := by
  unfold nestStep at h
  split at h
  · rename_i close hopen
    exact .inl ⟨close, hopen, (Option.some.inj h).symm⟩
  · rename_i hopen
    split at h
    · rename_i hclose
      split at h
      · cases h
      · split at h
        · rename_i d due hd
          subst hd
          exact .inr (.inl ⟨hopen, hclose, by rw [Option.some.inj h]⟩)
        · cases h
    · rename_i hother
      exact .inr (.inr ⟨hopen, eq_false_of_ne_true hother, (Option.some.inj h).symm⟩)

/-! ## Separators within brackets -/

/-- Takes one character of a text that has no separator outside brackets. -/
def encloseStep (pairs : List (Char × Char)) (sep : Char) (due : List Char) (c : Char) :
    Option (List Char) :=
  if due = [] ∧ c = sep then none else nestStep pairs due c

/-- The closing brackets that are due after a text, if its brackets nest and no separator stands
outside them. -/
def enclose (pairs : List (Char × Char)) (sep : Char) (due : List Char) (cs : List Char) :
    Option (List Char) :=
  cs.foldlM (encloseStep pairs sep) due

/-- The brackets of the text are properly nested, and every separator in it is within some. -/
def isEnclosed (pairs : List (Char × Char)) (sep : Char) (cs : List Char) : Bool :=
  enclose pairs sep [] cs == some []

variable {sep : Char}

theorem enclose_cons (cs : List Char) : enclose pairs sep due (c :: cs) =
    (encloseStep pairs sep due c).bind fun due => enclose pairs sep due cs :=
  List.foldlM_cons

theorem enclose_append (cs ds : List Char) : enclose pairs sep due (cs ++ ds) =
    (enclose pairs sep due cs).bind fun due => enclose pairs sep due ds :=
  List.foldlM_append

theorem isEnclosed_iff {cs : List Char} :
    isEnclosed pairs sep cs = true ↔ enclose pairs sep [] cs = some [] := by
  rw [isEnclosed, beq_iff_eq]

theorem encloseStep_eq_some (h : encloseStep pairs sep due c = some due') :
    ¬(due = [] ∧ c = sep) ∧ nestStep pairs due c = some due' := by
  rw [encloseStep] at h
  split at h
  · cases h
  · exact ⟨‹_›, h⟩

/-- Text without brackets and separators leaves what is due. -/
theorem enclose_other {cs : List Char} (h : ∀ c ∈ cs, pairs.lookup c = none ∧
    pairs.any (·.2 == c) = false ∧ c ≠ sep) : enclose pairs sep due cs = some due := by
  induction cs with
  | nil => rfl
  | cons c cs ih =>
    obtain ⟨hopen, hclose, hsep⟩ := h c (.head _)
    rw [enclose_cons, encloseStep, if_neg fun hc => hsep hc.2, nestStep_other hopen hclose]
    exact ih fun d hd => h d (.tail _ hd)

end EntityForge.Text
