import EntityForge.Text.Split
import Mathlib.Data.List.Basic
import Mathlib.Data.List.TakeWhile

/-!
# Spans and pieces

A span of characters ends where one stands that is not of its kind (`takeWhile_append_stop`,
`dropWhile_append_stop`), and a text of such spans has them as its pieces (`piecesBy_append`). The
pieces on the two sides of a separator do not touch (`piecesBy_append_cons`).
-/

namespace EntityForge.Text

variable {p : Char → Bool}

/-! ## Spans -/

theorem takeWhile_append_stop {cs rest : List Char} (hcs : cs.all p = true)
    (hrest : ∀ c ∈ rest.head?, p c = false) : (cs ++ rest).takeWhile p = cs := by
  rw [List.takeWhile_append_of_pos (by simpa using hcs)]
  cases rest with
  | nil => simp
  | cons c rest => simp [hrest c rfl]

theorem dropWhile_append_stop {cs rest : List Char} (hcs : cs.all p = true)
    (hrest : ∀ c ∈ rest.head?, p c = false) : (cs ++ rest).dropWhile p = rest := by
  rw [List.dropWhile_append_of_pos (by simpa using hcs)]
  cases rest with
  | nil => simp
  | cons c rest => simp [hrest c rfl]

/-! ## Pieces -/

theorem splitBy_self {w : List Char} (hw : ∀ c ∈ w, p c = false) : splitBy p w = [w] := by
  induction w with
  | nil => rfl
  | cons d w ih =>
    have hd := hw d (.head _)
    simp [splitBy, hd, ih fun e he => hw e (.tail _ he)]

/-- No separator is inside a piece. -/
theorem eq_false_of_mem_splitBy {cs w : List Char} (hw : w ∈ splitBy p cs) :
    ∀ c ∈ w, p c = false := by
  induction cs generalizing w with
  | nil =>
    obtain rfl := List.mem_singleton.1 hw
    exact fun c hc => absurd hc List.not_mem_nil
  | cons d cs ih =>
    by_cases hd : p d = true
    · simp only [splitBy, hd, if_true, List.mem_cons] at hw
      rcases hw with rfl | hw
      · exact fun c hc => absurd hc List.not_mem_nil
      · exact ih hw
    · cases hsplit : splitBy p cs with
      | nil => exact absurd hsplit (splitBy_ne_nil p cs)
      | cons piece pieces =>
        simp only [splitBy, hd, hsplit, Bool.false_eq_true, if_false, List.mem_cons] at hw
        rcases hw with rfl | hw
        · intro c hc
          rcases List.mem_cons.1 hc with rfl | hc
          · exact eq_false_of_ne_true hd
          · exact ih (hsplit ▸ .head _) c hc
        · exact ih (hsplit ▸ .tail _ hw)

/-- A separator parts the pieces before it from those after it. -/
theorem splitBy_append_cons {c : Char} (hc : p c = true) (w cs : List Char) :
    splitBy p (w ++ c :: cs) = splitBy p w ++ splitBy p cs := by
  induction w with
  | nil => simp [splitBy, hc]
  | cons d w ih =>
    rw [List.cons_append]
    by_cases hd : p d = true
    · simp [splitBy, hd, ih]
    · cases hsplit : splitBy p w with
      | nil => exact absurd hsplit (splitBy_ne_nil p w)
      | cons piece pieces => simp [splitBy, hd, ih, hsplit]

theorem splitBy_append {w : List Char} (hw : ∀ c ∈ w, p c = false) {c : Char} (hc : p c = true)
    (cs : List Char) : splitBy p (w ++ c :: cs) = w :: splitBy p cs := by
  rw [splitBy_append_cons hc, splitBy_self hw]
  rfl

/-- A span at the end of a text makes its last piece longer. -/
theorem exists_splitBy_append (cs : List Char) : ∃ pieces last, ∀ w, (∀ c ∈ w, p c = false) →
    splitBy p (cs ++ w) = pieces ++ [last ++ w] := by
  induction cs with
  | nil => exact ⟨[], [], fun w hw => splitBy_self hw⟩
  | cons d cs ih =>
    obtain ⟨pieces, last, h⟩ := ih
    by_cases hd : p d = true
    · exact ⟨[] :: pieces, last, fun w hw => by simp [splitBy, hd, h w hw]⟩
    · cases pieces with
      | nil => exact ⟨[], d :: last, fun w hw => by simp [splitBy, hd, h w hw]⟩
      | cons piece pieces =>
        exact ⟨(d :: piece) :: pieces, last, fun w hw => by simp [splitBy, hd, h w hw]⟩

theorem piecesBy_cons {c : Char} (hc : p c = true) (cs : List Char) :
    piecesBy p (c :: cs) = piecesBy p cs := by
  simp [piecesBy, splitBy, hc]

theorem piecesBy_append_cons {c : Char} (hc : p c = true) (w cs : List Char) :
    piecesBy p (w ++ c :: cs) = piecesBy p w ++ piecesBy p cs := by
  simp only [piecesBy, splitBy_append_cons hc, List.filter_append]

/-- A span before a separator is a piece. -/
theorem piecesBy_append {w : List Char} (hw : ∀ c ∈ w, p c = false) (hne : w ≠ []) {c : Char}
    (hc : p c = true) (cs : List Char) : piecesBy p (w ++ c :: cs) = w :: piecesBy p cs := by
  rw [piecesBy, splitBy_append hw hc, List.filter_cons_of_pos (by simpa using hne), piecesBy]

theorem piecesBy_seps {w : List Char} (hw : ∀ c ∈ w, p c = true) (cs : List Char) :
    piecesBy p (w ++ cs) = piecesBy p cs := by
  induction w with
  | nil => rfl
  | cons c w ih =>
    rw [List.cons_append, piecesBy_cons (hw c (.head _)), ih fun d hd => hw d (.tail _ hd)]

/-- The pieces are the text without separators. -/
theorem flatten_piecesBy (cs : List Char) : (piecesBy p cs).flatten = cs.filter fun c => !p c := by
  rw [piecesBy, List.flatten_filter_not_isEmpty]
  induction cs with
  | nil => rfl
  | cons c cs ih =>
    by_cases hc : p c = true
    · simpa [splitBy, hc] using ih
    · cases hsplit : splitBy p cs with
      | nil => exact absurd hsplit (splitBy_ne_nil p cs)
      | cons piece pieces =>
        rw [hsplit] at ih
        simpa [splitBy, hc, hsplit] using ih

theorem piecesBy_eq_nil_iff {cs : List Char} : piecesBy p cs = [] ↔ ∀ c ∈ cs, p c = true := by
  refine ⟨fun h => ?_, fun h => ?_⟩
  · simpa [h] using flatten_piecesBy (p := p) cs
  · simpa [piecesBy, splitBy] using piecesBy_seps h []

theorem piecesBy_self {w : List Char} (hw : ∀ c ∈ w, p c = false) (hne : w ≠ []) :
    piecesBy p w = [w] := by
  rw [piecesBy, splitBy_self hw]
  simpa using hne

/-- Two texts keep their pieces if no piece runs across. -/
theorem piecesBy_append_apart {y t : List Char}
    (h : ∀ c ∈ y.getLast?, ∀ d ∈ t.head?, p c = true ∨ p d = true) :
    piecesBy p (y ++ t) = piecesBy p y ++ piecesBy p t := by
  cases t with
  | nil => simp [piecesBy, splitBy]
  | cons d t =>
    rcases List.eq_nil_or_concat y with rfl | ⟨y, c, rfl⟩
    · rfl
    · rw [List.concat_eq_append] at h ⊢
      rcases h c (by simp) d rfl with hc | hd
      · rw [List.append_assoc, List.singleton_append, piecesBy_append_cons hc,
          piecesBy_append_cons hc y [], List.append_assoc]
        rfl
      · rw [piecesBy_append_cons hd, piecesBy_cons hd]

/-- Separators between two texts part their pieces, if there is one or no piece runs across. -/
theorem piecesBy_append_gap {y t w : List Char} (hw : ∀ c ∈ w, p c = true)
    (h : w ≠ [] ∨ ∀ c ∈ y.getLast?, ∀ d ∈ t.head?, p c = true ∨ p d = true) :
    piecesBy p (y ++ (w ++ t)) = piecesBy p y ++ piecesBy p t := by
  cases w with
  | nil => exact piecesBy_append_apart (h.resolve_left fun hne => hne rfl)
  | cons c w =>
    rw [List.cons_append, piecesBy_append_cons (hw c (.head _)),
      piecesBy_seps fun d hd => hw d (.tail _ hd)]

theorem head?_dropWhile {cs : List Char} : ∀ c ∈ (cs.dropWhile p).head?, p c = false := by
  intro c hc
  have hnot := List.head?_dropWhile_not p cs
  rw [hc] at hnot
  exact hnot

/-- A text ends in a span that starts after a separator or with the text. -/
theorem exists_lastSpan (p : Char → Bool) (y : List Char) : ∃ front span, y = front ++ span ∧
    (∀ c ∈ span, p c = false) ∧ ∀ c ∈ front.getLast?, p c = true := by
  refine ⟨(y.reverse.dropWhile fun c => !p c).reverse, (y.reverse.takeWhile fun c => !p c).reverse,
    ?_, fun c hc => ?_, fun c hc => ?_⟩
  · rw [← List.reverse_append, List.takeWhile_append_dropWhile, List.reverse_reverse]
  · simpa using List.mem_takeWhile_imp (List.mem_reverse.1 hc)
  · rw [List.getLast?_reverse] at hc
    simpa using head?_dropWhile c hc

/-- A text starts with a span that ends before a separator or with the text. -/
theorem exists_firstSpan (p : Char → Bool) (t : List Char) : ∃ span back, t = span ++ back ∧
    (∀ c ∈ span, p c = false) ∧ ∀ c ∈ back.head?, p c = true := by
  refine ⟨t.takeWhile fun c => !p c, t.dropWhile fun c => !p c,
    List.takeWhile_append_dropWhile.symm, fun c hc => ?_, fun c hc => ?_⟩
  · simpa using List.mem_takeWhile_imp hc
  · simpa using head?_dropWhile c hc

/-- Where a piece runs across, it is the last one of the first text and the first one of the
second. -/
theorem piecesBy_append_across {y t : List Char} {c d : Char} (hc : c ∈ y.getLast?)
    (hd : d ∈ t.head?) (hpc : p c = false) (hpd : p d = false) : ∃ front a b back,
      c ∈ a.getLast? ∧ d ∈ b.head? ∧ piecesBy p y = front ++ [a] ∧ piecesBy p t = b :: back ∧
        piecesBy p (y ++ t) = front ++ (a ++ b) :: back := by
  obtain ⟨y, a, rfl, ha, hy⟩ := exists_lastSpan p y
  obtain ⟨b, t, rfl, hb, ht⟩ := exists_firstSpan p t
  have hane : a ≠ [] := by
    rintro rfl
    rw [hy c (by simpa using hc)] at hpc
    cases hpc
  have hbne : b ≠ [] := by
    rintro rfl
    rw [ht d (by simpa using hd)] at hpd
    cases hpd
  have hca : c ∈ a.getLast? := by rwa [List.getLast?_append_of_ne_nil _ hane] at hc
  have hdb : d ∈ b.head? := by rwa [List.head?_append_of_ne_nil _ hbne] at hd
  have hleft : ∀ s, piecesBy p (y ++ s) = piecesBy p y ++ piecesBy p s :=
    fun s => piecesBy_append_apart fun e he f hf => .inl (hy e he)
  have hright : ∀ s, piecesBy p (s ++ t) = piecesBy p s ++ piecesBy p t :=
    fun s => piecesBy_append_apart fun e he f hf => .inr (ht f hf)
  have hab : piecesBy p (a ++ b) = [a ++ b] :=
    piecesBy_self (fun e he => (List.mem_append.1 he).elim (ha e) (hb e)) (by simp [hane])
  refine ⟨piecesBy p y, a, b, piecesBy p t, hca, hdb, ?_, ?_, ?_⟩
  · rw [hleft, piecesBy_self ha hane]
  · rw [hright, piecesBy_self hb hbne, List.singleton_append]
  · rw [List.append_assoc, hleft, ← List.append_assoc a, hright, hab, List.singleton_append]

/-- Texts have the same pieces with one span at their ends if they do with another. -/
theorem piecesBy_append_right_iff {cs ds v w : List Char} (hv : ∀ c ∈ v, p c = false)
    (hw : ∀ c ∈ w, p c = false) (hvne : v ≠ []) (hwne : w ≠ []) :
    piecesBy p (cs ++ v) = piecesBy p (ds ++ v) ↔ piecesBy p (cs ++ w) = piecesBy p (ds ++ w) := by
  obtain ⟨pcs, lcs, hcs⟩ := exists_splitBy_append (p := p) cs
  obtain ⟨pds, lds, hds⟩ := exists_splitBy_append (p := p) ds
  have key : ∀ u, (∀ c ∈ u, p c = false) → u ≠ [] →
      (piecesBy p (cs ++ u) = piecesBy p (ds ++ u) ↔
        pcs.filter (!·.isEmpty) = pds.filter (!·.isEmpty) ∧ lcs = lds) := by
    intro u hu hne
    simp only [piecesBy, hcs u hu, hds u hu, List.filter_append]
    simp [hne]
  rw [key v hv hvne, key w hw hwne]

/-! ## Last pieces -/

theorem getLastD_splitBy {front span : List Char} (hspan : ∀ c ∈ span, p c = false)
    (hfront : ∀ c ∈ front.getLast?, p c = true) :
    (splitBy p (front ++ span)).getLastD [] = span := by
  rcases List.eq_nil_or_concat front with rfl | ⟨front, c, rfl⟩
  · rw [List.nil_append, splitBy_self hspan]
    rfl
  · have hc : p c = true := hfront c (by simp)
    rw [List.concat_eq_append, List.append_assoc, List.singleton_append, splitBy_append_cons hc,
      splitBy_self hspan, List.getLastD_concat]

/-- The last piece of a text is empty exactly if no span ends the text. -/
theorem getLastD_splitBy_eq_nil_iff {cs : List Char} :
    (splitBy p cs).getLastD [] = [] ↔ ∀ c ∈ cs.getLast?, p c = true := by
  obtain ⟨front, span, rfl, hspan, hfront⟩ := exists_lastSpan p cs
  rw [getLastD_splitBy hspan hfront]
  rcases List.eq_nil_or_concat span with rfl | ⟨span, c, rfl⟩
  · rw [List.append_nil]
    exact iff_of_true rfl hfront
  · have hc : p c = false := hspan c (by simp)
    simp [hc]

/-- The last piece of a text, if it is not empty, stays the last one without the empty ones. -/
theorem getLast?_piecesBy {cs : List Char} (h : (splitBy p cs).getLastD [] ≠ []) :
    (piecesBy p cs).getLast? = some ((splitBy p cs).getLastD []) := by
  rcases List.eq_nil_or_concat (splitBy p cs) with hnil | ⟨pieces, last, hsplit⟩
  · exact absurd hnil (splitBy_ne_nil p cs)
  · rw [List.concat_eq_append] at hsplit
    rw [hsplit, List.getLastD_concat] at h ⊢
    rw [piecesBy, hsplit, List.filter_append, List.filter_cons_of_pos (by simpa using h)]
    exact List.getLast?_concat

end EntityForge.Text
