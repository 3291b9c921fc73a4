import EntityForge.Java.Statement
import EntityForge.Proofs.Text.Brackets
import EntityForge.Proofs.Text.Pieces
import EntityForge.Proofs.Unicode.Classes
import Mathlib.Data.List.DropRight
import Mathlib.Data.List.Forall2

/-!
# Lists of declarators

`Declarator.Writes d cs`: the text is the declarator `d`, maybe with an initial value. A declarator
is cut as it is written (`Declarator.Writes.ofChars?`), whatever its initial value, and a list of
declarators is split at the commas that were put between them (`splitDeclarators_intercalate`): as
long as brackets nest, the counters of `Nesting` are those of the closing brackets that are due
(`Nesting.ofDue`). `fieldsOfDeclarators_writes` gives the fields of the list.
-/

namespace EntityForge.Java

open Text (nestStep encloseStep enclose isEnclosed)

/-! ## Identifiers -/

/-- The text is an identifier. -/
def isIdentifier : List Char → Bool
  | [] => false
  | c :: rest => (c :: rest).all isIdentChar && !c.isDigit

theorem ne_nil_of_isIdentifier {cs : List Char} (h : isIdentifier cs = true) : cs ≠ [] := by
  rintro rfl
  cases h

theorem isIdentChar_of_isIdentifier {cs : List Char} (h : isIdentifier cs = true) :
    ∀ c ∈ cs, isIdentChar c = true := by
  cases cs with
  | nil => simp
  | cons c rest =>
    simp only [isIdentifier, Bool.and_eq_true] at h
    exact List.all_eq_true.1 h.1

theorem isBlank_of_mem_space : ∀ c ∈ [' '], Unicode.isBlank c = true :=
  List.forall_mem_singleton.2 (by decide)

theorem isBlank_of_isIdentChar {c : Char} (h : isIdentChar c = true) :
    Unicode.isBlank c = false := by
  simp only [isIdentChar, Bool.or_eq_true, beq_iff_eq] at h
  rcases h with (h | rfl) | rfl
  · exact Unicode.isBlank_of_isAlphanumeric h
  · decide
  · decide

theorem isIdentChar_of_isBlank {c : Char} (h : Unicode.isBlank c = true) :
    isIdentChar c = false := by
  rw [Bool.eq_false_iff]
  intro hi
  rw [isBlank_of_isIdentChar hi] at h
  cases h

/-! ## Blanks and stops -/

theorem trimStart_append {w : List Char} (hw : ∀ c ∈ w, Unicode.isBlank c = true) {cs : List Char}
    (hcs : ∀ c ∈ cs.head?, Unicode.isBlank c = false) : Unicode.trimStart (w ++ cs) = cs :=
  Text.dropWhile_append_stop (List.all_eq_true.2 hw) hcs

theorem trimStart_self {cs : List Char} (h : ∀ c ∈ cs.head?, Unicode.isBlank c = false) :
    Unicode.trimStart cs = cs :=
  trimStart_append (w := []) (by simp) h

theorem trimEnd_append {cs w : List Char} (hw : ∀ c ∈ w, Unicode.isBlank c = true)
    (hcs : ∀ c ∈ cs.getLast?, Unicode.isBlank c = false) : Unicode.trimEnd (cs ++ w) = cs := by
  have hrev : Unicode.trimStart (w.reverse ++ cs.reverse) = cs.reverse :=
    trimStart_append (by simpa using hw) (by simpa using hcs)
  rw [Unicode.trimStart] at hrev
  rw [Unicode.trimEnd, List.reverse_append, hrev, List.reverse_reverse]

theorem trimStart_append_left (cs : List Char) {ds : List Char}
    (hds : ∀ c ∈ ds.head?, Unicode.isBlank c = false) :
    Unicode.trimStart (cs ++ ds) = Unicode.trimStart cs ++ ds := by
  have hself : ds.dropWhile Unicode.isBlank = ds := trimStart_self hds
  unfold Unicode.trimStart
  rw [List.dropWhile_append, hself]
  split
  · rename_i h
    rw [List.isEmpty_iff.1 h, List.nil_append]
  · rfl

theorem mem_getLast?_of_trimStart {cs : List Char} {c : Char}
    (h : c ∈ (Unicode.trimStart cs).getLast?) : c ∈ cs.getLast? := by
  obtain ⟨w, hw⟩ := List.dropWhile_suffix (l := cs) Unicode.isBlank
  have hcs : w ++ Unicode.trimStart cs = cs := hw
  rw [← hcs, List.getLast?_append, h]
  rfl

theorem before_append_of_not_mem {c : Char} {cs : List Char} (h : c ∉ cs) (rest : List Char) :
    before c (cs ++ rest) = cs ++ before c rest := by
  refine List.takeWhile_append_of_pos fun d hd => ?_
  rw [bne_iff_ne]
  rintro rfl
  exact h hd

theorem before_append {c : Char} {cs : List Char} (h : c ∉ cs) (rest : List Char) :
    before c (cs ++ c :: rest) = cs := by
  rw [before_append_of_not_mem h, before, List.takeWhile_cons_of_neg (by simp), List.append_nil]

theorem before_of_not_mem {c : Char} {cs : List Char} (h : c ∉ cs) : before c cs = cs := by
  simpa [before] using before_append_of_not_mem h []

/-! ## Array brackets -/

/-- The text is that many pairs of array brackets, with blanks before, within and after them. -/
inductive IsDims : Nat → List Char → Prop
  | blanks {w : List Char} (hw : ∀ c ∈ w, Unicode.isBlank c = true) : IsDims 0 w
  | pair {k : Nat} {cs w v : List Char} (h : IsDims k cs) (hw : ∀ c ∈ w, Unicode.isBlank c = true)
      (hv : ∀ c ∈ v, Unicode.isBlank c = true) : IsDims (k + 1) (cs ++ '[' :: (w ++ ']' :: v))

/-- The equation of `takeDims` without the proofs that it ends. -/
theorem takeDims_eq (n : Nat) (xs : List Char) :
    takeDims n xs =
      match xs.dropWhile Unicode.isBlank with
      | ']' :: inner =>
        match inner.dropWhile Unicode.isBlank with
        | '[' :: rest => takeDims (n + 1) rest
        | _ => none
      | rest => some (n, rest) := by
  rw [takeDims.eq_def]
  split
  · rename_i inner h
    split
    · rename_i rest h'
      simp only [h, h']
    · simp only [h]
  · rename_i h
    split
    · rename_i heq
      exact absurd heq (h _)
    · rfl

theorem takeDims_dropWhile (n : Nat) (xs : List Char) :
    takeDims n (xs.dropWhile Unicode.isBlank) = takeDims n xs := by
  rw [takeDims_eq, List.dropWhile_idempotent, ← takeDims_eq]

theorem takeDims_blanks {w : List Char} (hw : ∀ c ∈ w, Unicode.isBlank c = true) (n : Nat)
    (xs : List Char) : takeDims n (w ++ xs) = takeDims n xs := by
  rw [takeDims_eq, takeDims_eq n xs, List.dropWhile_append_of_pos hw]

theorem takeDims_pair {w : List Char} (hw : ∀ c ∈ w, Unicode.isBlank c = true) (n : Nat)
    (xs : List Char) : takeDims n (']' :: (w ++ '[' :: xs)) = takeDims (n + 1) xs := by
  have hclose : (']' :: (w ++ '[' :: xs)).dropWhile Unicode.isBlank = ']' :: (w ++ '[' :: xs) :=
    List.dropWhile_cons_of_neg (by decide)
  have hopen : (w ++ '[' :: xs).dropWhile Unicode.isBlank = '[' :: xs := by
    rw [List.dropWhile_append_of_pos hw, List.dropWhile_cons_of_neg (by decide)]
  rw [takeDims_eq, hclose]
  simp only [hopen]

theorem takeDims_stop {xs : List Char}
    (hxs : ∀ c ∈ xs.head?, Unicode.isBlank c = false ∧ c ≠ ']') (n : Nat) :
    takeDims n xs = some (n, xs) := by
  have hself : xs.dropWhile Unicode.isBlank = xs := trimStart_self fun c hc => (hxs c hc).1
  rw [takeDims_eq, hself]
  split
  · exact absurd rfl (hxs ']' rfl).2
  · rfl

theorem IsDims.mem {k : Nat} {cs : List Char} (h : IsDims k cs) {c : Char} (hc : c ∈ cs) :
    Unicode.isBlank c = true ∨ c = '[' ∨ c = ']' := by
  induction h with
  | blanks hw => exact .inl (hw c hc)
  | pair h hw hv ih =>
    simp only [List.mem_append, List.mem_cons] at hc
    rcases hc with hc | hc | hc | hc | hc
    · exact ih hc
    · exact .inr (.inl hc)
    · exact .inl (hw c hc)
    · exact .inr (.inr hc)
    · exact .inl (hv c hc)

/-- That many pairs of array brackets without blanks. -/
def bracketPairs (k : Nat) : List Char :=
  (List.replicate k ['[', ']']).flatten

theorem mem_bracketPairs {k : Nat} {c : Char} (h : c ∈ bracketPairs k) : c = '[' ∨ c = ']' := by
  obtain ⟨pair, hpair, hc⟩ := List.mem_flatten.1 h
  obtain rfl := List.eq_of_mem_replicate hpair
  simpa using hc

theorem isDims_bracketPairs (k : Nat) : IsDims k (bracketPairs k) := by
  induction k with
  | zero => exact .blanks (by simp [bracketPairs])
  | succ k ih =>
    have hshape : bracketPairs (k + 1) = bracketPairs k ++ '[' :: ([] ++ ']' :: []) := by
      simp [bracketPairs, List.replicate_succ']
    rw [hshape]
    exact .pair ih (by simp) (by simp)

theorem not_mem_name_dims {name dims : List Char} {k : Nat} (hname : isIdentifier name = true)
    (hdims : IsDims k dims) {c : Char} (hi : isIdentChar c = false)
    (hb : Unicode.isBlank c = false) (hc : c ≠ '[' ∧ c ≠ ']') : c ∉ name ++ dims := by
  rw [List.mem_append, not_or]
  refine ⟨fun hmem => ?_, fun hmem => ?_⟩
  · rw [isIdentChar_of_isIdentifier hname c hmem] at hi
    cases hi
  · rcases hdims.mem hmem with h | h | h
    · rw [h] at hb
      cases hb
    · exact hc.1 h
    · exact hc.2 h

theorem IsDims.takeDims {k : Nat} {cs : List Char} (h : IsDims k cs) (n : Nat) (xs : List Char) :
    takeDims n (cs.reverse ++ xs) = takeDims (n + k) xs := by
  induction h generalizing n xs with
  | blanks hw => exact takeDims_blanks (by simpa using hw) n xs
  | @pair k cs w v h hw hv ih =>
    have hshape : (cs ++ '[' :: (w ++ ']' :: v)).reverse ++ xs =
        v.reverse ++ ']' :: (w.reverse ++ '[' :: (cs.reverse ++ xs)) := by simp
    rw [hshape, takeDims_blanks (by simpa using hv), takeDims_pair (by simpa using hw), ih,
      Nat.add_right_comm, Nat.add_assoc]

/-! ## Cutting a declarator -/

/-- The array brackets of a trimmed declarator stand after its name. -/
theorem takeDims_trim {head name dims : List Char} {k : Nat}
    (hname : isIdentifier name = true) (hdims : IsDims k dims) :
    takeDims 0 (Unicode.trim (head ++ (name ++ dims))).reverse =
      some (k, name.reverse ++ (Unicode.trimStart head).reverse) := by
  have hchars := isIdentChar_of_isIdentifier hname
  have hne := ne_nil_of_isIdentifier hname
  have hfirst : ∀ c ∈ (name ++ dims).head?, Unicode.isBlank c = false := by
    intro c hc
    rw [List.head?_append_of_ne_nil _ hne] at hc
    exact isBlank_of_isIdentChar (hchars c (List.mem_of_mem_head? hc))
  have hlast : ∀ c ∈ (name.reverse ++ (Unicode.trimStart head).reverse).head?,
      Unicode.isBlank c = false ∧ c ≠ ']' := by
    intro c hc
    rw [List.head?_append_of_ne_nil _ (List.reverse_ne_nil_iff.2 hne)] at hc
    have hident := hchars c (List.mem_reverse.1 (List.mem_of_mem_head? hc))
    exact ⟨isBlank_of_isIdentChar hident, Unicode.ne_of_class hident (by decide +kernel)⟩
  have hshape : (Unicode.trimStart head ++ (name ++ dims)).reverse =
      dims.reverse ++ (name.reverse ++ (Unicode.trimStart head).reverse) := by simp
  rw [Unicode.trim, trimStart_append_left head hfirst, Unicode.trimEnd, List.reverse_reverse,
    takeDims_dropWhile, hshape, hdims.takeDims, takeDims_stop hlast, Nat.zero_add]

/-- A name with array brackets is cut from what stands before it. -/
theorem Declarator.ofChars?_dims {head name dims : List Char} {k : Nat}
    (hname : isIdentifier name = true) (hdims : IsDims k dims)
    (hhead : ∀ c ∈ head.getLast?, isIdentChar c = false) :
    Declarator.ofChars? (head ++ (name ++ dims)) = some ⟨Unicode.trimStart head, name, k⟩ := by
  have hall : name.reverse.all isIdentChar = true := by
    simpa using isIdentChar_of_isIdentifier hname
  have hstop : ∀ c ∈ (Unicode.trimStart head).reverse.head?, isIdentChar c = false := by
    intro c hc
    rw [List.head?_reverse] at hc
    exact hhead c (mem_getLast?_of_trimStart hc)
  rw [Declarator.ofChars?, takeDims_trim hname hdims]
  simp only [Text.takeWhile_append_stop hall hstop, Text.dropWhile_append_stop hall hstop,
    List.reverse_reverse]
  cases name with
  | nil => cases hname
  | cons d name =>
    simp only [isIdentifier, Bool.and_eq_true, Bool.not_eq_true'] at hname
    simp [hname.2]

/-! ## Brackets around commas -/

/-- The brackets within which a comma belongs to an initial value. -/
def valueBrackets : List (Char × Char) :=
  [('(', ')'), ('[', ']'), ('\x7b', '\x7d')]

/-- The brackets within which a comma separates no declarators; before an initial value angle
brackets are among them. -/
def declaratorBrackets (inInit : Bool) : List (Char × Char) :=
  if inInit then valueBrackets else ('<', '>') :: valueBrackets

/-- The character is one of the brackets, or a comma. -/
def isDeclaratorMark (c : Char) : Bool :=
  "()[]\x7b\x7d<>,".toList.contains c

theorem isDeclaratorMark_of_isIdentChar {c : Char} (h : isIdentChar c = true) :
    isDeclaratorMark c = false := by
  rw [isDeclaratorMark, List.contains_eq_mem, decide_eq_false_iff_not]
  exact Unicode.not_mem_of_class h (by decide +kernel)

theorem isDeclaratorMark_of_isBlank {c : Char} (h : Unicode.isBlank c = true) :
    isDeclaratorMark c = false := by
  rw [isDeclaratorMark, List.contains_eq_mem, decide_eq_false_iff_not]
  exact Unicode.not_mem_of_class h (by decide)

/-- Text without marks leaves the brackets that are due. -/
theorem enclose_unmarked {cs : List Char} (h : ∀ c ∈ cs, isDeclaratorMark c = false) (i : Bool)
    (due : List Char) : enclose (declaratorBrackets i) ',' due cs = some due := by
  refine Text.enclose_other fun c hc => ?_
  have hmark := h c hc
  simp only [isDeclaratorMark, List.contains_eq_mem, decide_eq_false_iff_not] at hmark
  have hne : ∀ d ∈ "()[]\x7b\x7d<>,".toList, c ≠ d := by
    rintro d hd rfl
    exact hmark hd
  simp at hne
  obtain ⟨h1, h2, h3, h4, h5, h6, h7, h8, h9⟩ := hne
  cases i <;>
    simp [declaratorBrackets, valueBrackets, List.lookup_cons, beq_false_of_ne h1, beq_false_of_ne h3,
      beq_false_of_ne h5, beq_false_of_ne h7, Ne.symm h2, Ne.symm h4, Ne.symm h6, Ne.symm h8, h9]

/-- What a character does to the closing brackets that are due. -/
theorem nestStep_declaratorBrackets {i : Bool} {due due' : List Char} {c : Char}
    (h : nestStep (declaratorBrackets i) due c = some due') :
    ((c = '(' ∨ c = '[' ∨ c = '\x7b') ∧ ∃ d, d ≠ '>' ∧ due' = d :: due) ∨
      ((c = ')' ∨ c = ']' ∨ c = '\x7d') ∧ due = c :: due') ∨
        (c = '<' ∧ i = false ∧ due' = '>' :: due) ∨ (c = '>' ∧ i = false ∧ due = '>' :: due') ∨
          (¬(c = '(' ∨ c = '[' ∨ c = '\x7b') ∧ ¬(c = ')' ∨ c = ']' ∨ c = '\x7d') ∧
            ¬(c = '<' ∧ i = false) ∧ ¬(c = '>' ∧ i = false) ∧ due' = due) := by
  rcases Text.nestStep_eq_some h with ⟨d, hopen, rfl⟩ | ⟨-, hclose, rfl⟩ | ⟨hopen, hclose, rfl⟩
  · obtain ⟨l, r, hmem, -⟩ := List.lookup_eq_some_iff.1 hopen
    have hpair : (c = '<' ∧ d = '>' ∧ i = false) ∨ (c, d) ∈ valueBrackets := by
      have hpair : (c, d) ∈ declaratorBrackets i := hmem ▸ by simp
      cases i <;> simpa [declaratorBrackets] using hpair
    rcases hpair with ⟨rfl, rfl, rfl⟩ | hpair
    · exact .inr (.inr (.inl ⟨rfl, rfl, rfl⟩))
    · refine .inl ?_
      simp only [valueBrackets, List.mem_cons, List.not_mem_nil, Prod.mk.injEq, or_false] at hpair
      rcases hpair with ⟨rfl, rfl⟩ | ⟨rfl, rfl⟩ | ⟨rfl, rfl⟩ <;> simp
  · have hpair : (c = '>' ∧ i = false) ∨ valueBrackets.any (·.2 == c) = true := by
      cases i with
      | false => simpa [declaratorBrackets, @eq_comm _ _ c] using hclose
      | true => exact .inr hclose
    rcases hpair with ⟨rfl, rfl⟩ | hpair
    · exact .inr (.inr (.inr (.inl ⟨rfl, rfl, rfl⟩)))
    · refine .inr (.inl ⟨?_, rfl⟩)
      simpa [valueBrackets, @eq_comm _ _ c] using hpair
  · refine .inr (.inr (.inr (.inr ?_)))
    rw [List.lookup_eq_none_iff] at hopen
    cases i <;> simp_all [declaratorBrackets, valueBrackets, @eq_comm _ _ c]

/-- The nesting within the closing brackets that are due. -/
def Nesting.ofDue (inInit : Bool) (due : List Char) : Nesting :=
  ⟨due.countP (· != '>'), due.count '>', inInit⟩

theorem Nesting.isTop_ofDue {i : Bool} {due : List Char} :
    (Nesting.ofDue i due).isTop = true ↔ due = [] := by
  cases due with
  | nil => simp [ofDue, isTop]
  | cons d due =>
    by_cases hd : d = '>'
    · subst hd
      simp [ofDue, isTop]
      omega
    · simp [ofDue, isTop, hd]
      omega

/-- A character that keeps the brackets nested separates nothing, and takes the nesting along. -/
theorem Nesting.step_ofDue {i : Bool} {due due' : List Char} {c : Char}
    (h : encloseStep (declaratorBrackets i) ',' due c = some due') (hc : c = '=' → i = true) :
    ¬(c = ',' ∧ (ofDue i due).isTop = true) ∧ (ofDue i due).step c = ofDue i due' := by
  obtain ⟨hsep, hnest⟩ := Text.encloseStep_eq_some h
  refine ⟨fun htop => hsep ⟨isTop_ofDue.1 htop.2, htop.1⟩, ?_⟩
  rcases nestStep_declaratorBrackets hnest with ⟨hopen, d, hd, rfl⟩ | ⟨hclose, rfl⟩ |
    ⟨rfl, rfl, rfl⟩ | ⟨rfl, rfl, rfl⟩ | ⟨hopen, hclose, hless, hgreater, rfl⟩
  · simp [step, hopen, ofDue, hd]
  · have hopen : ¬(c = '(' ∨ c = '[' ∨ c = '\x7b') := by
      rcases hclose with rfl | rfl | rfl <;> decide
    have hne : c ≠ '>' := by
      rcases hclose with rfl | rfl | rfl <;> decide
    simp [step, hopen, hclose, ofDue, hne]
  · simp [step, ofDue]
  · simp [step, ofDue]
  · by_cases heq : c = '=' ∧ (ofDue i due').isTop = true
    · obtain rfl : i = true := hc heq.1
      simp [step, heq.1, ofDue]
    · have hangle : ¬(c = '<' ∧ (!(ofDue i due').inInit) = true) ∧
          ¬(c = '>' ∧ (!(ofDue i due').inInit) = true) := by
        simpa [ofDue] using And.intro hless hgreater
      rw [step, if_neg hopen, if_neg hclose, if_neg hangle.1, if_neg hangle.2, if_neg heq]

theorem splitDeclaratorsFrom_enclose {i : Bool} {due due' cs : List Char}
    (h : enclose (declaratorBrackets i) ',' due cs = some due') (hcs : '=' ∈ cs → i = true)
    (part rest : List Char) :
    splitDeclaratorsFrom (.ofDue i due) part (cs ++ rest) =
      splitDeclaratorsFrom (.ofDue i due') (cs.reverse ++ part) rest := by
  induction cs generalizing due part with
  | nil =>
    obtain rfl : due = due' := Option.some.inj h
    rfl
  | cons c cs ih =>
    rw [Text.enclose_cons] at h
    obtain ⟨mid, hstep, hrest⟩ := Option.bind_eq_some_iff.1 h
    obtain ⟨htop, hnext⟩ := Nesting.step_ofDue hstep fun hc => hcs (hc ▸ .head _)
    rw [List.cons_append, splitDeclaratorsFrom, if_neg htop, hnext,
      ih hrest fun hc => hcs (.tail _ hc)]
    simp

/-- Array brackets are nested and hold no comma. -/
theorem IsDims.enclose {k : Nat} {cs : List Char} (h : IsDims k cs) (i : Bool) (due : List Char) :
    enclose (declaratorBrackets i) ',' due cs = some due := by
  induction h with
  | blanks hw => exact enclose_unmarked (fun c hc => isDeclaratorMark_of_isBlank (hw c hc)) i due
  | @pair k cs w v h hw hv ih =>
    have hopen : encloseStep (declaratorBrackets i) ',' due '[' = some (']' :: due) := by
      rw [encloseStep, if_neg (by simp)]
      cases i <;> rfl
    have hclose : encloseStep (declaratorBrackets i) ',' (']' :: due) ']' = some due := by
      cases i <;> rfl
    have hin : ∀ due, Text.enclose (declaratorBrackets i) ',' due w = some due :=
      enclose_unmarked (fun c hc => isDeclaratorMark_of_isBlank (hw c hc)) i
    have hend : ∀ due, Text.enclose (declaratorBrackets i) ',' due v = some due :=
      enclose_unmarked (fun c hc => isDeclaratorMark_of_isBlank (hv c hc)) i
    simp [Text.enclose_append, Text.enclose_cons, ih, hopen, hin, hclose, hend]

/-! ## Splitting a list of declarators -/

theorem splitDeclarators_of_not_mem {cs : List Char} (h : ',' ∉ cs) :
    splitDeclarators cs = [cs] := by
  have hall : ∀ (cs part : List Char) (n : Nesting), ',' ∉ cs →
      splitDeclaratorsFrom n part cs = [part.reverse ++ cs] := by
    intro cs
    induction cs with
    | nil => simp [splitDeclaratorsFrom]
    | cons c cs ih =>
      intro part n h
      rw [List.mem_cons, not_or] at h
      rw [splitDeclaratorsFrom, if_neg (fun hc => h.1 hc.1.symm), ih _ _ h.2]
      simp
  exact hall cs [] {} h

/-- What may follow the name and the array brackets of a declarator: an initial value with nested
brackets and all its commas within them, or nothing. -/
def IsValue (cs : List Char) : Prop :=
  cs = [] ∨ ∃ init, cs = '=' :: init ∧ isEnclosed valueBrackets ',' init = true

/-- The text is the declarator, maybe with an initial value. -/
structure Declarator.Writes (d : Declarator) (cs : List Char) : Prop where
  head_enclosed : isEnclosed (declaratorBrackets false) ',' d.head = true
  head_plain : '=' ∉ d.head
  head_last : ∀ c ∈ d.head.getLast?, isIdentChar c = false
  name : isIdentifier d.name = true
  text : ∃ dims value, IsDims d.dims dims ∧ IsValue value ∧
    cs = (d.head ++ (d.name ++ dims)) ++ value

/-- The field that a declarator of the type declares. -/
def Declarator.field (base : List Char) (d : Declarator) : FieldDecl :=
  ⟨String.ofList d.name, String.ofList (base ++ d.dimsText)⟩

namespace Declarator.Writes

variable {d : Declarator} {cs : List Char}

/-- No equals sign stands before the initial value. -/
theorem not_mem (h : d.Writes cs) {dims : List Char} (hdims : IsDims d.dims dims) :
    '=' ∉ d.head ++ (d.name ++ dims) := by
  rw [List.mem_append, not_or]
  exact ⟨h.head_plain, not_mem_name_dims h.name hdims (by decide +kernel) (by decide) (by decide)⟩

/-- The initial value is left out of what is cut. -/
theorem before_eq (h : d.Writes cs) :
    ∃ dims, IsDims d.dims dims ∧ before '=' cs = d.head ++ (d.name ++ dims) := by
  obtain ⟨dims, value, hdims, hvalue, rfl⟩ := h.text
  refine ⟨dims, hdims, ?_⟩
  rcases hvalue with rfl | ⟨init, rfl, -⟩
  · rw [List.append_nil, before_of_not_mem (h.not_mem hdims)]
  · exact before_append (h.not_mem hdims) init

theorem ofChars? (h : d.Writes cs) :
    Declarator.ofChars? (before '=' cs) = some { d with head := Unicode.trimStart d.head } := by
  obtain ⟨dims, hdims, hbefore⟩ := h.before_eq
  rw [hbefore]
  exact Declarator.ofChars?_dims h.name hdims h.head_last

/-- After the declarator no bracket is open. -/
theorem split (h : d.Writes cs) (rest : List Char) : ∃ i, splitDeclaratorsFrom {} [] (cs ++ rest) =
    splitDeclaratorsFrom (.ofDue i []) cs.reverse rest := by
  obtain ⟨dims, value, hdims, hvalue, rfl⟩ := h.text
  have hname : enclose (declaratorBrackets false) ',' [] d.name = some [] :=
    enclose_unmarked (fun c hc => isDeclaratorMark_of_isIdentChar
      (isIdentChar_of_isIdentifier h.name c hc)) false []
  have hdecl : enclose (declaratorBrackets false) ',' [] (d.head ++ (d.name ++ dims)) =
      some [] := by
    simp [Text.enclose_append, Text.isEnclosed_iff.1 h.head_enclosed, hname,
      hdims.enclose false []]
  have hbefore : splitDeclaratorsFrom {} [] ((d.head ++ (d.name ++ dims)) ++ (value ++ rest)) =
      splitDeclaratorsFrom (.ofDue false []) (d.head ++ (d.name ++ dims)).reverse (value ++ rest) :=
    (splitDeclaratorsFrom_enclose hdecl (fun hc => absurd hc (h.not_mem hdims)) [] _).trans
      (by rw [List.append_nil])
  rw [List.append_assoc _ value rest, hbefore]
  rcases hvalue with rfl | ⟨init, rfl, hinit⟩
  · exact ⟨false, by simp⟩
  · have hvalue := splitDeclaratorsFrom_enclose (i := true) (Text.isEnclosed_iff.1 hinit)
      (fun _ => rfl) ('=' :: (d.head ++ (d.name ++ dims)).reverse) rest
    exact ⟨true, hvalue.trans (by simp)⟩

theorem split_last (h : d.Writes cs) : splitDeclarators cs = [cs] := by
  obtain ⟨i, hi⟩ := h.split []
  rw [List.append_nil] at hi
  rw [splitDeclarators, hi, splitDeclaratorsFrom, List.reverse_reverse]

theorem split_cons (h : d.Writes cs) (rest : List Char) :
    splitDeclarators (cs ++ ',' :: rest) = cs :: splitDeclarators rest := by
  obtain ⟨i, hi⟩ := h.split (',' :: rest)
  rw [splitDeclarators, hi, splitDeclaratorsFrom, if_pos ⟨rfl, Nesting.isTop_ofDue.2 rfl⟩,
    List.reverse_reverse]
  rfl

end Declarator.Writes

/-- Declarators with commas between them are split there. -/
theorem splitDeclarators_intercalate {ds : List Declarator} {parts : List (List Char)}
    (h : List.Forall₂ Declarator.Writes ds parts) (hne : parts ≠ []) :
    splitDeclarators ([','].intercalate parts) = parts := by
  induction h with
  | nil => exact absurd rfl hne
  | @cons d part ds parts hd h ih =>
    cases parts with
    | nil => rw [List.intercalate_singleton, hd.split_last]
    | cons next parts =>
      rw [List.intercalate_cons_cons, List.append_assoc, List.singleton_append, hd.split_cons,
        ih (List.cons_ne_nil _ _)]

/-! ## Fields of a list of declarators -/

theorem moreFields_writes {ds : List Declarator} {parts : List (List Char)} (base : List Char)
    (h : List.Forall₂ Declarator.Writes ds parts)
    (hblank : ∀ d ∈ ds, ∀ c ∈ d.head, Unicode.isBlank c = true) :
    moreFields base parts = some (ds.map (·.field base)) := by
  induction h with
  | nil => rfl
  | @cons d part ds parts hd h ih =>
    have hhead : Unicode.trimStart d.head = [] := List.dropWhile_eq_nil_iff.2 (hblank d (.head _))
    rw [moreFields, hd.ofChars?, ih fun e he => hblank e (.tail _ he)]
    simp [hhead, Declarator.field, Declarator.dimsText]
    rfl

end EntityForge.Java
