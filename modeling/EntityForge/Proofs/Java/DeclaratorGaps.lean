import EntityForge.Proofs.Java.Gaps

/-!
# Gaps in a list of declarators

A declarator is cut in one way only (`Declarator.ofChars?_eq_some_iff`). So a gap in it leaves its name
and its array brackets, and what precedes the name differs in the gap at most
(`Respaces.ofChars?`). In a list a gap stands in one declarator (`splitDeclarators_gap`). If that is not
the first one, it does not matter (`Respaces.moreFields`): what precedes the name is blank there. So a
gap does not matter to a statement if it does not matter to its first declarator
(`Respaces.fieldsOfStripped_eq`).
-/

namespace EntityForge.Java

/-! ## Array brackets -/

theorem bracketPairs_succ (k : Nat) : bracketPairs (k + 1) = bracketPairs k ++ ['[', ']'] := by
  simp [bracketPairs, List.replicate_succ']

theorem filter_blanks {w : List Char} (hw : ∀ c ∈ w, Unicode.isBlank c = true) :
    w.filter (fun c => !Unicode.isBlank c) = [] := by
  simpa using hw

/-- Array brackets are told by what they are without blanks. -/
theorem isDims_iff {k : Nat} {cs : List Char} :
    IsDims k cs ↔ cs.filter (fun c => !Unicode.isBlank c) = bracketPairs k := by
  refine ⟨fun h => ?_, fun h => ?_⟩
  · induction h with
    | blanks hw => exact filter_blanks hw
    | pair _ hw hv ih =>
      have hopen : Unicode.isBlank '[' = false := by decide
      have hclose : Unicode.isBlank ']' = false := by decide
      simp [List.filter_append, ih, hopen, hclose, filter_blanks hw,
        filter_blanks hv, bracketPairs_succ]
  · induction k generalizing cs with
    | zero => exact .blanks (by simpa [bracketPairs] using h)
    | succ k ih =>
      rw [bracketPairs_succ] at h
      obtain ⟨front, back, rfl, hfront, hback⟩ := List.filter_eq_append_iff.1 h
      obtain ⟨gap, back, rfl, hgap, -, hback⟩ := List.filter_eq_cons_iff.1 hback
      obtain ⟨w, v, rfl, hw, -, hv⟩ := List.filter_eq_cons_iff.1 hback
      have hdims : IsDims k (front ++ gap) := by
        refine ih ?_
        rw [List.filter_append, hfront, filter_blanks (by simpa using hgap), List.append_nil]
      simpa using IsDims.pair hdims (w := w) (v := v) (by simpa using hw) (by simpa using hv)

theorem IsDims.respaced {k : Nat} {m w v q : List Char} (h : IsDims k (m ++ (w ++ q)))
    (hw : ∀ c ∈ w, Unicode.isBlank c = true) (hv : ∀ c ∈ v, Unicode.isBlank c = true) :
    IsDims k (m ++ (v ++ q)) := by
  rw [isDims_iff] at h ⊢
  simpa [List.filter_append, filter_blanks hw, filter_blanks hv] using h

/-- What `takeDims` takes off the front of a reversed text are array brackets. -/
theorem takeDims_eq_some {n k : Nat} {xs rest : List Char} (h : takeDims n xs = some (k, rest)) :
    ∃ j dims, k = n + j ∧ IsDims j dims ∧ xs = dims.reverse ++ rest := by
  induction hn : xs.length using Nat.strong_induction_on generalizing n xs with
  | _ len ih =>
    have hxs := List.takeWhile_append_dropWhile (p := Unicode.isBlank) (l := xs)
    have hlead : ∀ c ∈ xs.takeWhile Unicode.isBlank, Unicode.isBlank c = true :=
      fun _ => List.mem_takeWhile_imp
    rw [takeDims_eq] at h
    split at h
    · rename_i inner hclose
      have hinner := List.takeWhile_append_dropWhile (p := Unicode.isBlank) (l := inner)
      have hgap : ∀ c ∈ inner.takeWhile Unicode.isBlank, Unicode.isBlank c = true :=
        fun _ => List.mem_takeWhile_imp
      split at h
      · rename_i after hopen
        rw [hclose, ← hinner, hopen] at hxs
        have hlength := congrArg List.length hxs
        simp only [List.length_append, List.length_cons] at hlength
        obtain ⟨j, dims, rfl, hdims, rfl⟩ := ih after.length (by omega) h rfl
        refine ⟨j + 1, dims ++ '[' :: ((inner.takeWhile Unicode.isBlank).reverse ++
          ']' :: (xs.takeWhile Unicode.isBlank).reverse), by omega, ?_, ?_⟩
        · exact .pair hdims (by simpa using hgap) (by simpa using hlead)
        · simpa using hxs.symm
      · cases h
    · obtain ⟨rfl, rfl⟩ := Prod.mk.inj (Option.some.inj h)
      exact ⟨0, (xs.takeWhile Unicode.isBlank).reverse, rfl, .blanks (by simpa using hlead),
        by rw [List.reverse_reverse, hxs]⟩

/-! ## Cutting a declarator -/

/-- A declarator is cut at the array brackets and the name that it ends in. -/
theorem Declarator.ofChars?_eq_some {cs : List Char} {d : Declarator}
    (h : Declarator.ofChars? cs = some d) :
    ∃ dims, Unicode.trimStart cs = d.head ++ (d.name ++ dims) ∧ isIdentifier d.name = true ∧
      IsDims d.dims dims ∧ ∀ c ∈ d.head.getLast?, isIdentChar c = false := by
  unfold ofChars? at h
  split at h
  · cases h
  rename_i k reversed htake
  dsimp only at h
  split at h
  · cases h
  rename_i c rest hchars
  split at h
  · cases h
  rename_i hdigit
  obtain rfl := Option.some.inj h
  have htrim : (Unicode.trim cs).reverse =
      (Unicode.trimStart cs).reverse.dropWhile Unicode.isBlank := by
    rw [Unicode.trim, Unicode.trimEnd, List.reverse_reverse]
  rw [htrim, takeDims_dropWhile] at htake
  obtain ⟨j, dims, rfl, hdims, hcs⟩ := takeDims_eq_some htake
  have hname : ∀ c ∈ (reversed.takeWhile isIdentChar).reverse, isIdentChar c = true :=
    fun c hc => List.mem_takeWhile_imp (List.mem_reverse.1 hc)
  refine ⟨dims, ?_, ?_, by simpa using hdims, fun c hc => ?_⟩
  · rw [← List.append_assoc, ← List.reverse_append, List.takeWhile_append_dropWhile,
      ← List.reverse_inj, hcs, List.reverse_append, List.reverse_reverse]
  · rw [hchars] at hname ⊢
    simpa [isIdentifier, hdigit] using hname
  · rw [List.getLast?_reverse] at hc
    exact Text.head?_dropWhile c hc

/-- What a declarator is cut into: the text has no other form. -/
theorem Declarator.ofChars?_eq_some_iff {cs : List Char} {d : Declarator} :
    Declarator.ofChars? cs = some d ↔ ∃ head dims, cs = head ++ (d.name ++ dims) ∧
      isIdentifier d.name = true ∧ IsDims d.dims dims ∧
        (∀ c ∈ head.getLast?, isIdentChar c = false) ∧ d.head = Unicode.trimStart head := by
  constructor
  · intro h
    obtain ⟨dims, hstart, hname, hdims, hlast⟩ := ofChars?_eq_some h
    have hlead : ∀ c ∈ cs.takeWhile Unicode.isBlank, Unicode.isBlank c = true :=
      fun _ => List.mem_takeWhile_imp
    have hfirst : ∀ c ∈ d.head.head?, Unicode.isBlank c = false := by
      intro c hc
      have hhead : c ∈ (Unicode.trimStart cs).head? := by rw [hstart, List.head?_append, hc]; rfl
      exact Text.head?_dropWhile c hhead
    refine ⟨cs.takeWhile Unicode.isBlank ++ d.head, dims, ?_, hname, hdims, fun c hc => ?_,
      (trimStart_append hlead hfirst).symm⟩
    · rw [List.append_assoc, ← hstart]
      exact List.takeWhile_append_dropWhile.symm
    · rw [List.getLast?_append] at hc
      cases hd : d.head.getLast? with
      | none =>
        rw [hd, Option.none_or] at hc
        exact isIdentChar_of_isBlank (hlead c (List.mem_of_getLast? hc))
      | some e =>
        rw [hd] at hc
        exact hlast c (hd.trans hc)
  · rintro ⟨head, dims, rfl, hname, hdims, hlast, hhead⟩
    rw [ofChars?_dims hname hdims hlast, ← hhead]

/-! ## A gap in a declarator -/

/-- The heads differ in the gap alone, if it stands in them. -/
def HeadsRespaced (p q w v head head' : List Char) : Prop :=
  head' = head ∨ ∃ e, e <+: q ∧ head = Unicode.trimStart (p ++ (w ++ e)) ∧
    head' = Unicode.trimStart (p ++ (v ++ e))

theorem mem_head?_append {name : List Char} (hname : isIdentifier name = true) (rest : List Char) :
    ∃ c ∈ (name ++ rest).head?, isIdentChar c = true := by
  cases name with
  | nil => cases hname
  | cons c name => exact ⟨c, rfl, isIdentChar_of_isIdentifier hname c (.head _)⟩

theorem getLast?_ident_append {cs : List Char} (hne : cs ≠ [])
    (hcs : ∀ c ∈ cs, isIdentChar c = true) (front : List Char) :
    ∃ c ∈ (front ++ cs).getLast?, isIdentChar c = true := by
  cases hlast : cs.getLast? with
  | none => exact absurd (List.getLast?_eq_none_iff.1 hlast) hne
  | some c =>
    refine ⟨c, ?_, hcs c (List.mem_of_getLast? hlast)⟩
    rw [List.getLast?_append, hlast]
    rfl

namespace Respaces

variable {p q w v : List Char}

/-- A gap before the name of a declarator. -/
theorem ofChars?_head (h : Respaces p q w v) {e name dims : List Char} {k : Nat}
    (hq : q = e ++ (name ++ dims)) (hname : isIdentifier name = true) (hdims : IsDims k dims)
    (hlast : ∀ c ∈ (p ++ (w ++ e)).getLast?, isIdentChar c = false) :
    Declarator.ofChars? (p ++ (v ++ q)) =
      some ⟨Unicode.trimStart (p ++ (v ++ e)), name, k⟩ := by
  have hshape : p ++ (v ++ q) = (p ++ (v ++ e)) ++ (name ++ dims) := by simp [hq]
  rw [hshape]
  refine Declarator.ofChars?_dims hname hdims fun c hc => ?_
  rcases List.eq_nil_or_concat e with rfl | ⟨e, d, rfl⟩
  · rcases List.eq_nil_or_concat v with rfl | ⟨v, b, rfl⟩
    · rcases h.apart with hiff | hapart
      · rw [hiff.2 rfl] at hlast
        exact hlast c hc
      · obtain ⟨d, hd, hident⟩ := mem_head?_append hname dims
        rw [Bool.eq_false_iff]
        intro hcident
        rw [hapart c (by simpa using hc) d (by rw [hq]; exact hd) hcident] at hident
        cases hident
    · obtain rfl : b = c := by simpa using hc
      exact isIdentChar_of_isBlank (h.right b (by simp))
  · refine hlast c ?_
    simpa using hc

/-- No gap stands within a name. -/
theorem eq_nil_of_ident (h : Respaces p q [] v) (hp : ∃ c ∈ p.getLast?, isIdentChar c = true)
    (hq : ∃ c ∈ q.head?, isIdentChar c = true) : v = [] := by
  rcases h.apart with hiff | hapart
  · exact hiff.1 rfl
  · obtain ⟨b, hb, hbident⟩ := hp
    obtain ⟨c, hc, hcident⟩ := hq
    rw [hapart b hb c hc hbident] at hcident
    cases hcident

/-- A gap in a declarator changes at most what precedes the name. -/
theorem ofChars? (h : Respaces p q w v) {d : Declarator}
    (hd : Declarator.ofChars? (p ++ (w ++ q)) = some d) : ∃ head',
      Declarator.ofChars? (p ++ (v ++ q)) = some { d with head := head' } ∧
        HeadsRespaced p q w v d.head head' := by
  obtain ⟨head, dims, heq, hname, hdims, hlast, hhead⟩ := Declarator.ofChars?_eq_some_iff.1 hd
  have hbefore : ∀ e, head = p ++ (w ++ e) → q = e ++ (d.name ++ dims) → ∃ head',
      Declarator.ofChars? (p ++ (v ++ q)) = some { d with head := head' } ∧
        HeadsRespaced p q w v d.head head' := by
    rintro e rfl hq
    exact ⟨_, h.ofChars?_head hq hname hdims hlast,
      .inr ⟨e, hq ▸ List.prefix_append _ _, hhead, rfl⟩⟩
  have hafter : ∀ m, p = head ++ (d.name ++ m) → dims = m ++ (w ++ q) → ∃ head',
      Declarator.ofChars? (p ++ (v ++ q)) = some { d with head := head' } ∧
        HeadsRespaced p q w v d.head head' := by
    rintro m rfl rfl
    refine ⟨d.head, ?_, .inl rfl⟩
    rw [Declarator.ofChars?_eq_some_iff]
    exact ⟨head, m ++ (v ++ q), by simp, hname, hdims.respaced h.left h.right, hlast, hhead⟩
  -- the gap stands before the name, in it, or after it
  rcases List.append_eq_append_iff.1 heq with ⟨e, rfl, hwq⟩ | ⟨m, rfl, hmq⟩
  · rcases List.append_eq_append_iff.1 hwq with ⟨e, rfl, hq⟩ | ⟨b, rfl, hq⟩
    · exact hbefore e rfl hq
    · cases b with
      | nil => exact hbefore [] (by simp) (by simpa using hq.symm)
      | cons c b =>
        obtain ⟨first, hfirst, hident⟩ := mem_head?_append hname dims
        obtain rfl : c = first := by simpa [hq] using hfirst
        exact absurd hident (by simp [isIdentChar_of_isBlank (h.left c (by simp))])
  · rcases List.append_eq_append_iff.1 hmq with ⟨m, rfl, hdimsq⟩ | ⟨n, hn, hwq⟩
    · exact hafter m (by simp) hdimsq
    · have hchars := isIdentChar_of_isIdentifier hname
      rw [hn] at hchars
      cases n with
      | nil => exact hafter [] (by simp [hn]) (by simpa using hwq.symm)
      | cons c n =>
        have hc : isIdentChar c = true := hchars c (by simp)
        obtain rfl : w = [] := by
          cases w with
          | nil => rfl
          | cons b w =>
            obtain rfl : b = c := (List.cons.inj hwq).1
            exact absurd hc (by simp [isIdentChar_of_isBlank (h.left b (.head _))])
        have hq : q = c :: n ++ dims := hwq
        by_cases hm : m = []
        · subst hm
          exact hbefore [] (by simp) (by rw [hq, hn]; rfl)
        · obtain rfl := h.eq_nil_of_ident (getLast?_ident_append hm
            (fun e he => hchars e (List.mem_append_left _ he)) head) ⟨c, by rw [hq]; rfl, hc⟩
          exact ⟨d.head, hd, .inl rfl⟩

end Respaces

/-! ## A gap in a list -/

theorem Nesting.step_of_isBlank {c : Char} (hc : Unicode.isBlank c = true) (n : Nesting) :
    n.step c = n ∧ c ≠ ',' := by
  have hmarks : c ∉ ['(', '[', '\x7b', ')', ']', '\x7d', '<', '>', '=', ','] :=
    Unicode.not_mem_of_class hc (by decide)
  simp only [List.mem_cons, not_or] at hmarks
  simp [step, hmarks]

theorem splitDeclaratorsFrom_blanks {w : List Char} (hw : ∀ c ∈ w, Unicode.isBlank c = true)
    (n : Nesting) (part t : List Char) :
    splitDeclaratorsFrom n part (w ++ t) = splitDeclaratorsFrom n (w.reverse ++ part) t := by
  induction w generalizing part with
  | nil => rfl
  | cons c w ih =>
    obtain ⟨hstep, hcomma⟩ := Nesting.step_of_isBlank (hw c (.head _)) n
    rw [List.cons_append, splitDeclaratorsFrom, if_neg fun h => hcomma h.1, hstep,
      ih fun d hd => hw d (.tail _ hd)]
    simp

/-- What has been read are complete parts and the start of one more. -/
theorem splitDeclaratorsFrom_append (n : Nesting) (part y : List Char) : ∃ front m last,
    (∀ t, splitDeclaratorsFrom n part (y ++ t) = front ++ splitDeclaratorsFrom m last t) ∧
      last.reverse <:+ part.reverse ++ y ∧ (front = [] → last.reverse = part.reverse ++ y) := by
  induction y generalizing n part with
  | nil => exact ⟨[], n, part, fun _ => rfl, by simp, fun _ => by simp⟩
  | cons c y ih =>
    by_cases hc : c = ',' ∧ n.isTop = true
    · obtain ⟨front, m, last, hsplit, hlast, -⟩ := ih { n with inInit := false } []
      refine ⟨part.reverse :: front, m, last, fun t => ?_, ?_, by simp⟩
      · rw [List.cons_append, splitDeclaratorsFrom, if_pos hc, hsplit, List.cons_append]
      · exact (hlast.trans (by simp)).trans (List.suffix_append _ _)
    · obtain ⟨front, m, last, hsplit, hlast, hfront⟩ := ih (n.step c) (c :: part)
      refine ⟨front, m, last, fun t => ?_, by simpa using hlast, by simpa using hfront⟩
      rw [List.cons_append, splitDeclaratorsFrom, if_neg hc, hsplit]

/-- The first part goes on with what has been read of it. -/
theorem splitDeclaratorsFrom_first (n : Nesting) (t : List Char) : ∃ q back, q <+: t ∧
    ∀ part, splitDeclaratorsFrom n part t = (part.reverse ++ q) :: back := by
  induction t generalizing n with
  | nil => exact ⟨[], [], List.nil_prefix, fun part => by simp [splitDeclaratorsFrom]⟩
  | cons c t ih =>
    by_cases hc : c = ',' ∧ n.isTop = true
    · refine ⟨[], splitDeclaratorsFrom { n with inInit := false } [] t, List.nil_prefix, ?_⟩
      intro part
      rw [splitDeclaratorsFrom, if_pos hc, List.append_nil]
    · obtain ⟨q, back, hq, hsplit⟩ := ih (n.step c)
      refine ⟨c :: q, back, by simpa using hq, fun part => ?_⟩
      rw [splitDeclaratorsFrom, if_neg hc, hsplit]
      simp

/-- A gap stands in one declarator. -/
theorem splitDeclarators_gap (y t : List Char) : ∃ front p q back, p <:+ y ∧ q <+: t ∧
    (front = [] → p = y) ∧ ∀ w, (∀ c ∈ w, Unicode.isBlank c = true) →
      splitDeclarators (y ++ (w ++ t)) = front ++ (p ++ (w ++ q)) :: back := by
  obtain ⟨front, m, last, hsplit, hlast, hfront⟩ := splitDeclaratorsFrom_append {} [] y
  obtain ⟨q, back, hq, hfirst⟩ := splitDeclaratorsFrom_first m t
  refine ⟨front, last.reverse, q, back, by simpa using hlast, hq, by simpa using hfront, ?_⟩
  intro w hw
  rw [splitDeclarators, hsplit, splitDeclaratorsFrom_blanks hw, hfirst]
  simp

/-! ## Fields of a list -/

theorem trim_eq_nil_iff {cs : List Char} :
    Unicode.trim cs = [] ↔ ∀ c ∈ cs, Unicode.isBlank c = true := by
  refine ⟨fun h c hc => ?_, fun h => ?_⟩
  · by_contra hb
    exact trim_ne_nil hc (by simpa using hb) h
  · have hstart : Unicode.trimStart cs = [] := List.dropWhile_eq_nil_iff.2 h
    rw [Unicode.trim, hstart]
    rfl

theorem trim_trimStart (cs : List Char) :
    Unicode.trim (Unicode.trimStart cs) = Unicode.trim cs := by
  have hidem : Unicode.trimStart (Unicode.trimStart cs) = Unicode.trimStart cs :=
    List.dropWhile_idempotent ..
  rw [Unicode.trim, Unicode.trim, hidem]

/-- Blanks in a text do not make it blank or not. -/
theorem Respaces.trim_eq_nil_iff {y t w v : List Char} (h : Respaces y t w v) :
    Unicode.trim (y ++ (w ++ t)) = [] ↔ Unicode.trim (y ++ (v ++ t)) = [] := by
  simp only [Java.trim_eq_nil_iff, List.forall_mem_append]
  exact and_congr_right fun _ => and_congr_left fun _ => iff_of_true h.left h.right

theorem HeadsRespaced.trim_eq_nil_iff {p q w v head head' : List Char} (h : Respaces p q w v)
    (hh : HeadsRespaced p q w v head head') :
    Unicode.trim head = [] ↔ Unicode.trim head' = [] := by
  rcases hh with rfl | ⟨e, he, rfl, rfl⟩
  · rfl
  · rw [trim_trimStart, trim_trimStart]
    exact (h.mono List.suffix_rfl he).trim_eq_nil_iff

/-- A gap in a later declarator does not matter. -/
theorem Respaces.moreFields {p q w v : List Char} (h : Respaces p q w v) (base : List Char)
    (rest : List (List Char)) :
    moreFields base ((p ++ (w ++ q)) :: rest) = moreFields base ((p ++ (v ++ q)) :: rest) := by
  by_cases hmem : '=' ∈ p
  · rw [Java.moreFields, Java.moreFields, before_append_of_mem hmem, before_append_of_mem hmem]
  · have h' := h.mono List.suffix_rfl (before_isPrefix '=' q)
    rw [Java.moreFields, Java.moreFields, before_gap (by decide) hmem h.left,
      before_gap (by decide) hmem h.right]
    cases hd : Declarator.ofChars? (p ++ (w ++ before '=' q)) with
    | none =>
      cases hd' : Declarator.ofChars? (p ++ (v ++ before '=' q)) with
      | none => rfl
      | some d =>
        obtain ⟨head', hsome, -⟩ := h'.symm.ofChars? hd'
        rw [hd] at hsome
        cases hsome
    | some d =>
      obtain ⟨head', hsome, hhead⟩ := h'.ofChars? hd
      have hiff := hhead.trim_eq_nil_iff h'
      rw [hsome]
      by_cases hnil : Unicode.trim d.head = []
      · simp only [Option.bind_eq_bind, Option.bind_some, hnil, hiff.1 hnil,
          Declarator.dimsText]
      · have hnil' : Unicode.trim head' ≠ [] := fun hc => hnil (hiff.2 hc)
        simp [hnil, hnil']

theorem moreFields_part {part part' : List Char}
    (h : ∀ base rest, moreFields base (part :: rest) = moreFields base (part' :: rest))
    (base : List Char) (front back : List (List Char)) :
    moreFields base (front ++ part :: back) = moreFields base (front ++ part' :: back) := by
  induction front with
  | nil => exact h base back
  | cons first front ih => rw [List.cons_append, List.cons_append, moreFields, moreFields, ih]

/-- Of the first declarator only what precedes its initial value is read. -/
theorem fieldsOfDeclarators_before {part part' : List Char} (h : before '=' part = before '=' part')
    (back : List (List Char)) :
    fieldsOfDeclarators (part :: back) = fieldsOfDeclarators (part' :: back) := by
  rw [fieldsOfDeclarators, fieldsOfDeclarators, h]

/-- Blanks before the first declarator do not matter. -/
theorem fieldsOfDeclarators_blanks {w : List Char} (hw : ∀ c ∈ w, Unicode.isBlank c = true)
    (part : List Char) (back : List (List Char)) :
    fieldsOfDeclarators ((w ++ part) :: back) = fieldsOfDeclarators (part :: back) := by
  have heq : '=' ∉ w := fun hc => absurd (hw _ hc) (by decide)
  have htrim : Unicode.trim (w ++ before '=' part) = Unicode.trim (before '=' part) := by
    rw [Unicode.trim, trimStart_blanks hw, Unicode.trim]
  rw [fieldsOfDeclarators, fieldsOfDeclarators, before_append_of_not_mem heq,
    Declarator.ofChars?, Declarator.ofChars?, htrim]

/-- The fields that a statement without annotations declares. -/
def fieldsOfStripped (stmt : List Char) : List FieldDecl :=
  if (before '=' stmt).contains '(' || (Unicode.trim stmt).isEmpty then []
  else (fieldsOfDeclarators (splitDeclarators stmt)).getD []

theorem fieldsOfStatement_eq (stmt : List Char) :
    fieldsOfStatement stmt = fieldsOfStripped (stripAnnotations stmt) := rfl

namespace Respaces

variable {y t w v : List Char}

/-- A gap before the first equals sign, or after it, does not change what stands before it but for
the gap. -/
theorem mem_before_iff (h : Respaces y t w v) {c : Char} (hc : Unicode.isBlank c = false) :
    c ∈ before '=' (y ++ (w ++ t)) ↔ c ∈ before '=' (y ++ (v ++ t)) := by
  have hnone : ∀ {u : List Char}, (∀ d ∈ u, Unicode.isBlank d = true) → c ∉ u := by
    intro u hu hmem
    rw [hu c hmem] at hc
    cases hc
  by_cases hmem : '=' ∈ y
  · rw [before_append_of_mem hmem, before_append_of_mem hmem]
  · rw [before_gap (by decide) hmem h.left, before_gap (by decide) hmem h.right]
    simp [hnone h.left, hnone h.right]

/-- A gap does not matter to a statement if it does not matter to the list of declarators. -/
theorem fieldsOfStripped_of_fieldsOfDeclarators (h : Respaces y t w v)
    (hfields : fieldsOfDeclarators (splitDeclarators (y ++ (w ++ t))) =
      fieldsOfDeclarators (splitDeclarators (y ++ (v ++ t)))) :
    fieldsOfStripped (y ++ (w ++ t)) = fieldsOfStripped (y ++ (v ++ t)) := by
  have hparen : (before '=' (y ++ (w ++ t))).contains '(' =
      (before '=' (y ++ (v ++ t))).contains '(' := by
    simpa only [List.contains_eq_mem, decide_eq_decide] using h.mem_before_iff (by decide)
  have htrim : (Unicode.trim (y ++ (w ++ t))).isEmpty = (Unicode.trim (y ++ (v ++ t))).isEmpty := by
    rw [Bool.eq_iff_iff, List.isEmpty_iff, List.isEmpty_iff]
    exact h.trim_eq_nil_iff
  rw [fieldsOfStripped, fieldsOfStripped, hfields, hparen, htrim]

/-- A gap does not matter to a statement if it does not matter to the first declarator. -/
theorem fieldsOfStripped_eq (h : Respaces y t w v)
    (hfirst : ∀ q back, q <+: t → fieldsOfDeclarators ((y ++ (w ++ q)) :: back) =
      fieldsOfDeclarators ((y ++ (v ++ q)) :: back)) :
    fieldsOfStripped (y ++ (w ++ t)) = fieldsOfStripped (y ++ (v ++ t)) := by
  refine h.fieldsOfStripped_of_fieldsOfDeclarators ?_
  obtain ⟨front, p, q, back, hp, hq, hfront, hsplit⟩ := splitDeclarators_gap y t
  cases front with
  | nil =>
    obtain rfl := hfront rfl
    rw [hsplit w h.left, hsplit v h.right]
    exact hfirst q back hq
  | cons first front =>
    rw [hsplit w h.left, hsplit v h.right, List.cons_append, List.cons_append,
      fieldsOfDeclarators, fieldsOfDeclarators]
    simp only [moreFields_part (h.mono hp hq).moreFields]

/-- A gap after the first equals sign does not matter. -/
theorem fieldsOfStripped_value (h : Respaces y t w v) (heq : '=' ∈ y) :
    fieldsOfStripped (y ++ (w ++ t)) = fieldsOfStripped (y ++ (v ++ t)) :=
  h.fieldsOfStripped_eq fun q back _ => fieldsOfDeclarators_before
    (by rw [before_append_of_mem heq, before_append_of_mem heq]) back

/-- A gap before the first word does not matter. -/
theorem fieldsOfStripped_start (h : Respaces y t w v) (hy : ∀ c ∈ y, Unicode.isBlank c = true) :
    fieldsOfStripped (y ++ (w ++ t)) = fieldsOfStripped (y ++ (v ++ t)) :=
  h.fieldsOfStripped_eq fun q back _ => by
    rw [fieldsOfDeclarators_blanks hy, fieldsOfDeclarators_blanks h.left,
      fieldsOfDeclarators_blanks hy, fieldsOfDeclarators_blanks h.right]

end Respaces

theorem fieldsOfStripped_blanks {w : List Char} (hw : ∀ c ∈ w, Unicode.isBlank c = true)
    (stmt : List Char) : fieldsOfStripped (w ++ stmt) = fieldsOfStripped stmt := by
  have hgap : Respaces [] stmt w [] := ⟨hw, by simp, .inr (by simp)⟩
  simpa using hgap.fieldsOfStripped_start (by simp)

end EntityForge.Java
