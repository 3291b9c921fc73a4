import EntityForge.Proofs.Change.Recovery
import EntityForge.Proofs.Java.ClosedCode
import EntityForge.Proofs.Java.Declarations
import EntityForge.Proofs.Java.SameStatement

/-!
# Modifiers and annotations before a field

`IsModifierSource ins`: the text is a sequence of modifiers and annotations as a source may have it.
Cleaned and put on one line it is one of modifiers and annotations that nest
(`IsModifierSource.collectedAs`), and in a statement all of it is collected, braces in arguments
included (`scans_nest`). No brace can tell a statement with such a text before it from the one
without (`IsAnnotatedModifiers.readAlike`), and to a statement that declares fields it does not matter
(`IsAnnotatedModifiers.fieldsOfStatement_eq`); to one that declares none it may, as it does before
`= 3;`, where `non-sealed` is read as a type and a name.

* `fieldsOfSource_inserted`: nothing changes where a field declaration starts.
-/

namespace EntityForge.Java

open Text (isNested isNested_iff nest nestStep nest_cons nestStep_eq_some)

/-- The parentheses of annotations. -/
def argumentBrackets : List (Char × Char) := [('(', ')')]

/-! ## Texts of modifiers and annotations -/

/-- The text is a sequence of modifiers and annotations, each with blanks after it. The arguments of
an annotation are closed, and cleaned they have nested parentheses and no semicolon. -/
inductive IsModifierSource : List Char → Prop
  | nil : IsModifierSource []
  | word {m gap ms : List Char} (hm : m ∈ modifiers) (hne : gap ≠ [])
      (hgap : ∀ c ∈ gap, Unicode.isBlank c = true) (h : IsModifierSource ms) :
      IsModifierSource (m ++ (gap ++ ms))
  | marker {name gap ms : List Char} (hname : ∀ c ∈ name, isAnnotationChar c = true)
      (hint : name ≠ "interface".toList) (hne : gap ≠ [])
      (hgap : ∀ c ∈ gap, Unicode.isBlank c = true) (h : IsModifierSource ms) :
      IsModifierSource (('@' :: name) ++ (gap ++ ms))
  | annotated {name args cargs gap ms : List Char} (hname : ∀ c ∈ name, isAnnotationChar c = true)
      (hint : name ≠ "interface".toList) (hargs : ClosedCode args cargs)
      (hnested : isNested argumentBrackets cargs = true) (hsemi : ';' ∉ cargs) (hne : gap ≠ [])
      (hgap : ∀ c ∈ gap, Unicode.isBlank c = true) (h : IsModifierSource ms) :
      IsModifierSource (('@' :: (name ++ '(' :: (args ++ [')']))) ++ (gap ++ ms))

/-! ## Parentheses -/

theorem openParens_oneLine (cs : List Char) : openParens (oneLine cs) = openParens cs := by
  induction cs with
  | nil => rfl
  | cons c cs ih =>
    have hcons : ∀ (d : Char) (ds : List Char),
        openParens (d :: ds) = openParens [d] + openParens ds := fun d ds => openParens_append [d] ds
    have hhead : openParens [if c = '\n' then ' ' else c] = openParens [c] := by
      split
      · rename_i hc
        rw [hc]
        rfl
      · rfl
    rw [oneLine, List.map_cons, hcons, hcons c, hhead]
    exact congrArg _ ih

theorem nestStep_argumentBrackets {due due' : List Char} {c : Char}
    (h : nestStep argumentBrackets due c = some due') :
    (c = '(' ∧ due' = ')' :: due) ∨ (c = ')' ∧ due = ')' :: due') ∨
      (c ≠ '(' ∧ c ≠ ')' ∧ due' = due) := by
  by_cases ho : c = '('
  · subst ho
    exact .inl ⟨rfl, (Option.some.inj h).symm⟩
  · have hopen : argumentBrackets.lookup c = none := by
      simp [argumentBrackets, List.lookup_cons, beq_false_of_ne ho]
    rcases nestStep_eq_some h with ⟨close, hlookup, -⟩ | ⟨-, hclose, rfl⟩ | ⟨-, hc, rfl⟩
    · rw [hopen] at hlookup
      cases hlookup
    · obtain rfl : ')' = c := by simpa [argumentBrackets] using hclose
      exact .inr (.inl ⟨rfl, rfl⟩)
    · refine .inr (.inr ⟨ho, ?_, rfl⟩)
      rintro rfl
      simp [argumentBrackets] at hc

/-- Nested parentheses are counted by what is due. -/
theorem openParens_of_nest {cs due due' : List Char} (h : nest argumentBrackets due cs = some due') :
    openParens cs = (due'.length : Int) - due.length := by
  induction cs generalizing due with
  | nil =>
    obtain rfl : due = due' := Option.some.inj h
    simp [openParens]
  | cons c cs ih =>
    rw [nest_cons] at h
    obtain ⟨mid, hstep, hrest⟩ := Option.bind_eq_some_iff.1 h
    have hcons : openParens (c :: cs) = openParens [c] + openParens cs := openParens_append [c] cs
    rw [hcons, ih hrest]
    rcases nestStep_argumentBrackets hstep with ⟨rfl, rfl⟩ | ⟨rfl, rfl⟩ | ⟨ho, hc, rfl⟩
    · simp [openParens]
      omega
    · simp [openParens]
      omega
    · simp [openParens, ho, hc]

theorem nest_oneLine {cs due due' : List Char} (h : nest argumentBrackets due cs = some due') :
    nest argumentBrackets due (oneLine cs) = some due' := by
  induction cs generalizing due with
  | nil => exact h
  | cons c cs ih =>
    rw [nest_cons] at h
    obtain ⟨mid, hstep, hrest⟩ := Option.bind_eq_some_iff.1 h
    rw [oneLine, List.map_cons, nest_cons]
    have hhead : nestStep argumentBrackets due (if c = '\n' then ' ' else c) = some mid := by
      split
      · rename_i hc
        rw [← hstep, hc]
        rfl
      · exact hstep
    rw [hhead]
    exact ih hrest

/-! ## Scanning arguments -/

/-- Wherever a statement goes on with the text, it is collected. -/
def Collects (cs : List Char) : Prop :=
  ∀ s : Scanner, s.inStatement = true → 0 ≤ openParens s.statement →
    Scans cs s { s with statement := (oneLine cs).reverse ++ s.statement }

theorem Collects.of_inner {cs : List Char} (h : ∀ c ∈ cs, isInner c = true) : Collects cs :=
  fun _ hs _ => scans_inner h hs

theorem Collects.append {a b : List Char} (ha : Collects a) (hb : Collects b)
    (hp : 0 ≤ openParens a) : Collects (a ++ b) := by
  intro s hs hopen
  have hmid : 0 ≤ openParens ((oneLine a).reverse ++ s.statement) := by
    rw [openParens_append, openParens_reverse, openParens_oneLine]
    omega
  have hrest := hb { s with statement := (oneLine a).reverse ++ s.statement } hs hmid
  simpa [oneLine_append] using (ha s hs hopen).append hrest

/-- Within parentheses of a statement braces are collected too. -/
theorem scans_within {s : Scanner} (hs : s.inStatement = true) {c : Char} (hc : c ≠ ';')
    (hp : 0 < openParens s.statement) :
    Scans [c] s { s with statement := (if c = '\n' then ' ' else c) :: s.statement } := by
  by_cases hb : c = '\x7b' ∨ c = '\x7d'
  · have hn : c ≠ '\n' := by rcases hb with rfl | rfl <;> decide
    refine scans_of_step fun n => ⟨n, ?_⟩
    rw [if_neg hn]
    exact Scanner.step_heldBrace (s := { s with line := n }) hb hs
      (by rw [openParens_reverse]; exact hp)
  · rw [not_or] at hb
    exact scans_char hs (by simp [isInner, hb.1, hb.2, hc])

/-- Text with nested parentheses is collected if more parentheses are open than those due. -/
theorem scans_nest {cs due due' : List Char} (h : nest argumentBrackets due cs = some due')
    (hsemi : ';' ∉ cs) {s : Scanner} (hs : s.inStatement = true)
    (hp : (due.length : Int) < openParens s.statement) :
    Scans cs s { s with statement := (oneLine cs).reverse ++ s.statement } := by
  induction cs generalizing due s with
  | nil => exact .nil s
  | cons c cs ih =>
    rw [nest_cons] at h
    obtain ⟨mid, hstep, hrest⟩ := Option.bind_eq_some_iff.1 h
    rw [List.mem_cons, not_or] at hsemi
    have hfirst := scans_within hs (Ne.symm hsemi.1) (by omega)
    have hopen : openParens ((if c = '\n' then ' ' else c) :: s.statement) =
        openParens (oneLine [c]) + openParens s.statement := openParens_append [_] s.statement
    have hmid : (mid.length : Int) <
        openParens ((if c = '\n' then ' ' else c) :: s.statement) := by
      have hcount : nest argumentBrackets due [c] = some mid := by
        rw [nest_cons, hstep]
        rfl
      rw [hopen, openParens_oneLine, openParens_of_nest hcount]
      omega
    have hall := hfirst.append (ih hrest hsemi.2
      (s := { s with statement := (if c = '\n' then ' ' else c) :: s.statement }) hs hmid)
    simpa [oneLine] using hall

/-- Arguments in parentheses are collected. -/
theorem collects_arguments {cs : List Char} (h : isNested argumentBrackets cs = true)
    (hsemi : ';' ∉ cs) : Collects ('(' :: (cs ++ [')'])) := by
  intro s hs hopen
  have hopened : openParens ('(' :: s.statement) = 1 + openParens s.statement :=
    openParens_append ['('] s.statement
  have hfirst : Scans ['('] s { s with statement := '(' :: s.statement } := scans_char hs rfl
  have hargs := scans_nest (isNested_iff.1 h) hsemi (s := { s with statement := '(' :: s.statement })
    hs (by simp only [List.length_nil, hopened]; omega)
  have hlast : Scans [')'] { s with statement := (oneLine cs).reverse ++ '(' :: s.statement }
      { s with statement := ')' :: ((oneLine cs).reverse ++ '(' :: s.statement) } :=
    scans_char (s := { s with statement := (oneLine cs).reverse ++ '(' :: s.statement }) hs rfl
  simpa [oneLine] using (hfirst.append hargs).append hlast

/-! ## Cleaned modifiers -/

/-- In code of a statement the text is collected as `out`, which leaves no parenthesis open. -/
structure CollectedAs (src out : List Char) : Prop where
  cleans : Cleans src out
  collects : Collects out
  parens : openParens out = 0

theorem CollectedAs.append {a b x y : List Char} (ha : CollectedAs a x) (hb : CollectedAs b y) :
    CollectedAs (a ++ b) (x ++ y) where
  cleans := ha.cleans.append hb.cleans
  collects := ha.collects.append hb.collects (Int.le_of_eq ha.parens.symm)
  parens := by rw [openParens_append, ha.parens, hb.parens, Int.add_zero]

/-- The character is collected as it is. -/
def isCollected (c : Char) : Bool :=
  isPlain c && isInner c && c != '(' && c != ')'

theorem collectedAs_self {cs : List Char} (h : ∀ c ∈ cs, isCollected c = true) :
    CollectedAs cs cs := by
  simp only [isCollected, Bool.and_eq_true, bne_iff_ne] at h
  refine ⟨cleans_plain fun c hc => (h c hc).1.1.1, .of_inner fun c hc => (h c hc).1.1.2, ?_⟩
  exact openParens_of_not_mem (fun hc => (h _ hc).1.2 rfl) (fun hc => (h _ hc).2 rfl)

theorem isCollected_of_isBlank {c : Char} (h : Unicode.isBlank c = true) :
    isCollected c = true := by
  have hmarks : c ∉ "/\"'\x7b\x7d;()".toList := Unicode.not_mem_of_class h (by decide)
  simpa [isCollected, isPlain, isInner, and_assoc] using hmarks

theorem isCollected_of_isAnnotationChar {c : Char} (h : isAnnotationChar c = true) :
    isCollected c = true ∧ c ≠ '\n' := by
  have hmarks : c ∉ "/\"'\x7b\x7d;()\n".toList :=
    Unicode.not_mem_of_class h (by decide +kernel)
  simpa [isCollected, isPlain, isInner, and_assoc] using hmarks

theorem isCollected_of_mem_modifiers {m : List Char} (hm : m ∈ modifiers) {c : Char} (hc : c ∈ m) :
    isCollected c = true ∧ c ≠ '\n' := by
  have hall : modifierChars.all (fun c => isCollected c && c != '\n') = true := by decide
  simpa using List.all_eq_true.1 hall c (mem_modifierChars hm hc)

/-- Arguments in parentheses are cleaned as they are alone. -/
theorem collectedAs_arguments {args cargs : List Char} (hargs : ClosedCode args cargs)
    (h : isNested argumentBrackets cargs = true) (hsemi : ';' ∉ cargs) :
    CollectedAs ('(' :: (args ++ [')'])) ('(' :: (cargs ++ [')'])) where
  cleans := by
    intro s hs
    obtain ⟨hopen, hopenOut⟩ := cleans_char (c := '(') rfl s hs
    obtain ⟨hcode, hout⟩ := hargs.foldl hopen
    obtain ⟨hclose, hcloseOut⟩ := Cleaner.step_plain hcode (c := ')') rfl rfl
    rw [List.foldl_cons, List.foldl_nil] at hopenOut hcode hout hclose hcloseOut
    rw [List.foldl_cons, List.foldl_append, List.foldl_cons, List.foldl_nil]
    refine ⟨hclose, ?_⟩
    rw [hcloseOut, hout, hopenOut]
    simp
  collects := collects_arguments h hsemi
  parens := by
    have hparts : openParens (['('] ++ (cargs ++ [')'])) = 1 + (openParens cargs + -1) := by
      rw [openParens_append, openParens_append]
      rfl
    have hargs : openParens cargs = 0 := by simpa using openParens_of_nest (isNested_iff.1 h)
    exact hparts.trans (by rw [hargs]; rfl)

theorem oneLine_of_ne {cs : List Char} (h : ∀ c ∈ cs, c ≠ '\n') : oneLine cs = cs :=
  oneLine_of_not_mem fun hc => h _ hc rfl

theorem IsModifierSource.collectedAs {src : List Char} (h : IsModifierSource src) :
    ∃ out, CollectedAs src out ∧ IsAnnotatedModifiers (oneLine out) := by
  induction h with
  | nil => exact ⟨[], collectedAs_self (by simp), .nil⟩
  | @word m gap ms hm hne hgap _ ih =>
    obtain ⟨out, hout, hms⟩ := ih
    have hword := collectedAs_self fun c hc => (isCollected_of_mem_modifiers hm hc).1
    have hgaps := collectedAs_self fun c hc => isCollected_of_isBlank (hgap c hc)
    refine ⟨m ++ (gap ++ out), hword.append (hgaps.append hout), ?_⟩
    rw [oneLine_append, oneLine_append,
      oneLine_of_ne fun c hc => (isCollected_of_mem_modifiers hm hc).2]
    exact .word hm (by simpa [oneLine] using hne) (isBlank_oneLine hgap) hms
  | @marker name gap ms hname hint hne hgap _ ih =>
    obtain ⟨out, hout, hms⟩ := ih
    have hsign : ∀ c ∈ '@' :: name, isCollected c = true ∧ c ≠ '\n' := by
      refine List.forall_mem_cons.2 ⟨by decide, fun c hc => ?_⟩
      exact isCollected_of_isAnnotationChar (hname c hc)
    have hmark := collectedAs_self fun c hc => (hsign c hc).1
    have hgaps := collectedAs_self fun c hc => isCollected_of_isBlank (hgap c hc)
    refine ⟨('@' :: name) ++ (gap ++ out), hmark.append (hgaps.append hout), ?_⟩
    rw [oneLine_append, oneLine_append, oneLine_of_ne fun c hc => (hsign c hc).2]
    exact .annotated ⟨name, [], by simp, hname, hint, .inl rfl⟩ (by simpa [oneLine] using hne)
      (isBlank_oneLine hgap) hms
  | @annotated name args cargs gap ms hname hint hargs hnested hsemi hne hgap _ ih =>
    obtain ⟨out, hout, hms⟩ := ih
    have hsign : ∀ c ∈ '@' :: name, isCollected c = true ∧ c ≠ '\n' := by
      refine List.forall_mem_cons.2 ⟨by decide, fun c hc => ?_⟩
      exact isCollected_of_isAnnotationChar (hname c hc)
    have hmark := collectedAs_self fun c hc => (hsign c hc).1
    have hgaps := collectedAs_self fun c hc => isCollected_of_isBlank (hgap c hc)
    have harg := collectedAs_arguments hargs hnested hsemi
    refine ⟨(('@' :: name) ++ '(' :: (cargs ++ [')'])) ++ (gap ++ out), ?_, ?_⟩
    · exact (hmark.append harg).append (hgaps.append hout)
    · rw [oneLine_append, oneLine_append, oneLine_append, oneLine_of_ne fun c hc => (hsign c hc).2]
      refine .annotated ⟨name, '(' :: (oneLine cargs ++ [')']), ?_, hname, hint,
        .inr ⟨oneLine cargs, rfl, ?_⟩⟩ (by simpa [oneLine] using hne) (isBlank_oneLine hgap) hms
      · simp [oneLine]
      · exact isNested_iff.2 (nest_oneLine (isNested_iff.1 hnested))

/-! ## Fields of a statement with modifiers -/

/-- The text before the first declarator is part of it. -/
theorem splitDeclarators_modifiers {v : List Char} (hv : ∀ c ∈ v, Unicode.isBlank c = true ∨
    c ∈ modifierChars) (t : List Char) : ∃ q back, splitDeclarators t = q :: back ∧
      splitDeclarators (v ++ t) = (v ++ q) :: back := by
  obtain ⟨q, back, -, hsplit⟩ := splitDeclaratorsFrom_first {} t
  refine ⟨q, back, hsplit [], ?_⟩
  have hmarks : ∀ c ∈ v, isDeclaratorMark c = false ∧ c ≠ '=' := by
    intro c hc
    rcases hv c hc with hb | hm
    · refine ⟨isDeclaratorMark_of_isBlank hb, ?_⟩
      rintro rfl
      exact absurd hb (by decide)
    · have hall : modifierChars.all (fun c => !isDeclaratorMark c && c != '=') = true := by decide
      simpa using List.all_eq_true.1 hall c hm
  have henclosed : Text.enclose (declaratorBrackets false) ',' [] v = some [] :=
    enclose_unmarked (fun c hc => (hmarks c hc).1) false []
  have hfirst := splitDeclaratorsFrom_enclose henclosed (fun hc => absurd rfl (hmarks _ hc).2) [] t
  rw [List.append_nil] at hfirst
  exact hfirst.trans ((hsplit _).trans (by rw [List.reverse_reverse]))

/-- Modifiers before a first declarator that has a type do not matter. -/
theorem IsModifiers.fieldsOfDeclarators {v : List Char} (hv : IsModifiers v) {q : List Char}
    {back : List (List Char)} (h : fieldsOfDeclarators (q :: back) ≠ none) :
    fieldsOfDeclarators ((v ++ q) :: back) = fieldsOfDeclarators (q :: back) := by
  have heq : '=' ∉ v := fun hc => (hv.mem hc).elim (fun hb => absurd hb (by decide))
    fun hm => absurd hm (by decide)
  rw [Java.fieldsOfDeclarators, before_append_of_not_mem heq]
  rw [Java.fieldsOfDeclarators] at h ⊢
  cases hd : Declarator.ofChars? (before '=' q) with
  | none =>
    rw [hd] at h
    exact absurd rfl h
  | some d =>
    obtain ⟨head, dims, hq, hname, hdims, hlast, hhead⟩ := Declarator.ofChars?_eq_some_iff.1 hd
    -- without a text before the name there is no type
    have hne : head ≠ [] := by
      rintro rfl
      rw [hd] at h
      refine h ?_
      have hnone : words (Java.stripModifiers d.head) = [] := by
        rw [hhead, stripModifiers_trimStart]
        decide +kernel
      simp [hnone]
    have hlast' : ∀ c ∈ (v ++ head).getLast?, isIdentChar c = false := by
      intro c hc
      refine hlast c ?_
      rwa [List.getLast?_append_of_ne_nil _ hne] at hc
    have hd' : Declarator.ofChars? (v ++ before '=' q) =
        some ⟨Unicode.trimStart (v ++ head), d.name, d.dims⟩ := by
      rw [hq, ← List.append_assoc]
      exact Declarator.ofChars?_dims hname hdims hlast'
    have hstrip : Java.stripModifiers (Unicode.trimStart (v ++ head)) =
        Java.stripModifiers d.head := by
      rw [stripModifiers_trimStart, hv.stripModifiers, hhead, stripModifiers_trimStart]
    rw [hd']
    simp only [Option.bind_eq_bind, Option.bind_some, hstrip, Declarator.dimsText]

/-- Modifiers before a statement that declares fields do not matter. -/
theorem IsModifiers.fieldsOfStripped {v stmt : List Char} (hv : IsModifiers v)
    (h : fieldsOfStripped stmt ≠ []) : fieldsOfStripped (v ++ stmt) = fieldsOfStripped stmt := by
  have hnot : ∀ c, Unicode.isBlank c = false → c ∉ modifierChars → c ∉ v := by
    intro c hb hm hc
    rcases hv.mem hc with hb' | hm'
    · rw [hb] at hb'
      cases hb'
    · exact hm hm'
  have hcond : ((before '=' stmt).contains '(' || (Unicode.trim stmt).isEmpty) = false :=
    Bool.eq_false_iff.2 fun hc => h (if_pos hc)
  obtain ⟨hparen, hfull⟩ := Bool.or_eq_false_iff.1 hcond
  have hparen' : (before '=' (v ++ stmt)).contains '(' = false := by
    rw [before_append_of_not_mem (hnot '=' (by decide) (by decide))]
    simpa using ⟨hnot '(' (by decide) (by decide), by simpa using hparen⟩
  have hfull' : (Unicode.trim (v ++ stmt)).isEmpty = false := by
    rw [List.isEmpty_eq_false_iff] at hfull ⊢
    exact fun hnil => hfull (trim_eq_nil_iff.2 fun c hc =>
      trim_eq_nil_iff.1 hnil c (List.mem_append_right _ hc))
  obtain ⟨q, back, hsplit, hsplit'⟩ := splitDeclarators_modifiers (fun c hc => hv.mem hc) stmt
  rw [Java.fieldsOfStripped, hcond, hsplit] at h
  have hsome : Java.fieldsOfDeclarators (q :: back) ≠ none := by
    intro hnone
    rw [hnone] at h
    exact h rfl
  rw [Java.fieldsOfStripped, Java.fieldsOfStripped, hparen', hfull', hcond, hsplit, hsplit',
    hv.fieldsOfDeclarators hsome]
  rfl

theorem firstKeyword_append {ks : List (List Char)} (h : ∀ k ∈ ks, TypeKeyword.ofWord? k = none)
    (ws : List (List Char)) : firstKeyword (ks ++ ws) = firstKeyword ws := by
  induction ks with
  | nil => rfl
  | cons k ks ih =>
    have hrest := ih fun k hk => h k (.tail _ hk)
    rw [List.cons_append]
    cases hall : ks ++ ws with
    | nil =>
      rw [hall] at hrest
      exact hrest
    | cons next rest =>
      rw [firstKeyword, h k (.head _), ← hall]
      exact hrest

/-- No modifier is a keyword of a type. -/
theorem IsModifiers.firstKeyword_words {v : List Char} (hv : IsModifiers v) (t : List Char) :
    firstKeyword (words (v ++ t)) = firstKeyword (words t) := by
  have hsep : ∀ {c}, Unicode.isBlank c = true → (!isIdentChar c) = true :=
    fun hc => by rw [isIdentChar_of_isBlank hc]; rfl
  induction hv with
  | nil => rfl
  | blank hc h ih =>
    rw [← ih]
    exact congrArg _ (Text.piecesBy_cons (hsep hc) _)
  | @word m c ms hm hc h ih =>
    have hnone : modifiers.all
        (fun m => (words m).all fun k => (TypeKeyword.ofWord? k).isNone) = true := by decide +kernel
    have hwords : words (m ++ c :: ms ++ t) = words m ++ words (ms ++ t) := by
      rw [List.append_assoc, List.cons_append]
      exact Text.piecesBy_append_cons (hsep hc) m (ms ++ t)
    rw [hwords, firstKeyword_append fun k hk => ?_, ih]
    simpa using List.all_eq_true.1 (List.all_eq_true.1 hnone m hm) k hk

namespace IsAnnotatedModifiers

variable {ms w x : List Char}

/-- Without annotations the modifiers stand before what is left of the rest. -/
theorem strip_blanks (h : IsAnnotatedModifiers ms) (hw : ∀ c ∈ w, Unicode.isBlank c = true)
    (hx : ∀ c ∈ x.head?, Unicode.isBlank c = false ∧ c ≠ '(') : ∃ v, IsModifiers v ∧
      stripAnnotations (w ++ (ms ++ x)) = w ++ (v ++ stripAnnotations x) ∧
        stripAnnotations (w ++ x) = w ++ stripAnnotations x := by
  obtain ⟨v, hv, hstrip⟩ := h.strip hx
  exact ⟨v, hv, by rw [stripAnnotations_blanks hw, hstrip], stripAnnotations_blanks hw x⟩

theorem hasInitializer_eq (h : IsAnnotatedModifiers ms) (hw : ∀ c ∈ w, Unicode.isBlank c = true)
    (hx : ∀ c ∈ x.head?, Unicode.isBlank c = false ∧ c ≠ '(') :
    hasInitializer (w ++ (ms ++ x)) = hasInitializer (w ++ x) := by
  obtain ⟨v, hv, hmarked, hplain⟩ := h.strip_blanks hw hx
  have hnot : '=' ∉ v := fun hc => (hv.mem hc).elim (fun hb => absurd hb (by decide))
    fun hm => absurd hm (by decide)
  rw [hasInitializer, hasInitializer, hmarked, hplain]
  simp [hnot]

theorem typeKeyword?_eq (h : IsAnnotatedModifiers ms) (hw : ∀ c ∈ w, Unicode.isBlank c = true)
    (hx : ∀ c ∈ x.head?, Unicode.isBlank c = false ∧ c ≠ '(') :
    typeKeyword? (w ++ (ms ++ x)) = typeKeyword? (w ++ x) := by
  obtain ⟨v, hv, hmarked, hplain⟩ := h.strip_blanks hw hx
  have hnot : '(' ∉ v := fun hc => (hv.mem hc).elim (fun hb => absurd hb (by decide))
    fun hm => absurd hm (by decide)
  have hnotw : '(' ∉ w := fun hc => absurd (hw _ hc) (by decide)
  rw [typeKeyword?, typeKeyword?, hmarked, hplain, before_append_of_not_mem hnotw,
    before_append_of_not_mem hnotw, before_append_of_not_mem hnot, words_blanks hw, words_blanks hw,
    hv.firstKeyword_words]

/-- Before a declaration modifiers and annotations do not matter to braces. -/
theorem readAlike (h : IsAnnotatedModifiers ms) (hp : openParens ms = 0)
    (hw : ∀ c ∈ w, Unicode.isBlank c = true)
    (hx : ∃ c ∈ x.head?, Unicode.isBlank c = false ∧ c ≠ '(') :
    ReadAlike (w ++ x) (w ++ (ms ++ x)) := by
  obtain ⟨c, hc, hhead⟩ := hx
  have hx' : ∀ rest, ∀ d ∈ (x ++ rest).head?, Unicode.isBlank d = false ∧ d ≠ '(' := by
    intro rest d hd
    rw [List.head?_append, hc] at hd
    exact Option.some.inj hd ▸ hhead
  refine ⟨?_, fun rest => ?_, fun rest => ?_⟩
  · rw [openParens_append, openParens_append, openParens_append, hp, Int.zero_add]
  · simpa using (h.hasInitializer_eq hw (hx' rest)).symm
  · simpa using (h.typeKeyword?_eq hw (hx' rest)).symm

/-- Before a statement that declares fields, modifiers and annotations do not matter. -/
theorem fieldsOfStatement_eq (h : IsAnnotatedModifiers ms)
    (hw : ∀ c ∈ w, Unicode.isBlank c = true)
    (hx : ∀ c ∈ x.head?, Unicode.isBlank c = false ∧ c ≠ '(')
    (hfields : fieldsOfStatement (w ++ x) ≠ []) :
    fieldsOfStatement (w ++ (ms ++ x)) = fieldsOfStatement (w ++ x) := by
  obtain ⟨v, hv, hmarked, hplain⟩ := h.strip_blanks hw hx
  rw [Java.fieldsOfStatement_eq, hplain, fieldsOfStripped_blanks hw] at hfields
  rw [Java.fieldsOfStatement_eq, Java.fieldsOfStatement_eq, hmarked, hplain,
    fieldsOfStripped_blanks hw, fieldsOfStripped_blanks hw, hv.fieldsOfStripped hfields]

end IsAnnotatedModifiers

/-! ## Reading on -/

/-- The fields that the statement declares which is being read: those of its text up to the next
semicolon outside initial values, and none if a brace ends it before. -/
def Scanner.declaredNext (s : Scanner) : List Char → List FieldDecl
  | [] => []
  | c :: cs =>
    if c = ';' ∧ s.inStatement then fieldsOfStatement s.statement.reverse
    else
      match s.step c with
      | .error _ => []
      | .ok s' => if s'.statement = [] then [] else s'.declaredNext cs

theorem Scanner.declaredNext_eq (s : Scanner) (cs : List Char) :
    s.declaredNext cs = (s.statementNext? cs).elim [] fieldsOfStatement := by
  induction cs generalizing s with
  | nil => rfl
  | cons c cs ih =>
    rw [declaredNext, statementNext?]
    split
    · rfl
    · cases s.step c with
      | error e => rfl
      | ok s' =>
        dsimp only
        split
        · rfl
        · exact ih s'

/-! ## Sources -/

/-- A field declaration of a class body starts where `rest` follows `pre`, which are cleaned to
`cpre` and `crest`: a word or an annotation starts a statement of the body, and it declares fields. -/
structure FieldStarts (pre rest cpre crest : List Char) (s : Scanner) : Prop where
  before : Cleans pre cpre
  after : clean rest = .ok crest
  scan : cpre.foldlM Scanner.step {} = .ok s
  member : s.scopes.head? = some (.type false)
  blank : ∀ c ∈ s.statement, Unicode.isBlank c = true
  first : ∃ c ∈ rest.head?, isIdentChar c = true ∨ c = '@'
  declares : s.declaredNext crest ≠ []

/-- The character can start a declaration. -/
theorem isCollected_of_first {c : Char} (h : isIdentChar c = true ∨ c = '@') :
    isCollected c = true ∧ c ≠ '\n' ∧ Unicode.isBlank c = false := by
  rcases h with h | rfl
  · have hann : isAnnotationChar c = true := by rw [isAnnotationChar, h, Bool.true_or]
    obtain ⟨hc, hn⟩ := isCollected_of_isAnnotationChar hann
    exact ⟨hc, hn, isBlank_of_isIdentChar h⟩
  · decide

theorem head?_clean {cs out : List Char} {c : Char} (hc : c ∈ cs.head?) (hp : isPlain c = true)
    (h : clean cs = .ok out) : c ∈ out.head? := by
  cases cs with
  | nil => cases hc
  | cons d cs =>
    obtain rfl : d = c := Option.some.inj hc
    obtain ⟨hmode, hout⟩ := cleans_char hp {} rfl
    rw [List.foldl_cons, List.foldl_nil] at hmode hout
    rw [clean, List.foldl_cons] at h
    rcases Cleaner.finish_alike rfl cs (s := ({} : Cleaner).step d) (t := ({} : Cleaner).step d) with
      ⟨x, hx, -⟩ | ⟨part, m, n, herr, -⟩
    · rw [hx] at h
      obtain rfl := Except.ok.inj h
      rw [hout]
      rfl
    · rw [herr] at h
      cases h

/-- After the first character of the declaration the scanners read the same statement. -/
theorem FieldStarts.sameStatement {pre rest cpre crest ms : List Char} {s t : Scanner}
    (h : FieldStarts pre rest cpre crest s) (hscopes : t.scopes = s.scopes)
    (hfields : t.fields = s.fields) (hstmt : t.statement = ms.reverse ++ s.statement) :
    ∃ c cs, crest = c :: cs ∧ (Unicode.isBlank c = false ∧ c ≠ '(') ∧
      s.step c = .ok (s.push c) ∧ t.step c = .ok (t.push c) ∧
        SameStatement s.scopes (s.statement.reverse ++ [c]) (s.statement.reverse ++ (ms ++ [c]))
          (s.push c) (t.push c) ∧ (s.push c).declaredNext cs ≠ [] := by
  obtain ⟨c, hc, hfirst⟩ := h.first
  obtain ⟨hcollected, hn, hblank⟩ := isCollected_of_first hfirst
  simp only [isCollected, Bool.and_eq_true, bne_iff_ne] at hcollected
  obtain ⟨⟨⟨hplain, hinner⟩, hopen⟩, -⟩ := hcollected
  have hhead := head?_clean hc hplain h.after
  have hdecl := h.declares
  cases crest with
  | nil => cases hhead
  | cons d cs =>
    obtain rfl : d = c := Option.some.inj hhead
    obtain ⟨types, hs⟩ : ∃ types, s.scopes = .type false :: types := List.head?_eq_some_iff.1 h.member
    have hin : s.inStatement = true := by rw [Scanner.inStatement, hs]
    have hin' : t.inStatement = true := by rw [Scanner.inStatement, hscopes, hs]
    have htypes : AllTypes s.scopes := ((Lockstep.of_foldlM h.scan).braceAlike hin).1
    have hstep : s.step d = .ok (s.push d) := by
      rw [Scanner.step_inner hn hinner, if_pos hin]
    have hstep' : t.step d = .ok (t.push d) := by
      rw [Scanner.step_inner hn hinner, if_pos hin']
    have hsemi : ¬(d = ';' ∧ s.inStatement = true) := by
      rintro ⟨rfl, -⟩
      exact absurd hinner (by decide)
    refine ⟨d, cs, rfl, ⟨hblank, hopen⟩, hstep, hstep',
      ⟨hscopes, hfields, htypes, .inl rfl, [], ?_, ?_⟩, ?_⟩
    · simp [Scanner.push]
    · simp [Scanner.push, hstmt]
    · rw [Scanner.declaredNext, if_neg hsemi, hstep] at hdecl
      simpa [Scanner.push] using hdecl

end EntityForge.Java
