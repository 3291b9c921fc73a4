import EntityForge.Proofs.Java.Acceptance
import EntityForge.Proofs.Java.DeclaratorGaps

/-!
# Two sources read in lockstep

`Lockstep s t`: no text that follows tells the two scanners apart, but for the lines of errors. Their
statements may differ. How much is said by `Agree`, with one constructor for each kind of scope: a
statement of a type body must be read alike (`Alike`), one that waits for the end of an initial
value may differ in blanks before it, and one that a block will end may be anything. Every
character keeps two scanners in lockstep (`Lockstep.step`), and so they give the same fields or the
same kind of error (`Lockstep.fields_eq`).
-/

namespace EntityForge.Java

/-! ## Errors without lines -/

/-- The error without its line. -/
def SourceError.withoutLine : SourceError → SourceError
  | unterminated part _ => unterminated part 0
  | unbalancedBraces _ => unbalancedBraces 0

/-- What succeeds without regard to lines does so with the same result. -/
theorem eq_ok_of_withoutLine_eq {α : Type} {x y : Except SourceError α} {a : α}
    (h : x.mapError SourceError.withoutLine = y.mapError SourceError.withoutLine)
    (hx : x = .ok a) : y = .ok a := by
  subst hx
  cases y with
  | ok b => exact congrArg Except.ok (Except.ok.inj h).symm
  | error e => cases h

/-! ## Statements that are read alike -/

/-- Whatever follows the statements, braces after them are read alike. -/
structure ReadAlike (u v : List Char) : Prop where
  parens : openParens u = openParens v
  initializer : ∀ rest, hasInitializer (u ++ rest) = hasInitializer (v ++ rest)
  keyword : ∀ rest, typeKeyword? (u ++ rest) = typeKeyword? (v ++ rest)

/-- Whatever follows the statements, they declare the same fields. -/
def DeclareAlike (u v : List Char) : Prop :=
  ∀ rest, fieldsOfStatement (u ++ rest) = fieldsOfStatement (v ++ rest)

/-- The statements are read alike in the innermost scope; the members of a class alone declare
fields. -/
structure Alike (scopes : List Scope) (u v : List Char) : Prop where
  read : ReadAlike u v
  declare : scopes.head? = some (.type false) → DeclareAlike u v

theorem ReadAlike.refl (u : List Char) : ReadAlike u u :=
  ⟨rfl, fun _ => rfl, fun _ => rfl⟩

namespace Alike

variable {scopes : List Scope} {u v x : List Char}

theorem refl (scopes : List Scope) (u : List Char) : Alike scopes u u :=
  ⟨.refl u, fun _ _ => rfl⟩

theorem trans (h : Alike scopes u v) (h' : Alike scopes v x) : Alike scopes u x where
  read := {
    parens := h.read.parens.trans h'.read.parens
    initializer rest := (h.read.initializer rest).trans (h'.read.initializer rest)
    keyword rest := (h.read.keyword rest).trans (h'.read.keyword rest) }
  declare hs rest := (h.declare hs rest).trans (h'.declare hs rest)

theorem append (h : Alike scopes u v) (x : List Char) : Alike scopes (u ++ x) (v ++ x) where
  read := {
    parens := by rw [openParens_append, openParens_append, h.read.parens]
    initializer rest := by
      rw [List.append_assoc, List.append_assoc]
      exact h.read.initializer _
    keyword rest := by
      rw [List.append_assoc, List.append_assoc]
      exact h.read.keyword _ }
  declare hs rest := by
    rw [List.append_assoc, List.append_assoc]
    exact h.declare hs _

end Alike

theorem openParens_blanks {w : List Char} (hw : ∀ c ∈ w, Unicode.isBlank c = true) :
    openParens w = 0 :=
  openParens_of_not_mem (fun hc => absurd (hw _ hc) (by decide))
    (fun hc => absurd (hw _ hc) (by decide))

namespace RespacesIn

variable {x r w v : List Char}

/-- What comes after a part that is there does not matter to the gap before it. -/
theorem append (h : RespacesIn x r w v) (hr : r ≠ []) (rest : List Char) :
    RespacesIn x (r ++ rest) w v := by
  have hhead : ∀ u : List Char, (u ++ (r ++ rest)).head? = (u ++ r).head? := by
    intro u
    rw [← List.append_assoc, List.head?_append_of_ne_nil]
    simp [hr]
  have hblanks : Respaces (stripAnnotations x) (r ++ rest) w v := by
    refine ⟨h.blanks.left, h.blanks.right, h.blanks.apart.imp_right fun hapart => ?_⟩
    rwa [List.head?_append_of_ne_nil _ hr]
  refine ⟨hblanks, fun hx => ?_, fun hx => ?_⟩
  · rw [hhead w]
    exact h.left hx
  · rw [hhead v]
    exact h.right hx

theorem readAlike (h : RespacesIn x r w v) (hr : r ≠ []) :
    ReadAlike (x ++ (w ++ r)) (x ++ (v ++ r)) where
  parens := by
    simp only [openParens_append, openParens_blanks h.blanks.left, openParens_blanks h.blanks.right]
  initializer rest := by
    simpa using (h.append hr rest).hasInitializer_eq
  keyword rest := by
    simpa using (h.append hr rest).typeKeyword?_eq

/-- In an initial value a gap does not matter. -/
theorem alike_of_hasInitializer (h : RespacesIn x r w v) (hr : r ≠ [])
    (hinit : hasInitializer x = true) (scopes : List Scope) :
    Alike scopes (x ++ (w ++ r)) (x ++ (v ++ r)) := by
  refine ⟨h.readAlike hr, fun _ rest => ?_⟩
  have heq : '=' ∈ stripAnnotations x := by simpa [hasInitializer] using hinit
  have h' := h.append hr rest
  simp only [List.append_assoc, fieldsOfStatement_eq]
  rcases h'.strip with hsame | ⟨hw, hv⟩
  · rw [hsame]
  · rw [hw, hv, h'.stripped.fieldsOfStripped_value heq]

end RespacesIn

/-- The braces of an initial value, with blanks before them. -/
theorem alike_emptyBraces {x a b : List Char} (hinit : hasInitializer x = true)
    (ha : ∀ c ∈ a, Unicode.isBlank c = true) (hb : ∀ c ∈ b, Unicode.isBlank c = true)
    (scopes : List Scope) :
    Alike scopes (x ++ (a ++ ['\x7b', '\x7d'])) (x ++ (b ++ ['\x7b', '\x7d'])) := by
  have hfollows : ∀ {u : List Char}, (∀ c ∈ u, Unicode.isBlank c = true) →
      Follows x (u ++ ['\x7b', '\x7d']) := by
    intro u hu _ c hc
    cases u with
    | nil =>
      obtain rfl : '\x7b' = c := Option.some.inj hc
      decide +kernel
    | cons d u =>
      obtain rfl : d = c := Option.some.inj hc
      exact isAnnotationChar_of_isBlank (hu d (.head _))
  refine RespacesIn.alike_of_hasInitializer ⟨⟨ha, hb, .inr fun c _ d hd _ => ?_⟩, hfollows ha,
    hfollows hb⟩ (List.cons_ne_nil _ _) hinit scopes
  obtain rfl : '\x7b' = d := Option.some.inj hd
  decide +kernel

/-! ## Scanners in lockstep -/

/-- The statements agree in the scopes: what follows cannot tell them apart. -/
inductive Agree : List Scope → List Char → List Char → Prop
  /-- In a statement of a type body or at the top. -/
  | statement {scopes : List Scope} {u v : List Char} (ht : AllTypes scopes)
      (h : Alike scopes u v) : Agree scopes u v
  /-- In an initial value, with blanks of its lines after the statements. -/
  | value {c : Bool} {scopes : List Scope} {u v a b : List Char} (ht : AllTypes (.type c :: scopes))
      (h : Alike (.type c :: scopes) u v) (hinit : hasInitializer u = true)
      (ha : ∀ c ∈ a, Unicode.isBlank c = true) (hb : ∀ c ∈ b, Unicode.isBlank c = true) :
      Agree (.initializer :: .type c :: scopes) (u ++ a) (v ++ b)
  /-- In a block of a type body or at the top; new statements start after it. -/
  | block {scopes : List Scope} {u v : List Char} (ht : AllTypes scopes) :
      Agree (.block :: scopes) u v
  /-- In a block within another block or an initial value. -/
  | inner {scope : Scope} {scopes : List Scope} {u v : List Char}
      (hs : ∀ constants, scope ≠ .type constants) (h : Agree (scope :: scopes) u v) :
      Agree (.block :: scope :: scopes) u v

namespace Agree

variable {scopes : List Scope} {scope : Scope} {u v : List Char}

/-- In a type body statements are read alike. -/
theorem of_type {constants : Bool} (h : Agree (.type constants :: scopes) u v) :
    AllTypes (.type constants :: scopes) ∧ Alike (.type constants :: scopes) u v := by
  cases h with
  | statement ht h => exact ⟨ht, h⟩

theorem of_top (h : Agree [] u v) : Alike [] u v := by
  cases h with
  | statement _ h => exact h

/-- In a block or an initial value any blanks may be added to the statements. -/
theorem blanks (h : Agree (scope :: scopes) u v) (hs : ∀ constants, scope ≠ .type constants)
    {a b : List Char} (ha : ∀ c ∈ a, Unicode.isBlank c = true)
    (hb : ∀ c ∈ b, Unicode.isBlank c = true) : Agree (scope :: scopes) (u ++ a) (v ++ b) := by
  generalize hscopes : scope :: scopes = all at h
  induction h generalizing scope scopes with
  | statement ht _ =>
    obtain ⟨constants, rfl⟩ := ht scope (hscopes ▸ .head _)
    exact absurd rfl (hs constants)
  | value ht h hinit ha' hb' =>
    rw [List.append_assoc, List.append_assoc]
    refine .value ht h hinit (fun c hc => ?_) (fun c hc => ?_)
    · exact (List.mem_append.1 hc).elim (ha' c) (ha c)
    · exact (List.mem_append.1 hc).elim (hb' c) (hb c)
  | block ht => exact .block ht
  | inner hne _ ih => exact .inner hne (ih hne rfl)

end Agree

/-- No text that follows tells the scanners apart, but for lines. -/
structure Lockstep (s t : Scanner) : Prop where
  scopes : t.scopes = s.scopes
  fields : t.fields = s.fields
  agree : Agree s.scopes s.statement.reverse t.statement.reverse

namespace Lockstep

variable {s t : Scanner}

theorem inStatement_eq (h : Lockstep s t) : t.inStatement = s.inStatement := by
  rw [Scanner.inStatement, h.scopes]
  rfl

/-- The scanner is in a statement, or in a block or an initial value. -/
theorem statement_or_block (h : Lockstep s t) :
    (s.inStatement = true ∧ AllTypes s.scopes ∧
      Alike s.scopes s.statement.reverse t.statement.reverse) ∨
    (s.inStatement = false ∧ ∃ scope scopes, s.scopes = scope :: scopes ∧
      ∀ constants, scope ≠ .type constants) := by
  have hagree := h.agree
  cases hs : s.scopes with
  | nil =>
    rw [hs] at hagree
    exact .inl ⟨by rw [Scanner.inStatement, hs], .nil, hagree.of_top⟩
  | cons scope scopes =>
    rw [hs] at hagree
    cases scope with
    | type constants =>
      obtain ⟨ht, halike⟩ := hagree.of_type
      exact .inl ⟨by rw [Scanner.inStatement, hs], ht, halike⟩
    | initializer =>
      exact .inr ⟨by rw [Scanner.inStatement, hs], _, _, rfl, by simp⟩
    | block => exact .inr ⟨by rw [Scanner.inStatement, hs], _, _, rfl, by simp⟩

/-- Statements are empty in both. -/
theorem of_cleared {scopes : List Scope} (ht : AllTypes scopes) {fields : List FieldDecl}
    {m n : Nat} : Lockstep ⟨fields, scopes, [], m⟩ ⟨fields, scopes, [], n⟩ :=
  ⟨rfl, rfl, .statement ht (.refl _ _)⟩

end Lockstep

/-! ## Braces after a statement -/

/-- A brace cannot tell the statements apart that are being read. -/
structure BraceAlike (s t : Scanner) : Prop where
  scopes : t.scopes = s.scopes
  fields : t.fields = s.fields
  parens : openParens s.statement.reverse = openParens t.statement.reverse
  initializer : hasInitializer s.statement.reverse = hasInitializer t.statement.reverse
  keyword : typeKeyword? s.statement.reverse = typeKeyword? t.statement.reverse

namespace BraceAlike

variable {s t : Scanner}

/-- An opening brace starts an initial value after both statements, or it drops both. -/
theorem openBrace (h : BraceAlike s t) (htypes : AllTypes s.scopes) :
    (s.inType = true ∧ hasInitializer s.statement.reverse = true ∧
      s.openBrace = { s with scopes := .initializer :: s.scopes } ∧
        t.openBrace = { t with scopes := .initializer :: t.scopes }) ∨
      Lockstep s.openBrace t.openBrace := by
  have hin : s.inStatement = true := htypes.inStatement
  have hin' : t.inStatement = true := AllTypes.inStatement (h.scopes ▸ htypes)
  have htype : t.inType = s.inType := by
    rw [Scanner.inType, h.scopes]
    rfl
  rw [Scanner.openBrace, Scanner.openBrace, if_pos hin, if_pos hin', htype, ← h.initializer,
    ← h.keyword]
  split
  · rename_i hcond
    rw [Bool.and_eq_true] at hcond
    exact .inl ⟨hcond.1, hcond.2, rfl, rfl⟩
  · refine .inr ?_
    cases typeKeyword? s.statement.reverse with
    | some k =>
      exact ⟨congrArg (List.cons _) h.scopes, h.fields, .statement (htypes.cons _) (.refl _ _)⟩
    | none => exact ⟨congrArg (List.cons _) h.scopes, h.fields, .block htypes⟩

/-- A closing brace drops both statements, or closes nothing in both. -/
theorem closeBrace (h : BraceAlike s t) (htypes : AllTypes s.scopes) :
    (∃ s' t', s.closeBrace = .ok s' ∧ t.closeBrace = .ok t' ∧ Lockstep s' t') ∨
      ∃ m n, s.closeBrace = .error (.unbalancedBraces m) ∧
        t.closeBrace = .error (.unbalancedBraces n) := by
  obtain ⟨_, _, stmt, m⟩ := s
  obtain ⟨fields, scopes, stmt', n⟩ := t
  obtain ⟨rfl, rfl, -, -, -⟩ := h
  cases scopes with
  | nil => exact .inr ⟨m, n, rfl, rfl⟩
  | cons scope rest =>
    obtain ⟨constants, rfl⟩ := htypes scope (.head _)
    have hin : ∀ stmt m, (⟨fields, rest, stmt, m⟩ : Scanner).inStatement = true :=
      fun _ _ => AllTypes.inStatement htypes.tail
    refine .inl ⟨⟨fields, rest, [], m⟩, ⟨fields, rest, [], n⟩, ?_, ?_, .of_cleared htypes.tail⟩
    · simp [Scanner.closeBrace, hin]
    · simp [Scanner.closeBrace, hin]

/-- A semicolon ends both statements. -/
theorem endStatement (h : BraceAlike s t) (htypes : AllTypes s.scopes)
    (hdecl : s.scopes.head? = some (.type false) →
      fieldsOfStatement s.statement.reverse = fieldsOfStatement t.statement.reverse) :
    Lockstep s.endStatement t.endStatement := by
  obtain ⟨_, _, stmt, m⟩ := s
  obtain ⟨fields, scopes, stmt', n⟩ := t
  obtain ⟨rfl, rfl, -, -, -⟩ := h
  cases scopes with
  | nil => exact .of_cleared htypes
  | cons scope rest =>
    obtain ⟨constants, rfl⟩ := htypes scope (.head _)
    cases constants with
    | true => exact .of_cleared (htypes.tail.cons false)
    | false =>
      simp only [Scanner.endStatement, hdecl rfl]
      exact .of_cleared htypes

/-- In a statement a character but a semicolon is added to both, starts the initial value of both,
drops both, or closes nothing in both. -/
theorem step (h : BraceAlike s t) (htypes : AllTypes s.scopes) {c : Char} (hc : c ≠ ';') :
    (∃ m n, s.step c = .ok ({ s with line := m }.push (if c = '\n' then ' ' else c)) ∧
      t.step c = .ok ({ t with line := n }.push (if c = '\n' then ' ' else c))) ∨
    (s.inType = true ∧ hasInitializer s.statement.reverse = true ∧
      s.step c = .ok { s with scopes := .initializer :: s.scopes } ∧
        t.step c = .ok { t with scopes := .initializer :: t.scopes }) ∨
    (∃ s' t', s.step c = .ok s' ∧ t.step c = .ok t' ∧ Lockstep s' t') ∨
      ∃ m n, s.step c = .error (.unbalancedBraces m) ∧
        t.step c = .error (.unbalancedBraces n) := by
  have hin : s.inStatement = true := htypes.inStatement
  have hin' : t.inStatement = true := AllTypes.inStatement (h.scopes ▸ htypes)
  by_cases hn : c = '\n'
  · subst hn
    exact .inl ⟨_, _, Scanner.step_newline s, Scanner.step_newline t⟩
  rw [if_neg hn]
  by_cases hb : c = '\x7b' ∨ c = '\x7d'
  · by_cases hheld : 0 < openParens s.statement.reverse
    · exact .inl ⟨s.line, t.line, Scanner.step_heldBrace hb hin hheld,
        Scanner.step_heldBrace hb hin' (h.parens ▸ hheld)⟩
    · have hopen : s.inStatement = true → openParens s.statement.reverse ≤ 0 := fun _ => by omega
      have hopen' : t.inStatement = true → openParens t.statement.reverse ≤ 0 := fun _ => by
        rw [← h.parens]
        omega
      rcases hb with rfl | rfl
      · rw [Scanner.step_openBrace hopen, Scanner.step_openBrace hopen']
        rcases h.openBrace htypes with ⟨htype, hinit, hs, ht⟩ | hlock
        · exact .inr (.inl ⟨htype, hinit, by rw [hs], by rw [ht]⟩)
        · exact .inr (.inr (.inl ⟨_, _, rfl, rfl, hlock⟩))
      · rw [Scanner.step_closeBrace hopen, Scanner.step_closeBrace hopen']
        exact .inr (.inr (h.closeBrace htypes))
  · rw [not_or] at hb
    have hinner : isInner c = true := by simp [isInner, hb.1, hb.2, hc]
    refine .inl ⟨s.line, t.line, ?_, ?_⟩
    · rw [Scanner.step_inner hn hinner, if_pos hin]
    · rw [Scanner.step_inner hn hinner, if_pos hin']

end BraceAlike

/-! ## One character -/

namespace Lockstep

variable {s t : Scanner}

theorem push (h : Lockstep s t) (hin : s.inStatement = true) (c : Char) (m n : Nat) :
    Lockstep ({ s with line := m }.push c) ({ t with line := n }.push c) := by
  rcases h.statement_or_block with ⟨-, ht, halike⟩ | ⟨hout, -⟩
  · refine ⟨h.scopes, h.fields, ?_⟩
    simp only [Scanner.push, List.reverse_cons]
    exact .statement ht (halike.append [c])
  · rw [hin] at hout
    cases hout

/-- In a statement, no brace can tell the scanners apart. -/
theorem braceAlike (h : Lockstep s t) (hin : s.inStatement = true) :
    AllTypes s.scopes ∧ BraceAlike s t := by
  rcases h.statement_or_block with ⟨-, ht, halike⟩ | ⟨hout, -⟩
  · exact ⟨ht, h.scopes, h.fields, halike.read.parens, by simpa using halike.read.initializer [],
      by simpa using halike.read.keyword []⟩
  · rw [hin] at hout
    cases hout

theorem endStatement (h : Lockstep s t) : Lockstep s.endStatement t.endStatement := by
  rcases h.statement_or_block with ⟨hin, htypes, halike⟩ | ⟨hout, -⟩
  · refine (h.braceAlike hin).2.endStatement htypes fun hmember => ?_
    simpa using halike.declare hmember []
  · rw [Scanner.endStatement_of_inStatement hout,
      Scanner.endStatement_of_inStatement (h.inStatement_eq ▸ hout)]
    exact h

/-- The initial value of the statements starts. -/
theorem openInitializer (h : Lockstep s t) (htype : s.inType = true)
    (hinit : hasInitializer s.statement.reverse = true) :
    Lockstep { s with scopes := .initializer :: s.scopes }
      { t with scopes := .initializer :: t.scopes } := by
  have hagree := h.agree
  obtain ⟨constants, scopes, hs⟩ : ∃ constants scopes, s.scopes = .type constants :: scopes := by
    unfold Scanner.inType at htype
    split at htype
    · exact ⟨_, _, ‹_›⟩
    · cases htype
  rw [hs] at hagree
  obtain ⟨ht, halike⟩ := hagree.of_type
  have hvalue : Agree (.initializer :: .type constants :: scopes) (s.statement.reverse ++ [])
      (t.statement.reverse ++ []) := .value ht halike hinit (by simp) (by simp)
  refine ⟨congrArg (List.cons _) h.scopes, h.fields, ?_⟩
  simpa [hs] using hvalue

/-- A closing brace of a block or of an initial value. -/
theorem closeBrace (h : Lockstep s t) (hout : s.inStatement = false) :
    ∃ s' t', s.closeBrace = .ok s' ∧ t.closeBrace = .ok t' ∧ Lockstep s' t' := by
  obtain ⟨_, _, stmt, m⟩ := s
  obtain ⟨fields, scopes, stmt', n⟩ := t
  obtain ⟨rfl, rfl, hagree⟩ := h
  dsimp only at hagree
  generalize hu : stmt.reverse = u at hagree
  generalize hv : stmt'.reverse = v at hagree
  cases hagree with
  | statement ht _ =>
    have hin : (⟨fields, scopes, stmt, m⟩ : Scanner).inStatement = true := AllTypes.inStatement ht
    rw [hin] at hout
    cases hout
  | @value c rest u v a b ht halike hinit ha hb =>
    refine ⟨_, _, rfl, rfl, rfl, rfl, .statement ht ?_⟩
    have hbraces := (alike_emptyBraces hinit ha hb (.type c :: rest)).trans
      (halike.append (b ++ ['\x7b', '\x7d']))
    simpa [hu, hv] using hbraces
  | @block rest _ _ ht =>
    have hin : ∀ stmt m, (⟨fields, rest, stmt, m⟩ : Scanner).inStatement = true :=
      fun _ _ => AllTypes.inStatement ht
    exact ⟨⟨fields, rest, [], m⟩, ⟨fields, rest, [], n⟩, by simp [Scanner.closeBrace, hin],
      by simp [Scanner.closeBrace, hin], of_cleared ht⟩
  | @inner scope rest _ _ hne h =>
    have hin : ∀ stmt m, (⟨fields, scope :: rest, stmt, m⟩ : Scanner).inStatement = false :=
      fun _ _ => Scanner.inStatement_of_ne_type rfl hne
    exact ⟨_, _, Scanner.closeBrace_block rfl (hin stmt m),
      Scanner.closeBrace_block rfl (hin stmt' n), rfl, rfl, by rwa [hu, hv]⟩

/-- A character of a block or of an initial value. -/
theorem step_block (h : Lockstep s t) (hout : s.inStatement = false) (c : Char) :
    ∃ s' t', s.step c = .ok s' ∧ t.step c = .ok t' ∧ Lockstep s' t' := by
  have hout' : t.inStatement = false := h.inStatement_eq ▸ hout
  rcases h.statement_or_block with ⟨hin, -⟩ | ⟨-, scope, scopes, hs, hne⟩
  · rw [hin] at hout
    cases hout
  have hagree := h.agree
  by_cases hopen : c = '\x7b'
  · subst hopen
    refine ⟨_, _, Scanner.step_openBrace (by simp [hout]), Scanner.step_openBrace (by simp [hout']),
      ?_⟩
    rw [Scanner.openBrace, Scanner.openBrace, hout, hout']
    refine ⟨congrArg (List.cons _) h.scopes, h.fields, ?_⟩
    simp only [Bool.false_eq_true, if_false, hs] at hagree ⊢
    exact .inner hne hagree
  by_cases hclose : c = '\x7d'
  · subst hclose
    rw [Scanner.step_closeBrace (by simp [hout]), Scanner.step_closeBrace (by simp [hout'])]
    exact h.closeBrace hout
  · refine ⟨_, _, Scanner.step_block hout ⟨hopen, hclose⟩, Scanner.step_block hout' ⟨hopen, hclose⟩,
      ?_⟩
    split
    · refine ⟨h.scopes, h.fields, ?_⟩
      simp only [Scanner.push, List.reverse_cons, hs] at hagree ⊢
      exact hagree.blanks hne isBlank_of_mem_space isBlank_of_mem_space
    · exact h

/-- Every character keeps two scanners in lockstep, or is one closing brace too many for both. -/
theorem step (h : Lockstep s t) (c : Char) :
    (∃ s' t', s.step c = .ok s' ∧ t.step c = .ok t' ∧ Lockstep s' t') ∨
      ∃ m n, s.step c = .error (.unbalancedBraces m) ∧
        t.step c = .error (.unbalancedBraces n) := by
  by_cases hsemi : c = ';'
  · subst hsemi
    exact .inl ⟨_, _, Scanner.step_semicolon s, Scanner.step_semicolon t, h.endStatement⟩
  cases hin : s.inStatement with
  | false => exact .inl (h.step_block hin c)
  | true =>
    obtain ⟨htypes, hbraces⟩ := h.braceAlike hin
    rcases hbraces.step htypes hsemi with ⟨m, n, hs, ht⟩ | ⟨htype, hinit, hs, ht⟩ |
      ⟨s', t', hs, ht, h'⟩ | herror
    · exact .inl ⟨_, _, hs, ht, h.push hin _ m n⟩
    · exact .inl ⟨_, _, hs, ht, h.openInitializer htype hinit⟩
    · exact .inl ⟨s', t', hs, ht, h'⟩
    · exact .inr herror

/-! ### Whole texts -/

theorem run (h : Lockstep s t) (cs : List Char) :
    (∃ s' t', cs.foldlM Scanner.step s = .ok s' ∧ cs.foldlM Scanner.step t = .ok t' ∧
      Lockstep s' t') ∨
      ∃ m n, cs.foldlM Scanner.step s = .error (.unbalancedBraces m) ∧
        cs.foldlM Scanner.step t = .error (.unbalancedBraces n) := by
  induction cs generalizing s t with
  | nil => exact .inl ⟨s, t, rfl, rfl, h⟩
  | cons c cs ih =>
    rw [List.foldlM_cons, List.foldlM_cons]
    rcases h.step c with ⟨s', t', hs, ht, h'⟩ | ⟨m, n, hs, ht⟩
    · rw [hs, ht]
      exact ih h'
    · rw [hs, ht]
      exact .inr ⟨m, n, rfl, rfl⟩

/-- Two scanners in lockstep give the same fields, or the same kind of error. -/
theorem fields_eq (h : Lockstep s t) (cs : List Char) :
    (cs.foldlM Scanner.step s >>= Scanner.finish).mapError SourceError.withoutLine =
      (cs.foldlM Scanner.step t >>= Scanner.finish).mapError SourceError.withoutLine := by
  rcases h.run cs with ⟨s', t', hs, ht, h'⟩ | ⟨m, n, hs, ht⟩
  · rw [hs, ht]
    change s'.finish.mapError _ = t'.finish.mapError _
    rw [Scanner.finish, Scanner.finish, h'.scopes, h'.fields]
    split <;> rfl
  · rw [hs, ht]
    rfl

/-- Nothing tells a scanner that has read a text apart from itself. -/
theorem of_foldlM {cs : List Char} {s : Scanner} (hs : cs.foldlM Scanner.step {} = .ok s) :
    Lockstep s s := by
  have hempty : Lockstep {} {} := of_cleared .nil
  rcases hempty.run cs with ⟨s', t', hs', ht', h⟩ | ⟨m, n, hs', -⟩
  · rw [hs] at hs' ht'
    cases hs'
    cases ht'
    exact h
  · rw [hs] at hs'
    cases hs'

end Lockstep

end EntityForge.Java
