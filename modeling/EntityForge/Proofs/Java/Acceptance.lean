import EntityForge.Proofs.Java.HeldBraces

/-!
# Sources that are accepted

`Tracks scopes stmt due lost`: the open scopes and the statement are what the closing brackets `due`
stand for, but for `lost` braces whose statement a semicolon has ended. Every character of a nested
text keeps this (`Tracks.steps`), so the text is read to its end exactly if no brace is lost
(`Tracks.run`); none is where every semicolon stands outside parentheses
(`Tracks.allLostBraces_eq_zero`). Without parentheses no statement holds a brace, and the scopes are
the open braces (`run_of_not_mem`).

* `fieldsOfSource_nested`: when a source is accepted, with parentheses and without.
* `fieldsOfSource_lambda_argument`: nested braces that are not accepted.
-/

namespace EntityForge.Java

open Text

/-! ## Scopes and brackets that are due -/

/-- The scopes are bodies of types. -/
def AllTypes (scopes : List Scope) : Prop :=
  ∀ scope ∈ scopes, ∃ constants, scope = .type constants

namespace AllTypes

variable {scope : Scope} {scopes : List Scope}

theorem nil : AllTypes [] :=
  List.forall_mem_nil _

theorem cons (h : AllTypes scopes) (constants : Bool) : AllTypes (.type constants :: scopes) :=
  List.forall_mem_cons.2 ⟨⟨constants, rfl⟩, h⟩

theorem tail (h : AllTypes (scope :: scopes)) : AllTypes scopes :=
  (List.forall_mem_cons.1 h).2

end AllTypes

/-- The open scopes and the statement are what the brackets that are due stand for, but for `lost`
braces that no scope and no statement holds any more. -/
inductive Tracks : List Scope → List Char → List Char → Nat → Prop where
  /-- In a statement of a type body or at the top. -/
  | statement {scopes : List Scope} {stmt due : List Char} {lost : Nat} (ht : AllTypes scopes)
      (h : Frame stmt due (scopes.length + lost)) : Tracks scopes stmt due lost
  /-- In an initial value; the statement goes on after it. -/
  | initializer {scopes : List Scope} {stmt due parens : List Char} {lost : Nat}
      (ht : AllTypes scopes) (hp : ∀ c ∈ parens, c = ')')
      (h : Frame stmt due (scopes.length + lost)) :
      Tracks (.initializer :: scopes) stmt (parens ++ '\x7d' :: due) lost
  /-- In a block of a type body or at the top; a new statement starts after it. -/
  | block {scopes : List Scope} {stmt due parens : List Char} {lost : Nat}
      (ht : AllTypes scopes) (hp : ∀ c ∈ parens, c = ')')
      (h : Frame [] due (scopes.length + lost)) :
      Tracks (.block :: scopes) stmt (parens ++ '\x7d' :: due) lost
  /-- In a block within another block or an initial value. -/
  | inner {scope : Scope} {scopes : List Scope} {stmt due parens : List Char} {lost : Nat}
      (hs : ∀ constants, scope ≠ .type constants) (hp : ∀ c ∈ parens, c = ')')
      (h : Tracks (scope :: scopes) stmt due lost) :
      Tracks (.block :: scope :: scopes) stmt (parens ++ '\x7d' :: due) lost

/-- A newline becomes a blank of the statement. -/
theorem Tracks.blank {scopes : List Scope} {stmt due : List Char} {lost : Nat}
    (h : Tracks scopes stmt due lost) : Tracks scopes (' ' :: stmt) due lost := by
  induction h with
  | statement ht h => exact .statement ht (h.other (by decide) (by decide))
  | initializer ht hp h => exact .initializer ht hp (h.other (by decide) (by decide))
  | block ht hp h => exact .block ht hp h
  | inner hs hp _ ih => exact .inner hs hp ih

/-! ## One character -/

/-- The braces that the statement holds open when the character ends it. -/
def Scanner.lostBraces (s : Scanner) (c : Char) : Nat :=
  if c = ';' ∧ s.inStatement then s.statement.count '\x7b' - s.statement.count '\x7d' else 0

/-- The character leads from one tracked state to another, or it closes a brace that is lost. -/
def Steps (s : Scanner) (c : Char) (due' : List Char) (lost : Nat) : Prop :=
  (∃ s', s.step c = .ok s' ∧ Tracks s'.scopes s'.statement due' (lost + s.lostBraces c)) ∨
    (0 < lost ∧ ∃ line, s.step c = .error (.unbalancedBraces line))

theorem AllTypes.inStatement {s : Scanner} (h : AllTypes s.scopes) : s.inStatement = true := by
  unfold Scanner.inStatement
  cases hs : s.scopes with
  | nil => rfl
  | cons scope scopes =>
    obtain ⟨constants, rfl⟩ := h scope (hs ▸ .head _)
    rfl

theorem Scanner.lostBraces_of_ne {s : Scanner} {c : Char} (h : c ≠ ';') : s.lostBraces c = 0 :=
  if_neg fun hc => h hc.1

/-- An opening brace of a statement opens a scope, or the statement holds it. -/
theorem steps_openBrace {s : Scanner} {due : List Char} {lost : Nat} (ht : AllTypes s.scopes)
    (h : Frame s.statement due (s.scopes.length + lost)) : ∃ s', s.step '\x7b' = .ok s' ∧
      Tracks s'.scopes s'.statement ('\x7d' :: due) lost := by
  have hin := ht.inStatement
  by_cases hp : 0 < openParens s.statement
  · exact ⟨_, Scanner.step_heldBrace (.inl rfl) hin ((openParens_reverse _).symm ▸ hp),
      .statement ht (h.openBrace hp)⟩
  · have hcount := h.count_of_openParens (by omega)
    refine ⟨_, Scanner.step_openBrace fun _ => by rw [openParens_reverse]; omega, ?_⟩
    rw [Scanner.openBrace, if_pos hin]
    split
    · exact @Tracks.initializer _ _ _ [] _ ht (by simp) h
    · split
      · refine .statement (ht.cons _) (.of_count ?_)
        simp
        omega
      · exact @Tracks.block _ _ _ [] _ ht (by simp) (.of_count hcount)

/-- A closing brace of a statement closes a scope, or the statement holds it; if no scope is open,
it is one of those that are lost. -/
theorem steps_closeBrace {s : Scanner} {due : List Char} {lost : Nat} (ht : AllTypes s.scopes)
    (h : Frame s.statement ('\x7d' :: due) (s.scopes.length + lost)) :
    (∃ s', s.step '\x7d' = .ok s' ∧ Tracks s'.scopes s'.statement due lost) ∨
      (0 < lost ∧ ∃ line, s.step '\x7d' = .error (.unbalancedBraces line)) := by
  have hin := ht.inStatement
  rcases h.closeBrace with ⟨hp, hclose⟩ | ⟨hp, hcount⟩
  · exact .inl ⟨_, Scanner.step_heldBrace (.inr rfl) hin ((openParens_reverse _).symm ▸ hp),
      .statement ht hclose⟩
  · rw [Scanner.step_closeBrace fun _ => by rw [openParens_reverse]; omega]
    cases hs : s.scopes with
    | nil =>
      rw [hs] at hcount
      exact .inr ⟨by simp at hcount; omega, s.line, Scanner.closeBrace_of_nil hs⟩
    | cons scope scopes =>
      rw [hs] at ht hcount
      obtain ⟨constants, rfl⟩ := ht scope (.head _)
      have hin' : ({ s with scopes := scopes } : Scanner).inStatement = true :=
        AllTypes.inStatement ht.tail
      refine .inl ⟨{ s with scopes := scopes, statement := [] }, ?_, ?_⟩
      · simp [Scanner.closeBrace, hs, hin']
      · simp only [List.length_cons] at hcount
        exact .statement ht.tail (.of_count (show due.count '\x7d' = scopes.length + lost by omega))

/-- At the end of a statement the braces that it holds are lost. -/
theorem tracks_endStatement {s : Scanner} {due : List Char} {lost : Nat} (ht : AllTypes s.scopes)
    (h : Frame s.statement due (s.scopes.length + lost)) :
    Tracks s.endStatement.scopes s.endStatement.statement due (lost + s.lostBraces ';') := by
  have hcount := h.count_eq
  have hlost : s.lostBraces ';' = s.statement.count '\x7b' - s.statement.count '\x7d' :=
    if_pos ⟨rfl, ht.inStatement⟩
  have hend : ∀ scopes, AllTypes scopes → scopes.length = s.scopes.length →
      Tracks scopes [] due (lost + s.lostBraces ';') :=
    fun scopes hts hlen => .statement hts (.of_count (by omega))
  unfold Scanner.endStatement
  cases hs : s.scopes with
  | nil => exact hend [] .nil (by rw [hs])
  | cons scope scopes =>
    rw [hs] at ht
    obtain ⟨constants, rfl⟩ := ht scope (.head _)
    cases constants with
    | true => exact hend (.type false :: scopes) (ht.tail.cons false) (by simp [hs])
    | false => exact hend (.type false :: scopes) ht (by simp [hs])

theorem steps_statement {s : Scanner} {c : Char} {due due' : List Char} {lost : Nat}
    (ht : AllTypes s.scopes) (h : Frame s.statement due (s.scopes.length + lost))
    (hd : nestStep scopeBrackets due c = some due') : Steps s c due' lost := by
  have hin := ht.inStatement
  have hparens : openParens s.statement.reverse = openParens s.statement := openParens_reverse _
  rcases nestStep_scopeBrackets hd with ⟨rfl, rfl⟩ | ⟨rfl, rfl⟩ | ⟨rfl, rfl⟩ | ⟨rfl, rfl⟩ |
    ⟨hp, hb, rfl⟩
  · refine .inl ⟨s.push '(', ?_, ?_⟩
    · rw [Scanner.step_inner (by decide) (by decide), hin]
      rfl
    · rw [Scanner.lostBraces_of_ne (by decide)]
      exact .statement ht h.openParen
  · refine .inl ⟨s.push ')', ?_, ?_⟩
    · rw [Scanner.step_inner (by decide) (by decide), hin]
      rfl
    · rw [Scanner.lostBraces_of_ne (by decide)]
      exact .statement ht h.closeParen
  · rw [Steps, Scanner.lostBraces_of_ne (by decide)]
    exact .inl (steps_openBrace ht h)
  · rw [Steps, Scanner.lostBraces_of_ne (by decide)]
    exact steps_closeBrace ht h
  · by_cases hsemi : c = ';'
    · subst hsemi
      exact .inl ⟨_, Scanner.step_semicolon s, tracks_endStatement ht h⟩
    · rw [Steps, Scanner.lostBraces_of_ne hsemi]
      refine .inl ?_
      by_cases hn : c = '\n'
      · subst hn
        exact ⟨_, Scanner.step_newline s, .statement ht (h.other (by decide) (by decide))⟩
      · have hinner : isInner c = true := by simp [isInner, hb.1, hb.2, hsemi]
        refine ⟨s.push c, ?_, .statement ht (h.other hp hb)⟩
        rw [Scanner.step_inner hn hinner, hin]
        rfl

/-! ## Blocks and initial values -/

theorem nestStep_block {parens due due' : List Char} {c : Char} (hp : ∀ c ∈ parens, c = ')')
    (h : nestStep scopeBrackets (parens ++ '\x7d' :: due) c = some due') :
    (c = '\x7b' ∧ due' = '\x7d' :: (parens ++ '\x7d' :: due)) ∨
      (c = '\x7d' ∧ parens = [] ∧ due' = due) ∨
        ((c ≠ '\x7b' ∧ c ≠ '\x7d') ∧
          ∃ parens', (∀ c ∈ parens', c = ')') ∧ due' = parens' ++ '\x7d' :: due) := by
  rcases nestStep_scopeBrackets h with ⟨rfl, rfl⟩ | ⟨rfl, hdue⟩ | ⟨rfl, rfl⟩ | ⟨rfl, hdue⟩ |
    ⟨-, hb, rfl⟩
  · exact .inr (.inr ⟨by decide, ')' :: parens, by simpa using hp, rfl⟩)
  · cases parens with
    | nil => exact absurd (List.cons.inj hdue).1 (by decide)
    | cons d parens =>
      obtain ⟨-, rfl⟩ := List.cons.inj hdue
      exact .inr (.inr ⟨by decide, parens, fun c hc => hp c (.tail _ hc), rfl⟩)
  · exact .inl ⟨rfl, rfl⟩
  · cases parens with
    | nil => exact .inr (.inl ⟨rfl, rfl, (List.cons.inj hdue).2.symm⟩)
    | cons d parens =>
      obtain rfl := hp d (.head _)
      exact absurd (List.cons.inj hdue).1 (by decide)
  · exact .inr (.inr ⟨hb, parens, hp, rfl⟩)

/-- Within a block or an initial value a semicolon ends nothing. -/
theorem Scanner.endStatement_of_inStatement {s : Scanner} (hs : s.inStatement = false) :
    s.endStatement = s := by
  unfold inStatement at hs
  unfold endStatement
  split at hs
  · cases hs
  · cases hs
  · rename_i hnil htype
    split
    · rename_i heq
      exact absurd heq hnil
    · rename_i heq
      exact absurd heq (htype _ _)
    · rename_i heq
      exact absurd heq (htype _ _)
    · rfl

/-- Within a block or an initial value every brace is one of a scope, and nothing else is read. -/
theorem Scanner.step_block {s : Scanner} (hs : s.inStatement = false) {c : Char}
    (hb : c ≠ '\x7b' ∧ c ≠ '\x7d') :
    s.step c = .ok (if c = '\n' then { s with line := s.line + 1 }.push ' ' else s) := by
  by_cases hn : c = '\n'
  · subst hn
    exact step_newline s
  rw [if_neg hn]
  by_cases hsemi : c = ';'
  · subst hsemi
    rw [step_semicolon, endStatement_of_inStatement hs]
  · rw [step_inner hn (by simp [isInner, hb.1, hb.2, hsemi]), hs]
    rfl

theorem Scanner.inStatement_of_ne_type {s : Scanner} {scope : Scope} {scopes : List Scope}
    (hs : s.scopes = scope :: scopes) (hne : ∀ constants, scope ≠ .type constants) :
    s.inStatement = false := by
  unfold Scanner.inStatement
  rw [hs]
  cases scope with
  | type constants => exact absurd rfl (hne constants)
  | initializer => rfl
  | block => rfl

/-- A block within a block or an initial value leaves the statement as it is. -/
theorem Scanner.closeBrace_block {s : Scanner} {scopes : List Scope}
    (hs : s.scopes = .block :: scopes)
    (hin : ({ s with scopes := scopes } : Scanner).inStatement = false) :
    s.closeBrace = .ok { s with scopes := scopes } := by
  rw [closeBrace, hs]
  dsimp only
  rw [hin]
  rfl

/-- Within a block or an initial value a character opens a block, closes the innermost scope, or
changes nothing but the parentheses that are due. -/
theorem steps_block {s : Scanner} {c : Char} {scope : Scope} {scopes : List Scope}
    {parens due due' : List Char} {lost : Nat} (hs : s.scopes = scope :: scopes)
    (hne : ∀ constants, scope ≠ .type constants) (hp : ∀ c ∈ parens, c = ')')
    (h : ∀ parens, (∀ c ∈ parens, c = ')') →
      Tracks (scope :: scopes) s.statement (parens ++ '\x7d' :: due) lost)
    (hclose : ∃ s', s.closeBrace = .ok s' ∧ Tracks s'.scopes s'.statement due lost)
    (hd : nestStep scopeBrackets (parens ++ '\x7d' :: due) c = some due') :
    Steps s c due' lost := by
  have hin := s.inStatement_of_ne_type hs hne
  have hout : s.inStatement = true → openParens s.statement.reverse ≤ 0 := by simp [hin]
  have hlost : s.lostBraces c = 0 := if_neg (by simp [hin])
  rw [Steps, hlost]
  refine .inl ?_
  rcases nestStep_block hp hd with ⟨rfl, rfl⟩ | ⟨rfl, rfl, rfl⟩ | ⟨hb, parens', hp', rfl⟩
  · refine ⟨_, Scanner.step_openBrace hout, ?_⟩
    rw [Scanner.openBrace, if_neg (by simp [hin])]
    dsimp only
    rw [hs]
    exact @Tracks.inner _ _ _ _ [] _ hne (by simp) (h parens hp)
  · obtain ⟨s', hstep, ht⟩ := hclose
    exact ⟨s', (Scanner.step_closeBrace hout).trans hstep, ht⟩
  · refine ⟨_, Scanner.step_block hin hb, ?_⟩
    split
    · dsimp only [Scanner.push]
      rw [hs]
      exact (h parens' hp').blank
    · rw [hs]
      exact h parens' hp'

/-- One character of a nested text. -/
theorem Tracks.steps {s : Scanner} {c : Char} {due due' : List Char} {lost : Nat}
    (h : Tracks s.scopes s.statement due lost) (hd : nestStep scopeBrackets due c = some due') :
    Steps s c due' lost := by
  generalize hscopes : s.scopes = scopes at h
  generalize hstmt : s.statement = stmt at h
  cases h with
  | statement ht h => exact steps_statement (hscopes ▸ ht) (hscopes ▸ hstmt ▸ h) hd
  | @initializer types _ due parens _ ht hp h =>
    refine steps_block hscopes (by simp) hp (fun _ hp => hstmt ▸ .initializer ht hp h)
      ⟨_, by rw [Scanner.closeBrace, hscopes], ?_⟩ hd
    exact .statement ht (hstmt ▸ h.emptyBraces)
  | @block types _ due parens _ ht hp h =>
    have hin : ({ s with scopes := types } : Scanner).inStatement = true :=
      AllTypes.inStatement ht
    refine steps_block hscopes (by simp) hp (fun _ hp => .block ht hp h)
      ⟨{ s with scopes := types, statement := [] }, ?_, .statement ht h⟩ hd
    simp [Scanner.closeBrace, hscopes, hin]
  | @inner scope scopes _ due parens _ hne hp h =>
    have hin : ({ s with scopes := scope :: scopes } : Scanner).inStatement = false :=
      Scanner.inStatement_of_ne_type rfl hne
    refine steps_block hscopes (by simp) hp (fun _ hp => hstmt ▸ .inner hne hp h)
      ⟨{ s with scopes := scope :: scopes }, ?_, hstmt ▸ h⟩ hd
    exact Scanner.closeBrace_block hscopes hin

/-! ## Whole texts -/

/-- The braces that statements hold open when semicolons end them. -/
def Scanner.allLostBraces (s : Scanner) : List Char → Nat
  | [] => 0
  | c :: cs =>
    s.lostBraces c +
      match s.step c with
      | .ok s' => s'.allLostBraces cs
      | .error _ => 0

/-- Nothing is due and nothing is lost at the end of a nested text. -/
theorem Tracks.nil {scopes : List Scope} {stmt : List Char} {lost : Nat}
    (h : Tracks scopes stmt [] lost) : scopes = [] ∧ lost = 0 := by
  generalize hdue : ([] : List Char) = due at h
  cases h with
  | statement ht h =>
    have hcount := h.count_eq
    rw [← hdue, List.count_nil] at hcount
    exact ⟨List.length_eq_zero_iff.1 (by omega), by omega⟩
  | initializer => simp at hdue
  | block => simp at hdue
  | inner => simp at hdue

/-- A nested text is read to its end if no brace is lost; else a brace closes nothing. -/
theorem Tracks.run {cs : List Char} {s : Scanner} {due : List Char} {lost : Nat}
    (h : Tracks s.scopes s.statement due lost) (hd : nest scopeBrackets due cs = some []) :
    (lost + s.allLostBraces cs = 0 ∧ ∃ s', cs.foldlM Scanner.step s = .ok s' ∧ s'.scopes = []) ∨
      (0 < lost + s.allLostBraces cs ∧
        ∃ line, cs.foldlM Scanner.step s = .error (.unbalancedBraces line)) := by
  induction cs generalizing s due lost with
  | nil =>
    obtain rfl : due = [] := Option.some.inj hd
    obtain ⟨hscopes, rfl⟩ := h.nil
    exact .inl ⟨rfl, s, rfl, hscopes⟩
  | cons c cs ih =>
    rw [nest_cons] at hd
    obtain ⟨due', hstep, hrest⟩ := Option.bind_eq_some_iff.1 hd
    rcases h.steps hstep with ⟨s', hs, ht⟩ | ⟨hlost, line, hs⟩
    · have hall : s.allLostBraces (c :: cs) = s.lostBraces c + s'.allLostBraces cs := by
        rw [Scanner.allLostBraces, hs]
      have hfold : (c :: cs).foldlM Scanner.step s = cs.foldlM Scanner.step s' := by
        rw [List.foldlM_cons, hs]
        rfl
      rw [hall, hfold, ← Nat.add_assoc]
      exact ih ht hrest
    · exact .inr ⟨by omega, line, by rw [List.foldlM_cons, hs]; rfl⟩

theorem tracks_empty : Tracks ({} : Scanner).scopes ({} : Scanner).statement [] 0 :=
  .statement .nil (.of_count rfl)

/-- A nested text is accepted exactly if no brace is lost. -/
theorem fieldsOfCleaned_nested {cs : List Char} (h : isNested scopeBrackets cs = true) :
    (Scanner.allLostBraces {} cs = 0 ∧ ∃ ds, fieldsOfCleaned cs = .ok ds) ∨
      (0 < Scanner.allLostBraces {} cs ∧
        ∃ line, fieldsOfCleaned cs = .error (.unbalancedBraces line)) := by
  rcases tracks_empty.run (isNested_iff.1 h) with ⟨hlost, s', hrun, hs⟩ | ⟨hlost, line, hrun⟩
  · rw [Nat.zero_add] at hlost
    refine .inl ⟨hlost, s'.fields.reverse, ?_⟩
    rw [fieldsOfCleaned, hrun]
    simp [bind, Except.bind, Scanner.finish, hs]
  · rw [Nat.zero_add] at hlost
    refine .inr ⟨hlost, line, ?_⟩
    rw [fieldsOfCleaned, hrun]
    rfl

/-- Outside parentheses a statement holds no brace that a semicolon could lose. -/
theorem Tracks.lostBraces_eq_zero {s : Scanner} {due : List Char} {lost : Nat}
    (h : Tracks s.scopes s.statement due lost) (hp : ')' ∉ due) : s.lostBraces ';' = 0 := by
  unfold Scanner.lostBraces
  split
  · rename_i hin
    generalize hscopes : s.scopes = scopes at h
    cases h with
    | statement ht h =>
      obtain ⟨held, rest, k, rfl, hheld, -⟩ := h
      have hnone : '\x7d' ∉ held := by
        intro hmem
        obtain ⟨x, y, rfl⟩ := List.append_of_mem hmem
        have hk := hheld.inner x y rfl
        rw [List.count_eq_zero_of_not_mem fun hc => hp (by simp [hc])] at hk
        omega
      have := hheld.braces
      rw [List.count_eq_zero_of_not_mem hnone] at this
      omega
    | initializer => simp [Scanner.inStatement, hscopes] at hin
    | block => simp [Scanner.inStatement, hscopes] at hin
    | inner => simp [Scanner.inStatement, hscopes] at hin
  · rfl

/-- No brace is lost if every semicolon stands outside parentheses. -/
theorem Tracks.allLostBraces_eq_zero {cs : List Char} {s : Scanner} {due : List Char}
    (h : Tracks s.scopes s.statement due 0) (hd : nest scopeBrackets due cs = some [])
    (hsemi : ∀ x y mid, cs = x ++ ';' :: y → nest scopeBrackets due x = some mid → ')' ∉ mid) :
    s.allLostBraces cs = 0 := by
  induction cs generalizing s due with
  | nil => rfl
  | cons c cs ih =>
    rw [nest_cons] at hd
    obtain ⟨due', hstep, hrest⟩ := Option.bind_eq_some_iff.1 hd
    have hlost : s.lostBraces c = 0 := by
      by_cases hc : c = ';'
      · subst hc
        exact h.lostBraces_eq_zero (hsemi [] cs due rfl rfl)
      · exact Scanner.lostBraces_of_ne hc
    rcases h.steps hstep with ⟨s', hs, ht⟩ | ⟨hpos, -⟩
    · rw [hlost] at ht
      rw [Scanner.allLostBraces, hs, hlost, Nat.zero_add]
      refine ih ht hrest fun x y mid hcs hmid => hsemi (c :: x) y mid (by rw [hcs]; rfl) ?_
      rw [nest_cons, hstep]
      exact hmid
    · omega

/-! ## Texts without parentheses -/

/-- Braces alone. -/
def braces : List (Char × Char) := [('\x7b', '\x7d')]

theorem openParens_of_not_mem_open {cs : List Char} (h : '(' ∉ cs) : openParens cs.reverse ≤ 0 := by
  rw [openParens_reverse, openParens_eq, List.count_eq_zero_of_not_mem h]
  omega

theorem Scanner.openBrace_of_not_mem {s : Scanner} (h : '(' ∉ s.statement) :
    '(' ∉ s.openBrace.statement ∧ s.openBrace.scopes.length = s.scopes.length + 1 := by
  obtain ⟨scope, stmt, hstmt, heq⟩ := s.openBrace_eq
  rw [heq]
  rcases hstmt with rfl | rfl
  · exact ⟨h, rfl⟩
  · exact ⟨List.not_mem_nil, rfl⟩

theorem Scanner.closeBrace_of_cons {s : Scanner} {scope : Scope} {scopes : List Scope}
    (hs : s.scopes = scope :: scopes) (h : '(' ∉ s.statement) :
    ∃ s', s.closeBrace = .ok s' ∧ '(' ∉ s'.statement ∧ s'.scopes = scopes := by
  obtain ⟨stmt, hstmt, heq⟩ := closeBrace_eq hs
  refine ⟨_, heq, ?_, rfl⟩
  rcases hstmt with rfl | rfl | rfl
  · exact h
  · exact List.not_mem_nil
  · simpa using h

theorem Scanner.endStatement_of_not_mem {s : Scanner} (h : '(' ∉ s.statement) :
    '(' ∉ s.endStatement.statement ∧ s.endStatement.scopes.length = s.scopes.length := by
  obtain ⟨scopes, fields, stmt, hlength, hstmt, heq⟩ := s.endStatement_eq
  rw [heq]
  rcases hstmt with rfl | rfl
  · exact ⟨h, hlength⟩
  · exact ⟨List.not_mem_nil, hlength⟩

/-- A character that is no bracket changes no scope. -/
theorem Scanner.step_other_of_not_mem {s : Scanner} (hs : '(' ∉ s.statement) {c : Char}
    (hc : c ≠ '(') (hb : c ≠ '\x7b' ∧ c ≠ '\x7d') : ∃ s', s.step c = .ok s' ∧
      '(' ∉ s'.statement ∧ s'.scopes.length = s.scopes.length := by
  by_cases hn : c = '\n'
  · subst hn
    exact ⟨_, step_newline s, by simpa [push] using hs, rfl⟩
  by_cases hsemi : c = ';'
  · subst hsemi
    exact ⟨_, step_semicolon s, endStatement_of_not_mem hs⟩
  · refine ⟨_, step_inner hn (by simp [isInner, hb.1, hb.2, hsemi]), ?_⟩
    split
    · exact ⟨by simpa [push] using ⟨Ne.symm hc, hs⟩, rfl⟩
    · exact ⟨hs, rfl⟩

/-- Without parentheses every brace is one of a scope. -/
theorem step_of_not_mem {s : Scanner} (hs : '(' ∉ s.statement) {c : Char} (hc : c ≠ '(') :
    (∃ s', s.step c = .ok s' ∧ '(' ∉ s'.statement ∧
      nestStep braces (List.replicate s.scopes.length '\x7d') c =
        some (List.replicate s'.scopes.length '\x7d')) ∨
      ((∃ line, s.step c = .error (.unbalancedBraces line)) ∧
        nestStep braces (List.replicate s.scopes.length '\x7d') c = none) := by
  have hparens : s.inStatement = true → openParens s.statement.reverse ≤ 0 :=
    fun _ => openParens_of_not_mem_open hs
  by_cases hopen : c = '\x7b'
  · subst hopen
    obtain ⟨hs', hlength⟩ := Scanner.openBrace_of_not_mem hs
    refine .inl ⟨_, Scanner.step_openBrace hparens, hs', ?_⟩
    rw [hlength]
    rfl
  by_cases hclose : c = '\x7d'
  · subst hclose
    rw [Scanner.step_closeBrace hparens]
    cases hscopes : s.scopes with
    | nil => exact .inr ⟨⟨s.line, Scanner.closeBrace_of_nil hscopes⟩, rfl⟩
    | cons scope scopes =>
      obtain ⟨s', hstep, hs', rfl⟩ := Scanner.closeBrace_of_cons hscopes hs
      exact .inl ⟨s', hstep, hs', rfl⟩
  · obtain ⟨s', hstep, hs', hlength⟩ := Scanner.step_other_of_not_mem hs hc ⟨hopen, hclose⟩
    refine .inl ⟨s', hstep, hs', ?_⟩
    rw [hlength]
    exact nestStep_other (by simp [braces, beq_false_of_ne hopen])
      (by simp [braces, Ne.symm hclose])

theorem run_of_not_mem {cs : List Char} {s : Scanner} (hs : '(' ∉ s.statement) (hcs : '(' ∉ cs) :
    (∃ s', cs.foldlM Scanner.step s = .ok s' ∧
      nest braces (List.replicate s.scopes.length '\x7d') cs =
        some (List.replicate s'.scopes.length '\x7d')) ∨
      ((∃ line, cs.foldlM Scanner.step s = .error (.unbalancedBraces line)) ∧
        nest braces (List.replicate s.scopes.length '\x7d') cs = none) := by
  induction cs generalizing s with
  | nil => exact .inl ⟨s, rfl, rfl⟩
  | cons c cs ih =>
    rw [List.mem_cons, not_or] at hcs
    rw [List.foldlM_cons, nest_cons]
    rcases step_of_not_mem hs (Ne.symm hcs.1) with ⟨s', hstep, hs', hnest⟩ | ⟨⟨line, hstep⟩, hnest⟩
    · rw [hstep, hnest]
      exact ih hs' hcs.2
    · rw [hstep, hnest]
      exact .inr ⟨⟨line, rfl⟩, rfl⟩

theorem fieldsOfCleaned_braces {cs : List Char} (h : '(' ∉ cs) :
    (isNested braces cs = true ∧ ∃ ds, fieldsOfCleaned cs = .ok ds) ∨
      (isNested braces cs = false ∧
        ∃ line, fieldsOfCleaned cs = .error (.unbalancedBraces line)) := by
  have hstart : '(' ∉ ({} : Scanner).statement := by simp
  rcases run_of_not_mem hstart h with ⟨s', hrun, hnest⟩ | ⟨⟨line, hrun⟩, hnest⟩
  · replace hnest : nest braces [] cs = some (List.replicate s'.scopes.length '\x7d') := hnest
    rw [fieldsOfCleaned, hrun, isNested, hnest]
    cases hs : s'.scopes with
    | nil => exact .inl ⟨rfl, _, by simp [bind, Except.bind, Scanner.finish, hs]; rfl⟩
    | cons scope scopes =>
      exact .inr ⟨rfl, s'.line, by simp [bind, Except.bind, Scanner.finish, hs]⟩
  · replace hnest : nest braces [] cs = none := hnest
    rw [fieldsOfCleaned, hrun, isNested, hnest]
    exact .inr ⟨rfl, line, rfl⟩

/-! ## Sources -/

/-- A source whose parentheses and braces are nested is accepted exactly if no semicolon ends a
statement within braces that the statement holds, so always if no semicolon stands within
parentheses; without opening parentheses it is accepted exactly if its braces are nested, and else
its braces are what is wrong. -/
theorem fieldsOfSource_nested {source : String} {cleaned : List Char}
    (h : clean source.toList = .ok cleaned) :
    (isNested scopeBrackets cleaned = true →
      ((∃ ds, fieldsOfSource source = .ok ds) ↔ Scanner.allLostBraces {} cleaned = 0) ∧
      ((∀ x y due, cleaned = x ++ ';' :: y → nest scopeBrackets [] x = some due → ')' ∉ due) →
        ∃ ds, fieldsOfSource source = .ok ds)) ∧
    ('(' ∉ cleaned →
      ((∃ ds, fieldsOfSource source = .ok ds) ↔ isNested braces cleaned = true) ∧
      (isNested braces cleaned = false →
        ∃ line, fieldsOfSource source = .error (.unbalancedBraces line))) := by
  have heq : fieldsOfSource source = fieldsOfCleaned cleaned := by
    rw [fieldsOfSource, h]
    rfl
  rw [heq]
  refine ⟨fun hnested => ?_, fun hparens => ?_⟩
  · have hiff : (∃ ds, fieldsOfCleaned cleaned = .ok ds) ↔
        Scanner.allLostBraces {} cleaned = 0 := by
      rcases fieldsOfCleaned_nested hnested with ⟨hlost, hok⟩ | ⟨hlost, line, herr⟩
      · exact iff_of_true hok hlost
      · refine iff_of_false ?_ (by omega)
        rintro ⟨ds, hds⟩
        rw [herr] at hds
        cases hds
    exact ⟨hiff, fun hsemi =>
      hiff.2 (tracks_empty.allLostBraces_eq_zero (isNested_iff.1 hnested) hsemi)⟩
  · rcases fieldsOfCleaned_braces hparens with ⟨hnested, hok⟩ | ⟨hnested, line, herr⟩
    · exact ⟨iff_of_true hok hnested, fun hnot => absurd hnested (by simp [hnot])⟩
    · refine ⟨iff_of_false ?_ (by simp [hnested]), fun _ => ⟨line, herr⟩⟩
      rintro ⟨ds, hds⟩
      rw [herr] at hds
      cases hds

/-- Braces in the arguments of an annotation, and braces alone. -/
theorem fieldsOfSource_nested_annotation :
    clean "@J(c = \x7b\"x\"\x7d) class A \x7b R r; \x7d".toList =
      .ok "@J(c = \x7b\"\"\x7d) class A \x7b R r; \x7d".toList ∧
    (∃ ds, fieldsOfSource "@J(c = \x7b\"x\"\x7d) class A \x7b R r; \x7d" = .ok ds) ∧
    clean "class A \x7b \x7d \x7d".toList = .ok "class A \x7b \x7d \x7d".toList ∧
    ∃ line, fieldsOfSource "class A \x7b \x7d \x7d" = .error (.unbalancedBraces line) := by
  have hparens : clean "@J(c = \x7b\"x\"\x7d) class A \x7b R r; \x7d".toList =
      .ok "@J(c = \x7b\"\"\x7d) class A \x7b R r; \x7d".toList := by
    rw [String.toList_ofList, String.toList_ofList]
    rfl
  have hbraces : clean "class A \x7b \x7d \x7d".toList =
      .ok "class A \x7b \x7d \x7d".toList := by
    rw [String.toList_ofList]
    rfl
  -- the one semicolon is the end of the field
  have hsemi : ∀ x y due, "@J(c = \x7b\"\"\x7d) class A \x7b R r; \x7d".toList = x ++ ';' :: y →
      nest scopeBrackets [] x = some due → ')' ∉ due := by
    intro x y due heq hdue
    have hall : ∀ n < 29, "@J(c = \x7b\"\"\x7d) class A \x7b R r; \x7d".toList[n]? = some ';' →
        nest scopeBrackets [] ("@J(c = \x7b\"\"\x7d) class A \x7b R r; \x7d".toList.take n) =
          some ['\x7d'] := by
      rw [String.toList_ofList]
      decide
    rw [heq] at hall
    have hlength : 29 = (x ++ ';' :: y).length := by
      rw [← heq, String.toList_ofList]
      rfl
    have hopen := hall x.length (by simp at hlength; omega) (by simp)
    rw [List.take_left, hdue] at hopen
    rw [Option.some.inj hopen]
    decide
  refine ⟨hparens, ?_, hbraces, ?_⟩
  · exact ((fieldsOfSource_nested hparens).1 (by rw [String.toList_ofList]; decide)).2 hsemi
  · exact ((fieldsOfSource_nested hbraces).2 (by rw [String.toList_ofList]; decide)).2
      (by rw [String.toList_ofList]; decide)

/-- A block of a lambda that is an argument: the semicolon in it ends the member, and the brace
after it closes the class. -/
theorem fieldsOfSource_lambda_argument :
    clean "class A \x7b R r = f(() -> \x7b g(); \x7d); \x7d".toList =
      .ok "class A \x7b R r = f(() -> \x7b g(); \x7d); \x7d".toList ∧
    isNested scopeBrackets "class A \x7b R r = f(() -> \x7b g(); \x7d); \x7d".toList = true ∧
    ∃ line, fieldsOfSource "class A \x7b R r = f(() -> \x7b g(); \x7d); \x7d" =
      .error (.unbalancedBraces line) := by
  have hclean : clean "class A \x7b R r = f(() -> \x7b g(); \x7d); \x7d".toList =
      .ok "class A \x7b R r = f(() -> \x7b g(); \x7d); \x7d".toList := by
    rw [String.toList_ofList]
    rfl
  have hnested :
      isNested scopeBrackets "class A \x7b R r = f(() -> \x7b g(); \x7d); \x7d".toList = true := by
    rw [String.toList_ofList]
    decide
  have hlost : Scanner.allLostBraces {}
      "class A \x7b R r = f(() -> \x7b g(); \x7d); \x7d".toList = 1 := by
    rw [String.toList_ofList]
    decide +kernel
  refine ⟨hclean, hnested, ?_⟩
  rcases fieldsOfCleaned_nested hnested with ⟨hnone, -⟩ | ⟨-, line, herr⟩
  · rw [hlost] at hnone
    cases hnone
  · refine ⟨line, ?_⟩
    rw [fieldsOfSource, hclean]
    exact herr

end EntityForge.Java
