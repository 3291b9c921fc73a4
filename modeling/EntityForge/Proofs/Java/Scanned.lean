import EntityForge.Java.SourceUnit

/-!
# Scanning part by part

`Scanner.Takes` lists all that a scanner does with one character (`Scanner.takes_step`), and there is
one lemma for what each of its steps makes of the scopes and of the statement. `Scans cs s s'`:
scanning `cs` takes the scanner from `s` to `s'`, whatever the line. Parts are scanned one after the
other (`Scans.append`); each kind of part has one lemma.
-/

namespace EntityForge.Java

/-- Scanning the text leads from one scanner to the other, lines aside. -/
def Scans (cs : List Char) (s s' : Scanner) : Prop :=
  ∀ n, ∃ m, cs.foldlM Scanner.step { s with line := n } = .ok { s' with line := m }

/-- The character neither opens nor closes a body nor ends a statement. -/
def isInner (c : Char) : Bool :=
  c != '\x7b' && c != '\x7d' && c != ';'

/-- The text on one line: blanks for newlines. -/
def oneLine (cs : List Char) : List Char :=
  cs.map fun c => if c = '\n' then ' ' else c

theorem Scans.append {cs ds : List Char} {s t u : Scanner} (h : Scans cs s t) (h' : Scans ds t u) :
    Scans (cs ++ ds) s u := by
  intro n
  obtain ⟨m, hm⟩ := h n
  obtain ⟨k, hk⟩ := h' m
  exact ⟨k, by rw [List.foldlM_append, hm]; exact hk⟩

theorem Scans.nil (s : Scanner) : Scans [] s s :=
  fun n => ⟨n, rfl⟩

theorem scans_of_step {c : Char} {s t : Scanner}
    (h : ∀ n, ∃ m, { s with line := n }.step c = .ok { t with line := m }) : Scans [c] s t := by
  intro n
  obtain ⟨m, hm⟩ := h n
  exact ⟨m, by rw [List.foldlM_cons, hm]; rfl⟩

/-! ## One character -/

namespace Scanner

theorem step_newline (s : Scanner) :
    s.step '\n' = .ok ({ s with line := s.line + 1 }.push ' ') := by
  simp [step]

/-- A brace within parentheses of a statement stays in it. -/
theorem step_heldBrace {s : Scanner} {c : Char} (hc : c = '\x7b' ∨ c = '\x7d')
    (hs : s.inStatement = true) (hp : 0 < openParens s.statement.reverse) :
    s.step c = .ok (s.push c) := by
  rcases hc with rfl | rfl <;> simp [step, hs, hp]

theorem step_openBrace {s : Scanner}
    (h : s.inStatement = true → openParens s.statement.reverse ≤ 0) :
    s.step '\x7b' = .ok s.openBrace := by
  have hcond : ¬ (s.inStatement = true ∧ 0 < openParens s.statement.reverse) :=
    fun hc => absurd (h hc.1) (by omega)
  simp [step, hcond]

theorem step_closeBrace {s : Scanner}
    (h : s.inStatement = true → openParens s.statement.reverse ≤ 0) :
    s.step '\x7d' = s.closeBrace := by
  have hcond : ¬ (s.inStatement = true ∧ 0 < openParens s.statement.reverse) :=
    fun hc => absurd (h hc.1) (by omega)
  simp [step, hcond]

theorem step_semicolon (s : Scanner) : s.step ';' = .ok s.endStatement := by
  simp [step]

theorem step_inner {s : Scanner} {c : Char} (hn : c ≠ '\n') (hc : isInner c = true) :
    s.step c = .ok (if s.inStatement then s.push c else s) := by
  simp only [isInner, Bool.and_eq_true, bne_iff_ne] at hc
  simp [step, hn, hc.1.1, hc.1.2, hc.2]

/-- What the scanner does with a character: braces that the statement holds are text of it, and every
other character has its own step. -/
inductive Takes (s : Scanner) : Char → Except SourceError Scanner → Prop where
  | newline : Takes s '\n' (.ok ({ s with line := s.line + 1 }.push ' '))
  | heldBrace {c : Char} (hc : c = '\x7b' ∨ c = '\x7d') (hs : s.inStatement = true)
      (hp : 0 < openParens s.statement.reverse) : Takes s c (.ok (s.push c))
  | openBrace (h : s.inStatement = true → openParens s.statement.reverse ≤ 0) :
      Takes s '\x7b' (.ok s.openBrace)
  | closeBrace (h : s.inStatement = true → openParens s.statement.reverse ≤ 0)
      {r : Except SourceError Scanner} (hr : s.closeBrace = r) : Takes s '\x7d' r
  | semicolon : Takes s ';' (.ok s.endStatement)
  | inner {c : Char} (hn : c ≠ '\n') (hc : isInner c = true) :
      Takes s c (.ok (if s.inStatement then s.push c else s))

theorem takes_step (s : Scanner) (c : Char) : s.Takes c (s.step c) := by
  by_cases hn : c = '\n'
  · subst hn
    exact step_newline s ▸ .newline
  by_cases hinner : isInner c = true
  · exact step_inner hn hinner ▸ .inner hn hinner
  by_cases hsemi : c = ';'
  · subst hsemi
    exact step_semicolon s ▸ .semicolon
  have hbrace : c = '\x7b' ∨ c = '\x7d' := by
    simpa [isInner, hsemi, Decidable.or_iff_not_imp_left] using hinner
  by_cases hheld : s.inStatement = true ∧ 0 < openParens s.statement.reverse
  · exact step_heldBrace hbrace hheld.1 hheld.2 ▸ .heldBrace hbrace hheld.1 hheld.2
  have hfree : s.inStatement = true → openParens s.statement.reverse ≤ 0 :=
    fun hs => Int.not_lt.1 fun hp => hheld ⟨hs, hp⟩
  rcases hbrace with rfl | rfl
  · exact step_openBrace hfree ▸ .openBrace hfree
  · exact step_closeBrace hfree ▸ .closeBrace hfree rfl

/-- An opening brace opens one scope; the statement stays or is dropped. -/
theorem openBrace_eq (s : Scanner) : ∃ scope stmt, (stmt = s.statement ∨ stmt = []) ∧
    s.openBrace = { s with scopes := scope :: s.scopes, statement := stmt } := by
  unfold openBrace
  split
  · split
    · exact ⟨_, _, .inl rfl, rfl⟩
    · split
      · exact ⟨_, _, .inr rfl, rfl⟩
      · exact ⟨_, _, .inr rfl, rfl⟩
  · exact ⟨_, _, .inl rfl, rfl⟩

/-- A closing brace closes the innermost scope; the statement stays, is dropped, or goes on after
an initial value. -/
theorem closeBrace_eq {s : Scanner} {scope : Scope} {scopes : List Scope}
    (hs : s.scopes = scope :: scopes) :
    ∃ stmt, (stmt = s.statement ∨ stmt = [] ∨ stmt = '\x7d' :: '\x7b' :: s.statement) ∧
      s.closeBrace = .ok { s with scopes := scopes, statement := stmt } := by
  unfold closeBrace
  rw [hs]
  cases scope with
  | initializer => exact ⟨_, .inr (.inr rfl), rfl⟩
  | _ =>
    dsimp only
    split
    · exact ⟨_, .inr (.inl rfl), rfl⟩
    · exact ⟨_, .inl rfl, rfl⟩

theorem closeBrace_of_nil {s : Scanner} (hs : s.scopes = []) :
    s.closeBrace = .error (.unbalancedBraces s.line) := by
  rw [closeBrace, hs]

/-- The end of a statement opens and closes no scope; the statement stays or is dropped. -/
theorem endStatement_eq (s : Scanner) : ∃ scopes fields stmt, scopes.length = s.scopes.length ∧
    (stmt = s.statement ∨ stmt = []) ∧
    s.endStatement = { s with scopes := scopes, fields := fields, statement := stmt } := by
  unfold endStatement
  split
  · exact ⟨_, _, _, rfl, .inr rfl, rfl⟩
  · rename_i rest hscopes
    exact ⟨_, _, _, by rw [hscopes]; rfl, .inr rfl, rfl⟩
  · exact ⟨_, _, _, rfl, .inr rfl, rfl⟩
  · exact ⟨_, _, _, rfl, .inl rfl, rfl⟩

end Scanner

/-! ## Statements -/

theorem scans_char {s : Scanner} (hs : s.inStatement = true) {c : Char} (hc : isInner c = true) :
    Scans [c] s { s with statement := (if c = '\n' then ' ' else c) :: s.statement } := by
  refine scans_of_step fun n => ?_
  simp only [isInner, Bool.and_eq_true, bne_iff_ne] at hc
  by_cases hn : c = '\n'
  · exact ⟨n + 1, by simp [Scanner.step, hn, Scanner.push]⟩
  · have hin : ({ s with line := n } : Scanner).inStatement = true := hs
    refine ⟨n, ?_⟩
    rw [Scanner.step, if_neg hn, if_neg (fun h => h.1.elim hc.1.1 hc.1.2),
      if_neg hc.1.1, if_neg hc.1.2, if_neg hc.2, if_pos hin, if_neg hn]
    rfl

/-- Text of a statement is collected. -/
theorem scans_inner {cs : List Char} (hcs : ∀ c ∈ cs, isInner c = true) {s : Scanner}
    (hs : s.inStatement = true) :
    Scans cs s { s with statement := (oneLine cs).reverse ++ s.statement } := by
  induction cs generalizing s with
  | nil => exact .nil s
  | cons c cs ih =>
    have hfirst := scans_char hs (hcs c (.head _))
    have hrest := ih (fun d hd => hcs d (.tail _ hd))
      (s := { s with statement := (if c = '\n' then ' ' else c) :: s.statement }) hs
    have hall := hfirst.append hrest
    simpa [oneLine] using hall

/-- At the top of a file a statement is dropped. -/
theorem scans_topEnd {s : Scanner} (hs : s.scopes = []) :
    Scans [';'] s { s with statement := [] } := by
  refine scans_of_step fun n => ⟨n, ?_⟩
  simp [Scanner.step, Scanner.endStatement, hs]

/-- In the body of a class a statement gives its fields. -/
theorem scans_memberEnd {s : Scanner} {rest : List Scope} (hs : s.scopes = .type false :: rest) :
    Scans [';'] s { s with
      fields := (fieldsOfStatement s.statement.reverse).reverse ++ s.fields
      statement := [] } := by
  refine scans_of_step fun n => ⟨n, ?_⟩
  simp [Scanner.step, Scanner.endStatement, hs]

/-! ## Braces -/

/-- The header of a class at the top of a file opens its body. -/
theorem scans_classOpen {s : Scanner} (hs : s.scopes = []) (hp : openParens s.statement.reverse = 0)
    (hk : typeKeyword? s.statement.reverse = some .classBody) :
    Scans ['\x7b'] s { s with scopes := [.type false], statement := [] } := by
  refine scans_of_step fun n => ⟨n, ?_⟩
  simp [Scanner.step, Scanner.openBrace, Scanner.inStatement, Scanner.inType, hs, hp, hk]

/-- The brace that closes the only body ends the file. -/
theorem scans_classClose {s : Scanner} (hs : s.scopes = [.type false])
    (hp : openParens s.statement.reverse = 0) :
    Scans ['\x7d'] s { s with scopes := [], statement := [] } := by
  refine scans_of_step fun n => ⟨n, ?_⟩
  simp [Scanner.step, Scanner.closeBrace, Scanner.inStatement, hs, hp]

/-! ## Parentheses -/

theorem openParens_append (cs ds : List Char) :
    openParens (cs ++ ds) = openParens cs + openParens ds := by
  have hall : ∀ (ds : List Char) (n : Int),
      ds.foldl (fun depth c => if c = '(' then depth + 1 else if c = ')' then depth - 1 else depth)
        n = n + openParens ds := by
    intro ds
    unfold openParens
    induction ds with
    | nil => simp
    | cons c ds ih =>
      intro n
      rw [List.foldl_cons, List.foldl_cons, ih, ih (if c = '(' then _ else _)]
      split
      · omega
      · split <;> omega
  rw [openParens, List.foldl_append, hall ds]
  rfl

theorem openParens_of_not_mem {cs : List Char} (ho : '(' ∉ cs) (hc : ')' ∉ cs) :
    openParens cs = 0 := by
  unfold openParens
  induction cs with
  | nil => rfl
  | cons c cs ih =>
    rw [List.mem_cons, not_or] at ho hc
    rw [List.foldl_cons, if_neg (Ne.symm ho.1), if_neg (Ne.symm hc.1)]
    exact ih ho.2 hc.2

/-! ## Whole texts -/

theorem Scans.fieldsOfCleaned_eq_ok {cs : List Char} {s : Scanner} (h : Scans cs {} s)
    (hs : s.scopes = []) : fieldsOfCleaned cs = .ok s.fields.reverse := by
  obtain ⟨m, hm⟩ := h 1
  have hm' : cs.foldlM Scanner.step {} = .ok { s with line := m } := hm
  rw [fieldsOfCleaned, hm']
  simp [bind, Except.bind, Scanner.finish, hs]

end EntityForge.Java
