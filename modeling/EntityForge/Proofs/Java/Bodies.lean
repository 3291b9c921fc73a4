import EntityForge.Proofs.Java.ClosedCode
import EntityForge.Proofs.Java.Lockstep

/-!
# Bodies do not matter

A brace that opens a block or an initial value (`Scanner.OpensBody`) leads past a body to its
closing brace with nothing read but blanks for newlines (`Scanner.foldlM_body`). So two bodies leave
scanners in lockstep (`lockstep_bodies`), and what follows them is read alike: `fieldsOfSource_body`
says it of two sources that differ in a body whose comments and literals are closed (`ClosedCode`)
and whose braces are nested.

A brace within parentheses of its statement opens nothing, and what is within it is part of the
statement; `fieldsOfSource_argument_body` is such a body.
-/

namespace EntityForge.Java

open Text (isNested isNested_iff nest nestStep nest_cons)

/-! ## Cleaning a body -/

/-- A source with a body is cleaned part by part. -/
theorem clean_body {pre cpre body cbody : List Char} (hpre : ClosedCode pre cpre)
    (hbody : ClosedCode body cbody) (suf : List Char) : ∃ s : Cleaner, s.mode = .code ∧
      s.out.reverse = cpre ++ '\x7b' :: (cbody ++ ['\x7d']) ∧
        clean (pre ++ '\x7b' :: (body ++ '\x7d' :: suf)) = (suf.foldl Cleaner.step s).finish := by
  obtain ⟨hmode, hout⟩ := hpre.settled
  obtain ⟨hmode', hout'⟩ := Cleaner.step_plain hmode (c := '\x7b') rfl rfl
  obtain ⟨hmode'', hout''⟩ := hbody.foldl hmode'
  obtain ⟨hlast, hlastOut⟩ := Cleaner.step_plain hmode'' (c := '\x7d') rfl rfl
  refine ⟨_, hlast, ?_, ?_⟩
  · rw [hlastOut, hout'', hout', hout]
    simp
  · rw [clean, List.foldl_append, List.foldl_cons, List.foldl_append, List.foldl_cons]

/-! ## Scanning a body -/

/-- A brace after what has been read opens a block or an initial value: it stands within no
parentheses of its statement, and the statement is not the header of a type. -/
structure Scanner.OpensBody (s : Scanner) : Prop where
  parens : s.inStatement = true → openParens s.statement.reverse ≤ 0
  kind : s.inStatement = true → (s.inType = true ∧ hasInitializer s.statement.reverse = true) ∨
    typeKeyword? s.statement.reverse = none

theorem Scanner.OpensBody.step {s : Scanner} (h : s.OpensBody) :
    s.step '\x7b' = .ok s.openBrace ∧ s.openBrace.inStatement = false := by
  refine ⟨Scanner.step_openBrace h.parens, ?_⟩
  unfold openBrace
  split
  · rename_i hin
    split
    · rfl
    · rename_i hinit
      rcases h.kind hin with hvalue | hnone
      · simp [hvalue] at hinit
      · rw [hnone]
        rfl
  · rfl

/-- The scanner with some blocks more open within the innermost scope. -/
def Scanner.within (s : Scanner) (depth : Nat) : Scanner :=
  { s with scopes := List.replicate depth .block ++ s.scopes }

theorem Scanner.inStatement_within {s : Scanner} (hs : s.inStatement = false) (depth : Nat) :
    (s.within depth).inStatement = false := by
  cases depth with
  | zero => exact hs
  | succ depth => rfl

/-- One character of a body. -/
theorem Scanner.step_within {s : Scanner} (hs : s.inStatement = false) {depth : Nat} {c : Char}
    {due : List Char} (h : nestStep braces (List.replicate depth '\x7d') c = some due) :
    ∃ depth' stmt n, due = List.replicate depth' '\x7d' ∧
      (s.within depth).step c = .ok ({ s with statement := stmt, line := n }.within depth') ∧
        (stmt = s.statement ∨ stmt = ' ' :: s.statement) := by
  have hin := s.inStatement_within hs depth
  have hout : (s.within depth).inStatement = true →
      openParens (s.within depth).statement.reverse ≤ 0 := by simp [hin]
  by_cases hopen : c = '\x7b'
  · subst hopen
    obtain rfl := Option.some.inj h
    refine ⟨depth + 1, s.statement, s.line, rfl, ?_, .inl rfl⟩
    rw [step_openBrace hout, openBrace, hin]
    rfl
  by_cases hclose : c = '\x7d'
  · subst hclose
    cases depth with
    | zero => cases h
    | succ depth =>
      obtain rfl := Option.some.inj h
      refine ⟨depth, s.statement, s.line, rfl, ?_, .inl rfl⟩
      have hclosed : (s.within (depth + 1)).closeBrace = .ok
          (if (s.within depth).inStatement then { s.within depth with statement := [] }
          else s.within depth) := rfl
      rw [step_closeBrace hout, hclosed, s.inStatement_within hs depth]
      rfl
  · have hother : nestStep braces (List.replicate depth '\x7d') c = _ :=
      Text.nestStep_other (by simp [braces, beq_false_of_ne hopen])
        (by simp [braces, Ne.symm hclose])
    obtain rfl := Option.some.inj (hother.symm.trans h)
    have hstep := step_block hin ⟨hopen, hclose⟩
    split at hstep
    · exact ⟨depth, ' ' :: s.statement, s.line + 1, rfl, hstep, .inr rfl⟩
    · exact ⟨depth, s.statement, s.line, rfl, hstep, .inl rfl⟩

/-- A body leads to its closing brace with nothing read but blanks. -/
theorem Scanner.foldlM_within {cs : List Char} {s : Scanner} (hs : s.inStatement = false)
    (depth : Nat) (h : nest braces (List.replicate depth '\x7d') cs = some []) :
    ∃ w n, (∀ c ∈ w, Unicode.isBlank c = true) ∧
      cs.foldlM Scanner.step (s.within depth) =
        .ok { s with statement := w ++ s.statement, line := n } := by
  induction cs generalizing s depth with
  | nil =>
    obtain rfl : depth = 0 := by simpa [nest] using h
    exact ⟨[], s.line, by simp, rfl⟩
  | cons c cs ih =>
    rw [nest_cons] at h
    obtain ⟨due, hstep, hrest⟩ := Option.bind_eq_some_iff.1 h
    obtain ⟨depth', stmt, n, rfl, hscan, hstmt⟩ := Scanner.step_within hs hstep
    have hin : ({ s with statement := stmt, line := n } : Scanner).inStatement = false := hs
    obtain ⟨w, m, hw, hrun⟩ := ih hin depth' hrest
    have hall : (c :: cs).foldlM Scanner.step (s.within depth) =
        .ok { s with statement := w ++ stmt, line := m } := by
      rw [List.foldlM_cons, hscan]
      exact hrun
    rcases hstmt with rfl | rfl
    · exact ⟨w, m, hw, hall⟩
    · refine ⟨w ++ [' '], m, fun d hd => ?_, by simpa using hall⟩
      exact (List.mem_append.1 hd).elim (hw d) (isBlank_of_mem_space d)

/-- Within a block or an initial value, texts with nested braces leave scanners in lockstep. -/
theorem Lockstep.nested {s : Scanner} (hself : Lockstep s s) (hs : s.inStatement = false)
    {cs cs' : List Char} (h : isNested braces cs = true) (h' : isNested braces cs' = true) :
    ∃ t t', cs.foldlM Scanner.step s = .ok t ∧ cs'.foldlM Scanner.step s = .ok t' ∧
      Lockstep t t' := by
  obtain ⟨w, n, hw, hrun⟩ := Scanner.foldlM_within hs 0 (isNested_iff.1 h)
  obtain ⟨v, m, hv, hrun'⟩ := Scanner.foldlM_within hs 0 (isNested_iff.1 h')
  refine ⟨_, _, hrun, hrun', rfl, rfl, ?_⟩
  rcases hself.statement_or_block with ⟨hin, -⟩ | ⟨-, scope, scopes, hscopes, hne⟩
  · rw [hs] at hin
    cases hin
  · have hagree := hself.agree
    dsimp only
    rw [hscopes] at hagree ⊢
    rw [List.reverse_append, List.reverse_append]
    exact hagree.blanks hne (by simpa using hw) (by simpa using hv)

/-- Bodies with nested braces leave scanners in lockstep. -/
theorem lockstep_bodies {cpre body body' : List Char} {s : Scanner}
    (hs : cpre.foldlM Scanner.step {} = .ok s) (hopen : s.OpensBody)
    (hbody : isNested braces body = true) (hbody' : isNested braces body' = true) :
    ∃ t t', (cpre ++ '\x7b' :: body).foldlM Scanner.step {} = .ok t ∧
      (cpre ++ '\x7b' :: body').foldlM Scanner.step {} = .ok t' ∧ Lockstep t t' := by
  obtain ⟨hstep, hin⟩ := hopen.step
  have hbrace : (cpre ++ ['\x7b']).foldlM Scanner.step {} = .ok s.openBrace := by
    have hlast : ['\x7b'].foldlM Scanner.step s = .ok s.openBrace := by
      rw [List.foldlM_cons, hstep]
      rfl
    rw [List.foldlM_append, hs]
    exact hlast
  obtain ⟨t, t', hrun, hrun', hlock⟩ := (Lockstep.of_foldlM hbrace).nested hin hbody hbody'
  have hsplit : ∀ b, cpre ++ '\x7b' :: b = (cpre ++ ['\x7b']) ++ b := by simp
  refine ⟨t, t', ?_, ?_, hlock⟩
  · rw [hsplit, List.foldlM_append, hbrace]
    exact hrun
  · rw [hsplit, List.foldlM_append, hbrace]
    exact hrun'

/-! ## Sources -/

/-- Two sources that differ in a body give the same fields, or fail with the same kind of error. -/
theorem fieldsOfSource_body {pre cpre body cbody body' cbody' : List Char} {s : Scanner}
    (hpre : ClosedCode pre cpre) (hs : cpre.foldlM Scanner.step {} = .ok s) (hopen : s.OpensBody)
    (hbody : ClosedCode body cbody) (hnested : isNested braces cbody = true)
    (hbody' : ClosedCode body' cbody') (hnested' : isNested braces cbody' = true)
    (suf : List Char) :
    (fieldsOfSource (String.ofList (pre ++ '\x7b' :: (body ++ '\x7d' :: suf)))).mapError
        SourceError.withoutLine =
      (fieldsOfSource (String.ofList (pre ++ '\x7b' :: (body' ++ '\x7d' :: suf)))).mapError
        SourceError.withoutLine := by
  obtain ⟨c, hcode, hout, hclean⟩ := clean_body hpre hbody suf
  obtain ⟨c', hcode', hout', hclean'⟩ := clean_body hpre hbody' suf
  obtain ⟨t, t', hrun, hrun', hlock⟩ := lockstep_bodies hs hopen hnested hnested'
  have hmode : c.mode.withoutLine = c'.mode.withoutLine := by rw [hcode, hcode']
  rw [fieldsOfSource, fieldsOfSource, String.toList_ofList, String.toList_ofList, hclean, hclean']
  rcases Cleaner.finish_alike hmode suf with ⟨x, hfinish, hfinish'⟩ | ⟨part, m, n, herr, herr'⟩
  · have hfields : ∀ b u, (cpre ++ '\x7b' :: b).foldlM Scanner.step {} = .ok u →
        fieldsOfCleaned ((cpre ++ '\x7b' :: (b ++ ['\x7d'])) ++ x) =
          (('\x7d' :: x).foldlM Scanner.step u >>= Scanner.finish) := by
      intro b u hu
      have hshape : (cpre ++ '\x7b' :: (b ++ ['\x7d'])) ++ x =
          (cpre ++ '\x7b' :: b) ++ '\x7d' :: x := by simp
      rw [fieldsOfCleaned, hshape, List.foldlM_append, hu]
      rfl
    rw [hfinish, hfinish', hout, hout']
    change (fieldsOfCleaned _).mapError _ = (fieldsOfCleaned _).mapError _
    rw [hfields _ _ hrun, hfields _ _ hrun']
    exact hlock.fields_eq _
  · rw [herr, herr']
    rfl

/-- The body of a method: a call with a brace in a literal, and a comment and a block. -/
theorem fieldsOfSource_body_method :
    (fieldsOfSource (String.ofList ("class A \x7b void f() ".toList ++
        '\x7b' :: (" g(\"\x7d\"); ".toList ++ '\x7d' :: " R r; \x7d".toList)))).mapError
        SourceError.withoutLine =
      (fieldsOfSource (String.ofList ("class A \x7b void f() ".toList ++
        '\x7b' :: ("// \x7d\n \x7b \x7d".toList ++ '\x7d' :: " R r; \x7d".toList)))).mapError
        SourceError.withoutLine := by
  have hpre : ClosedCode "class A \x7b void f() ".toList "class A \x7b void f() ".toList := by
    rw [String.toList_ofList]
    exact ⟨by rfl, by decide⟩
  have hscan : "class A \x7b void f() ".toList.foldlM Scanner.step {} =
      .ok ⟨[], [.type false], " void f() ".toList.reverse, 1⟩ := by
    rw [String.toList_ofList, String.toList_ofList]
    decide +kernel
  have hopen : Scanner.OpensBody ⟨[], [.type false], " void f() ".toList.reverse, 1⟩ := by
    rw [String.toList_ofList]
    exact ⟨fun _ => by decide, fun _ => .inr (by decide +kernel)⟩
  have hbody : ClosedCode " g(\"\x7d\"); ".toList " g(\"\"); ".toList := by
    rw [String.toList_ofList, String.toList_ofList]
    exact ⟨by rfl, by decide⟩
  have hbody' : ClosedCode "// \x7d\n \x7b \x7d".toList "\n \x7b \x7d".toList := by
    rw [String.toList_ofList, String.toList_ofList]
    exact ⟨by rfl, by decide⟩
  exact fieldsOfSource_body hpre hscan hopen hbody (by rw [String.toList_ofList]; decide) hbody'
    (by rw [String.toList_ofList]; decide) _

/-- The body of a method of a class within the arguments of a call: its brace stands within
parentheses, and a semicolon of the body ends the member. -/
theorem fieldsOfSource_argument_body :
    ClosedCode " ".toList " ".toList ∧ isNested braces " ".toList = true ∧
    ClosedCode " h(); ".toList " h(); ".toList ∧ isNested braces " h(); ".toList = true ∧
    fieldsOfSource (String.ofList ("class A \x7b R r = f(new B() \x7b void g() ".toList ++
        '\x7b' :: (" ".toList ++ '\x7d' :: " \x7d); \x7d".toList))) =
      .ok [⟨"r", "R"⟩] ∧
    fieldsOfSource (String.ofList ("class A \x7b R r = f(new B() \x7b void g() ".toList ++
        '\x7b' :: (" h(); ".toList ++ '\x7d' :: " \x7d); \x7d".toList))) =
      .error (.unbalancedBraces 1) := by
  refine ⟨⟨by rw [String.toList_ofList]; rfl, by rw [String.toList_ofList]; decide⟩,
    by rw [String.toList_ofList]; decide,
    ⟨by rw [String.toList_ofList]; rfl, by rw [String.toList_ofList]; decide⟩,
    by rw [String.toList_ofList]; decide, ?_, ?_⟩
  · decide +kernel
  · decide +kernel

end EntityForge.Java
