import EntityForge.Proofs.Change.Recovery
import EntityForge.Proofs.Java.Bodies
import EntityForge.Proofs.Java.Declarations
import EntityForge.Proofs.Java.SameStatement
import EntityForge.Proofs.Java.TypeGaps
import Mathlib.Logic.Relation

/-!
# Sources that are reformatted

`Respaced a b`: the sources differ in the blanks of one gap between two tokens. In a field declaration
the gap must be loose (`FreeGap.loose`): next to a dot, a question mark or an ampersand of the type,
blanks must not come or go. Everywhere else no blanks matter: the scanners read the same statement
(`FreeGap.fields_eq`). So sources that are reformatted gap by gap declare the same fields, and nothing
has changed between them (`fieldsOfSource_reformatted`).

`changesOfSources_spacedName` is a type whose dots stand between blanks: it is taken for another one.
-/

namespace EntityForge.Java

open Text (isNested isNested_iff)

/-! ## Blanks of a gap -/

theorem isNested_blanks {w : List Char} (hw : ∀ c ∈ w, Unicode.isBlank c = true) :
    isNested braces w = true := by
  refine isNested_iff.2 (Text.nest_other fun c hc => ?_)
  have hne : ∀ d : Char, Unicode.isBlank d = false → c ≠ d :=
    fun d hd => Unicode.ne_of_class (hw c hc) hd
  simp [braces, List.lookup_cons, beq_false_of_ne (hne '\x7b' (by decide)),
    Ne.symm (hne '\x7d' (by decide))]

theorem clean_blanks {w : List Char} (hw : ∀ c ∈ w, Unicode.isBlank c = true) {post cpost : List Char}
    (h : clean post = .ok cpost) : clean (w ++ post) = .ok (w ++ cpost) :=
  (cleans_plain fun c hc => isPlain_of_isBlank (hw c hc)).clean_append h

theorem startsComment_of_isBlank {c : Char} (h : Unicode.isBlank c = true) :
    startsComment c = false := by
  have hne : ∀ d : Char, Unicode.isBlank d = false → c ≠ d := fun d hd => Unicode.ne_of_class h hd
  simp [startsComment, hne '/' (by decide), hne '*' (by decide)]

/-- Blanks at the end of a statement. -/
theorem RespacesIn.of_blanks {w v : List Char} (hw : ∀ c ∈ w, Unicode.isBlank c = true)
    (hv : ∀ c ∈ v, Unicode.isBlank c = true) (x : List Char) : RespacesIn x [] w v := by
  have hfollows : ∀ {u : List Char}, (∀ c ∈ u, Unicode.isBlank c = true) → Follows x (u ++ []) := by
    intro u hu _ c hc
    rw [List.append_nil] at hc
    exact isAnnotationChar_of_isBlank (hu c (List.mem_of_mem_head? hc))
  exact ⟨⟨hw, hv, .inr (by simp)⟩, hfollows hw, hfollows hv⟩

/-! ## One gap -/

/-- Where the scanner `s` goes on with the rest `post` of a cleaned source, the blanks `v` may stand
in the place of `w`: no token is cut in two or runs across, and in a statement of a class body that
declares fields the gap is loose. -/
structure FreeGap (s : Scanner) (w v post : List Char) : Prop where
  left : ∀ c ∈ w, Unicode.isBlank c = true
  right : ∀ c ∈ v, Unicode.isBlank c = true
  tokens : s.inStatement = true →
    RespacesIn s.statement.reverse (oneLine (post.take 1)) (oneLine w) (oneLine v)
  loose : s.scopes.head? = some (.type false) → ∀ t z, w.foldlM Scanner.step s = .ok t →
    t.statementNext? post = some (s.statement.reverse ++ (oneLine w ++ z)) →
      stripAnnotations (s.statement.reverse ++ (oneLine w ++ z)) =
        stripAnnotations s.statement.reverse ++ (oneLine w ++ stripAnnotations z) →
          Loose (stripAnnotations s.statement.reverse) (stripAnnotations z) (oneLine w) (oneLine v)

namespace FreeGap

variable {s : Scanner} {w v post : List Char}

/-- The statement up to the gap, and the gap, look the same to a brace. -/
theorem braceAlike (h : FreeGap s w v post) (m n : Nat) :
    BraceAlike ⟨s.fields, s.scopes, (oneLine w).reverse ++ s.statement, m⟩
      ⟨s.fields, s.scopes, (oneLine v).reverse ++ s.statement, n⟩ := by
  have hw := isBlank_oneLine h.left
  have hv := isBlank_oneLine h.right
  have hgap := RespacesIn.of_blanks hw hv s.statement.reverse
  refine ⟨rfl, rfl, ?_, ?_, ?_⟩
  · simp only [List.reverse_append, List.reverse_reverse, openParens_append, openParens_blanks hw,
      openParens_blanks hv]
  · simpa using hgap.hasInitializer_eq
  · simpa using hgap.typeKeyword?_eq

/-- At its semicolon a statement of a class body declares the same fields. -/
theorem fieldsOfStatement_eq (h : FreeGap s w v post)
    (hmember : s.scopes.head? = some (.type false)) {t : Scanner}
    (hw : w.foldlM Scanner.step s = .ok t) {z : List Char}
    (hz : t.statementNext? post = some (s.statement.reverse ++ (oneLine w ++ z)))
    (hgap : RespacesIn s.statement.reverse z (oneLine w) (oneLine v)) :
    fieldsOfStatement (s.statement.reverse ++ (oneLine w ++ z)) =
      fieldsOfStatement (s.statement.reverse ++ (oneLine v ++ z)) :=
  hgap.fieldsOfStatement_eq (h.loose hmember t z hw hz)

/-- The initial value of a statement starts after the gap. -/
theorem lockstep_initializer (h : FreeGap s w v post) (hself : Lockstep s s) (m n : Nat)
    (htype : s.inType = true)
    (hinit : hasInitializer ((oneLine w).reverse ++ s.statement).reverse = true) :
    Lockstep ⟨s.fields, .initializer :: s.scopes, (oneLine w).reverse ++ s.statement, m⟩
      ⟨s.fields, .initializer :: s.scopes, (oneLine v).reverse ++ s.statement, n⟩ := by
  have hw := isBlank_oneLine h.left
  have hvalue : hasInitializer s.statement.reverse = true := by
    have hgap := (RespacesIn.of_blanks hw (v := []) (by simp) s.statement.reverse).hasInitializer_eq
    rw [← hinit]
    simpa using hgap.symm
  have hagree := (hself.openInitializer htype hvalue).agree.blanks (by simp) hw
    (isBlank_oneLine h.right)
  exact ⟨rfl, rfl, by simpa using hagree⟩

/-- A character of the statement after the gap: then the gap does not matter to the rest. -/
theorem fields_eq_push {c : Char} {cs : List Char} (h : FreeGap s w v (c :: cs)) (hc : c ≠ ';')
    (htypes : AllTypes s.scopes) (hin : s.inStatement = true) {m : Nat}
    (hw : w.foldlM Scanner.step s =
      .ok ⟨s.fields, s.scopes, (oneLine w).reverse ++ s.statement, m⟩) {k : Nat} (l : Nat)
    (hs : Scanner.step ⟨s.fields, s.scopes, (oneLine w).reverse ++ s.statement, m⟩ c =
      .ok (Scanner.push ⟨s.fields, s.scopes, (oneLine w).reverse ++ s.statement, k⟩
        (if c = '\n' then ' ' else c))) :
    (cs.foldlM Scanner.step
        (Scanner.push ⟨s.fields, s.scopes, (oneLine w).reverse ++ s.statement, k⟩
          (if c = '\n' then ' ' else c)) >>= Scanner.finish).mapError SourceError.withoutLine =
      (cs.foldlM Scanner.step
        (Scanner.push ⟨s.fields, s.scopes, (oneLine v).reverse ++ s.statement, l⟩
          (if c = '\n' then ' ' else c)) >>= Scanner.finish).mapError SourceError.withoutLine := by
  have hgap := h.tokens hin
  have hsame : SameStatement s.scopes
      (s.statement.reverse ++ (oneLine w ++ oneLine ((c :: cs).take 1)))
      (s.statement.reverse ++ (oneLine v ++ oneLine ((c :: cs).take 1)))
      (Scanner.push ⟨s.fields, s.scopes, (oneLine w).reverse ++ s.statement, k⟩
        (if c = '\n' then ' ' else c))
      (Scanner.push ⟨s.fields, s.scopes, (oneLine v).reverse ++ s.statement, l⟩
        (if c = '\n' then ' ' else c)) :=
    ⟨rfl, rfl, htypes, .inl rfl, [], by simp [Scanner.push, oneLine],
      by simp [Scanner.push, oneLine]⟩
  refine hsame.fields_eq (hgap.readAlike (by simp [oneLine])) (by simp [oneLine]) cs
    fun hmember z hz => ?_
  have hnext : Scanner.statementNext?
      ⟨s.fields, s.scopes, (oneLine w).reverse ++ s.statement, m⟩ (c :: cs) =
        some (s.statement.reverse ++ (oneLine w ++ (oneLine ((c :: cs).take 1) ++ z))) := by
    rw [Scanner.statementNext?, if_neg fun hend => hc hend.1, hs]
    simpa [Scanner.push] using hz
  simpa using h.fieldsOfStatement_eq hmember hw hnext (hgap.append (by simp [oneLine]) z)

/-- In a statement the gap does not matter. -/
theorem fields_eq_statement (h : FreeGap s w v post) (hself : Lockstep s s)
    (hin : s.inStatement = true) {m : Nat} (n : Nat)
    (hw : w.foldlM Scanner.step s =
      .ok ⟨s.fields, s.scopes, (oneLine w).reverse ++ s.statement, m⟩) :
    (post.foldlM Scanner.step ⟨s.fields, s.scopes, (oneLine w).reverse ++ s.statement, m⟩ >>=
        Scanner.finish).mapError SourceError.withoutLine =
      (post.foldlM Scanner.step ⟨s.fields, s.scopes, (oneLine v).reverse ++ s.statement, n⟩ >>=
        Scanner.finish).mapError SourceError.withoutLine := by
  have htypes := (hself.braceAlike hin).1
  have hbraces := h.braceAlike m n
  cases post with
  | nil =>
    change Except.mapError _ (Scanner.finish _) = Except.mapError _ (Scanner.finish _)
    rw [Scanner.finish, Scanner.finish]
    split <;> rfl
  | cons c cs =>
    rw [List.foldlM_cons, List.foldlM_cons]
    by_cases hc : c = ';'
    · subst hc
      rw [Scanner.step_semicolon, Scanner.step_semicolon]
      refine (hbraces.endStatement htypes fun hmember => ?_).fields_eq cs
      have hend := h.fieldsOfStatement_eq hmember hw (z := []) (by
        rw [Scanner.statementNext?, if_pos ⟨rfl, hin⟩]
        simp) (.of_blanks (isBlank_oneLine h.left) (isBlank_oneLine h.right) _)
      simpa using hend
    · rcases hbraces.step htypes hc with ⟨k, l, hs, ht⟩ | ⟨htype, hinit, hs, ht⟩ |
        ⟨s', t', hs, ht, hlock⟩ | ⟨k, l, hs, ht⟩
      · rw [hs, ht]
        exact h.fields_eq_push hc htypes hin hw l hs
      · rw [hs, ht]
        exact (h.lockstep_initializer hself m n htype hinit).fields_eq cs
      · rw [hs, ht]
        exact hlock.fields_eq cs
      · rw [hs, ht]
        rfl

theorem fields_eq (h : FreeGap s w v post) {cpre : List Char}
    (hs : cpre.foldlM Scanner.step {} = .ok s) :
    ((w ++ post).foldlM Scanner.step s >>= Scanner.finish).mapError SourceError.withoutLine =
      ((v ++ post).foldlM Scanner.step s >>= Scanner.finish).mapError SourceError.withoutLine := by
  have hself := Lockstep.of_foldlM hs
  rw [List.foldlM_append, List.foldlM_append]
  cases hin : s.inStatement with
  | false =>
    obtain ⟨t, t', hw, hv, hlock⟩ :=
      hself.nested hin (isNested_blanks h.left) (isNested_blanks h.right)
    rw [hw, hv]
    exact hlock.fields_eq post
  | true =>
    obtain ⟨m, hw⟩ := scans_inner (fun c hc => isInner_of_isBlank (h.left c hc)) hin s.line
    obtain ⟨n, hv⟩ := scans_inner (fun c hc => isInner_of_isBlank (h.right c hc)) hin s.line
    replace hw : w.foldlM Scanner.step s = .ok _ := hw
    replace hv : v.foldlM Scanner.step s = .ok _ := hv
    rw [hw, hv]
    exact h.fields_eq_statement hself hin n hw

end FreeGap

/-! ## Sources -/

/-- The sources differ in the blanks of one gap that stands in code: the texts before and after it
are cleaned to `cpre` and `cpost`. -/
inductive Respaced : List Char → List Char → Prop
  | gap {pre cpre post cpost w v : List Char} {s : Scanner} (hpre : ClosedCode pre cpre)
      (hpost : clean post = .ok cpost) (hslash : (pre.foldl Cleaner.step {}).mode = .slash →
        w = [] ∨ v = [] → ∀ c ∈ post.head?, startsComment c = false)
      (hscan : cpre.foldlM Scanner.step {} = .ok s) (hgap : FreeGap s w v cpost) :
      Respaced (pre ++ (w ++ post)) (pre ++ (v ++ post))

/-- Around a gap that stands in code a source is cleaned part by part. -/
theorem clean_gap {pre cpre post cpost w : List Char} (hpre : ClosedCode pre cpre)
    (hpost : clean post = .ok cpost) (hw : ∀ c ∈ w, Unicode.isBlank c = true)
    (hslash : (pre.foldl Cleaner.step {}).mode = .slash → w = [] →
      ∀ c ∈ post.head?, startsComment c = false) :
    clean (pre ++ (w ++ post)) = .ok (cpre ++ (w ++ cpost)) := by
  refine hpre.clean_append (clean_blanks hw hpost) fun hmode c hc => ?_
  cases w with
  | nil => exact hslash hmode rfl c hc
  | cons d w =>
    obtain rfl : d = c := Option.some.inj hc
    exact startsComment_of_isBlank (hw d (.head _))

theorem Respaced.fieldsOfSource {a b : List Char} (h : Respaced a b) :
    (fieldsOfSource (String.ofList a)).mapError SourceError.withoutLine =
      (fieldsOfSource (String.ofList b)).mapError SourceError.withoutLine := by
  cases h with
  | @gap pre cpre post cpost w v s hpre hpost hslash hscan hgap =>
    rw [Java.fieldsOfSource, Java.fieldsOfSource, String.toList_ofList, String.toList_ofList,
      clean_gap hpre hpost hgap.left fun hmode hw => hslash hmode (.inl hw),
      clean_gap hpre hpost hgap.right fun hmode hv => hslash hmode (.inr hv)]
    change (fieldsOfCleaned _).mapError _ = (fieldsOfCleaned _).mapError _
    rw [fieldsOfCleaned, fieldsOfCleaned, List.foldlM_append, List.foldlM_append, hscan]
    exact hgap.fields_eq hscan

/-- A source that is reformatted gap by gap declares the same fields, and nothing has changed. -/
theorem fieldsOfSource_reformatted {a b : List Char} {fields : List FieldDecl}
    (h : Relation.ReflTransGen Respaced a b)
    (hok : fieldsOfSource (String.ofList a) = .ok fields) :
    fieldsOfSource (String.ofList b) = .ok fields ∧
      changesOfSources (String.ofList a) (String.ofList b) = .ok [] := by
  have hok' : fieldsOfSource (String.ofList b) = .ok fields := by
    induction h with
    | refl => exact hok
    | tail _ hstep ih => exact eq_ok_of_withoutLine_eq hstep.fieldsOfSource ih
  exact ⟨hok', changesOfSources_self hok hok'⟩

/-- A blank within the type arguments, and then a line break before the name. -/
theorem fieldsOfSource_reformatted_map :
    fieldsOfSource (String.ofList ("class A \x7b Map< K,V>".toList ++
        ("\n  ".toList ++ "m; \x7d".toList))) = .ok [⟨"m", "Map<K, V>"⟩] ∧
    changesOfSources (String.ofList ("class A \x7b Map<".toList ++ ([] ++ "K,V>m; \x7d".toList)))
      (String.ofList ("class A \x7b Map< K,V>".toList ++ ("\n  ".toList ++ "m; \x7d".toList))) =
        .ok [] := by
  have hfollows : ∀ {x : List Char}, '@' ∉ x → ∀ r, Follows x r := by
    rintro x hx r ⟨lead, name, rfl, -⟩
    simp at hx
  have hgap : ∀ {x r v : List Char} {c : Char}, '@' ∉ x → x.getLast? = some c →
      isIdentChar c = false → v.all Unicode.isBlank = true → RespacesIn x r [] v := by
    intro x r v c hx hlast hc hv
    refine ⟨⟨by simp, List.all_eq_true.1 hv, .inr fun d hd e he hident => ?_⟩, hfollows hx _,
      hfollows hx _⟩
    rw [stripAnnotations_of_not_mem hx, hlast] at hd
    obtain rfl := Option.some.inj hd
    rw [hc] at hident
    cases hident
  -- a blank after the opening bracket
  have hargs : Respaced ("class A \x7b Map<".toList ++ ([] ++ "K,V>m; \x7d".toList))
      ("class A \x7b Map<".toList ++ ([' '] ++ "K,V>m; \x7d".toList)) := by
    rw [String.toList_ofList, String.toList_ofList]
    refine .gap (s := ⟨[], [.type false], "<paM ".toList, 1⟩) ⟨rfl, by decide⟩ rfl (by decide)
      (by rw [String.toList_ofList]; decide +kernel)
      ⟨by simp, isBlank_of_mem_space, fun _ => ?_, fun _ t z _ _ _ => ?_⟩
    · rw [String.toList_ofList]
      exact hgap (c := '<') (by decide) rfl (by decide +kernel) rfl
    · rw [String.toList_ofList]
      exact .glued (.inl ⟨'<', by decide +kernel, rfl⟩) ⟨['M', 'a', 'p', '<'], by decide +kernel,
        by decide⟩
  have hname : Respaced ("class A \x7b Map< K,V>".toList ++ ([] ++ "m; \x7d".toList))
      ("class A \x7b Map< K,V>".toList ++ ("\n  ".toList ++ "m; \x7d".toList)) := by
    rw [String.toList_ofList, String.toList_ofList, String.toList_ofList]
    refine .gap (s := ⟨[], [.type false], ">V,K <paM ".toList, 1⟩) ⟨rfl, by decide⟩ rfl (by decide)
      (by rw [String.toList_ofList]; decide +kernel)
      ⟨by simp, List.all_eq_true.1 rfl, fun _ => ?_, fun _ t z ht hz _ => ?_⟩
    · rw [String.toList_ofList]
      exact hgap (c := '>') (by decide) rfl (by decide +kernel) rfl
    · obtain rfl := Except.ok.inj ht
      have hnext : Scanner.statementNext? ⟨[], [.type false], ">V,K <paM ".toList, 1⟩
          ['m', ';', ' ', '\x7d'] = some (">V,K <paM ".toList.reverse ++ (oneLine [] ++ ['m'])) := by
        rw [String.toList_ofList]
        decide +kernel
      obtain rfl : ['m'] = z := by
        have hsame := Option.some.inj (hnext.symm.trans hz)
        simpa using hsame
      rw [String.toList_ofList]
      exact .name (by decide +kernel)
        ⟨['m'], [], [], 0, by decide +kernel, .blanks (by simp), by decide +kernel, by simp⟩
  have hmid : "class A \x7b Map<".toList ++ ([' '] ++ "K,V>m; \x7d".toList) =
      "class A \x7b Map< K,V>".toList ++ ([] ++ "m; \x7d".toList) := by
    rw [String.toList_ofList, String.toList_ofList, String.toList_ofList, String.toList_ofList]
    rfl
  have hboth := (Relation.ReflTransGen.single hargs).tail (hmid ▸ hname)
  exact fieldsOfSource_reformatted hboth (by decide +kernel)

/-- The dots of a qualified name stand between blanks: the same tokens are taken for another type. -/
theorem changesOfSources_spacedName :
    "class A \x7b java.util.List<R> x; \x7d" = String.join (List.zipWith (· ++ ·)
      ["class", "A", "\x7b", "java", ".", "util", ".", "List", "<", "R", ">", "x", ";", "\x7d"]
      [" ", " ", " ", "", "", "", "", "", "", "", " ", "", " ", ""]) ∧
    "class A \x7b java . util . List<R> x; \x7d" = String.join (List.zipWith (· ++ ·)
      ["class", "A", "\x7b", "java", ".", "util", ".", "List", "<", "R", ">", "x", ";", "\x7d"]
      [" ", " ", " ", " ", " ", " ", " ", "", "", "", " ", "", " ", ""]) ∧
    changesOfSources "class A \x7b java.util.List<R> x; \x7d"
      "class A \x7b java . util . List<R> x; \x7d" = .ok [⟨"x", .modified,
        "changed from java.util.List<R> to java . util . List<R>"⟩] := by
  decide +kernel

end EntityForge.Java
