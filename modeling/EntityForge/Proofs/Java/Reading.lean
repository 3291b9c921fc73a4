import EntityForge.Proofs.Java.Annotated
import EntityForge.Proofs.Java.Cleaned
import EntityForge.Proofs.Java.Scanned

/-!
# Reading a source part by part

`Leads P src Q`: cleaning `src` and scanning what is left leads from every scanner in `P` to one in
`Q`. At the top of a file (`AtTop`) statements are dropped (`leads_topStatement`), until the header
of a class opens its body (`leads_classHeader`). In the body (`InClass`) every private member adds
its field (`leads_member`), and the closing brace ends the file (`leads_classEnd`).
-/

namespace EntityForge.Java

/-- Reading the text leads from every scanner in `P` to one in `Q`. -/
def Leads (P : Scanner → Prop) (src : List Char) (Q : Scanner → Prop) : Prop :=
  ∃ out, Cleans src out ∧ ∀ s, P s → ∃ t, Q t ∧ Scans out s t

theorem Leads.append {P Q R : Scanner → Prop} {a b : List Char} (h : Leads P a Q)
    (h' : Leads Q b R) : Leads P (a ++ b) R := by
  obtain ⟨x, hx, hpx⟩ := h
  obtain ⟨y, hy, hqy⟩ := h'
  refine ⟨x ++ y, hx.append hy, fun s hs => ?_⟩
  obtain ⟨t, ht, hst⟩ := hpx s hs
  obtain ⟨u, hu, htu⟩ := hqy t ht
  exact ⟨u, hu, hst.append htu⟩

theorem Leads.nil (P : Scanner → Prop) : Leads P [] P :=
  ⟨[], .nil, fun s hs => ⟨s, hs, .nil s⟩⟩

/-- Parts that each leave an invariant as it was. -/
theorem Leads.flatMap_invariant {α : Type} {P : Scanner → Prop} {xs : List α} {f : α → List Char}
    (h : ∀ x ∈ xs, Leads P (f x) P) : Leads P (xs.flatMap f) P := by
  induction xs with
  | nil => exact .nil P
  | cons x xs ih => exact (h x (.head _)).append (ih fun y hy => h y (.tail _ hy))

/-! ## Scanners between statements -/

/-- At the top of a file, before its class. -/
structure AtTop (s : Scanner) : Prop where
  scopes : s.scopes = []
  fields : s.fields = []
  statement : ∀ c ∈ s.statement, Unicode.isBlank c = true

/-- In the body of the class, after members that declare `ds`. -/
structure InClass (ds : List FieldDecl) (s : Scanner) : Prop where
  scopes : s.scopes = [.type false]
  fields : s.fields = ds.reverse
  statement : ∀ c ∈ s.statement, Unicode.isBlank c = true

/-- After a class that declares `ds`. -/
structure AtEnd (ds : List FieldDecl) (s : Scanner) : Prop where
  scopes : s.scopes = []
  fields : s.fields = ds.reverse

theorem atTop_empty : AtTop {} :=
  ⟨rfl, rfl, by simp⟩

/-- Members that each add one field. -/
theorem Leads.flatMap_members {α : Type} {xs : List α} {f : α → List Char} {g : α → FieldDecl}
    (h : ∀ x ∈ xs, ∀ ds, Leads (InClass ds) (f x) (InClass (ds ++ [g x])))
    (ds : List FieldDecl) : Leads (InClass ds) (xs.flatMap f) (InClass (ds ++ xs.map g)) := by
  induction xs generalizing ds with
  | nil => simpa using Leads.nil (InClass ds)
  | cons x xs ih =>
    have hrest := ih (fun y hy => h y (.tail _ hy)) (ds ++ [g x])
    simpa using (h x (.head _) ds).append hrest

theorem fieldsOfSource_of_leads {source : String} {ds : List FieldDecl}
    (h : Leads AtTop source.toList (AtEnd ds)) : fieldsOfSource source = .ok ds := by
  obtain ⟨out, hout, hscan⟩ := h
  obtain ⟨t, ht, hst⟩ := hscan {} atTop_empty
  rw [fieldsOfSource, hout.clean_eq_ok]
  refine (hst.fieldsOfCleaned_eq_ok ht.scopes).trans ?_
  rw [ht.fields, List.reverse_reverse]

/-! ## Statements at the top -/

theorem isInner_newline : isInner '\n' = true := rfl

/-- The newline after a statement starts the next one. -/
theorem scans_newline {s : Scanner} (hs : s.inStatement = true) :
    Scans ['\n'] s { s with statement := ' ' :: s.statement } :=
  scans_char hs isInner_newline

theorem leads_topStatement {cs : List Char} (hp : ∀ c ∈ cs, isPlain c = true)
    (hi : ∀ c ∈ cs, isInner c = true) : Leads AtTop (cs ++ [';', '\n']) AtTop := by
  have hstop : Cleans [';', '\n'] [';', '\n'] := cleans_plain (List.all_eq_true.1 (by decide))
  refine ⟨cs ++ [';', '\n'], (cleans_plain hp).append hstop, fun s hs => ?_⟩
  have hin : s.inStatement = true := by rw [Scanner.inStatement, hs.scopes]
  refine ⟨{ s with statement := [' '] }, ⟨hs.scopes, hs.fields, isBlank_of_mem_space⟩, ?_⟩
  have hend : Scans [';'] { s with statement := (oneLine cs).reverse ++ s.statement }
      { s with statement := [] } := scans_topEnd hs.scopes
  exact (scans_inner hi hin).append (hend.append (scans_newline hin))

/-! ## Annotated statements -/

/-- The annotations, each after the gap, and then the body after one more. -/
def annotated (gap : List Char) (as : List (List Char)) (body : List Char) : List Char :=
  as.flatMap (gap ++ ·) ++ (gap ++ body)

theorem annotated_nil (gap body : List Char) : annotated gap [] body = gap ++ body := rfl

theorem annotated_cons (gap a : List Char) (as : List (List Char)) (body : List Char) :
    annotated gap (a :: as) body = (gap ++ a) ++ annotated gap as body := by
  simp [annotated]

/-- The text is cleaned to an annotation that can stand in a statement. -/
def AnnotatesAs (src out : List Char) : Prop :=
  Cleans src out ∧ IsAnnotation (oneLine out) ∧ ∀ c ∈ out, isInner c = true

theorem oneLine_of_not_mem {cs : List Char} (h : '\n' ∉ cs) : oneLine cs = cs := by
  refine (List.map_congr_left fun c hc => if_neg ?_).trans (List.map_id' cs)
  rintro rfl
  exact h hc

theorem oneLine_annotated (gap : List Char) (as : List (List Char)) (body : List Char) :
    oneLine (annotated gap as body) = annotated (oneLine gap) (as.map oneLine) (oneLine body) := by
  simp [annotated, oneLine, List.map_flatMap, List.flatMap_map]

theorem strips_annotated {gap body : List Char} {as : List (List Char)} (hgap : gap ≠ [])
    (hblank : ∀ c ∈ gap, Unicode.isBlank c = true) (has : ∀ a ∈ as, IsAnnotation a)
    (hhead : ∀ c ∈ body.head?, Unicode.isBlank c = false ∧ c ≠ '(') (hbody : '@' ∉ body) :
    Strips (annotated gap as body) body := by
  suffices hrest : ∃ rest, annotated gap as body = gap ++ rest ∧
      (∀ c ∈ rest.head?, Unicode.isBlank c = false ∧ c ≠ '(') ∧ Strips rest body by
    obtain ⟨rest, heq, -, hstrips⟩ := hrest
    exact heq ▸ hstrips.blanks hblank
  induction as with
  | nil => exact ⟨body, rfl, hhead, strips_self hbody⟩
  | cons a as ih =>
    obtain ⟨rest, heq, hnext, hstrips⟩ := ih fun b hb => has b (.tail _ hb)
    have ha := has a (.head _)
    refine ⟨a ++ (gap ++ rest), ?_, ?_, hstrips.annotation ha hgap hblank hnext⟩
    · rw [← heq]
      simp [annotated]
    · obtain ⟨name, arguments, rfl, -⟩ := ha
      intro c hc
      obtain rfl : '@' = c := Option.some.inj hc
      decide

theorem openParens_annotation {a : List Char} (ha : IsAnnotation a) : openParens a = 0 := by
  obtain ⟨name, arguments, rfl, hname, -, harg⟩ := ha
  have hnone : openParens ('@' :: name) = 0 := by
    refine openParens_of_not_mem ?_ ?_
    · rw [List.mem_cons, not_or]
      exact ⟨by decide, fun hc => absurd (hname _ hc) (by decide +kernel)⟩
    · rw [List.mem_cons, not_or]
      exact ⟨by decide, fun hc => absurd (hname _ hc) (by decide +kernel)⟩
  have hargs : openParens arguments = 0 := by
    rcases harg with rfl | ⟨inner, rfl, ho, hc⟩
    · rfl
    · have hparts : openParens (['('] ++ (inner ++ [')'])) = 1 + (0 + -1) := by
        rw [openParens_append, openParens_append, openParens_of_not_mem ho hc]
        rfl
      exact hparts
  rw [← List.cons_append, openParens_append, hnone, hargs]
  rfl

theorem openParens_annotated {gap body : List Char} {as : List (List Char)}
    (hgap : openParens gap = 0) (hbody : openParens body = 0) (has : ∀ a ∈ as, IsAnnotation a) :
    openParens (annotated gap as body) = 0 := by
  induction as with
  | nil => rw [annotated_nil, openParens_append, hgap, hbody]; rfl
  | cons a as ih =>
    rw [annotated_cons, openParens_append, openParens_append, hgap,
      openParens_annotation (has a (.head _)), ih fun b hb => has b (.tail _ hb)]
    rfl

/-- The character can stand in a statement outside annotations. -/
def isBodyChar (c : Char) : Bool :=
  isPlain c && isInner c && c != '\n' && c != '@' && c != '(' && c != ')'

theorem isPlain_of_isBodyChar {c : Char} (h : isBodyChar c = true) : isPlain c = true := by
  simp only [isBodyChar, Bool.and_eq_true] at h
  exact h.1.1.1.1.1

theorem isInner_of_isBodyChar {c : Char} (h : isBodyChar c = true) : isInner c = true := by
  simp only [isBodyChar, Bool.and_eq_true] at h
  exact h.1.1.1.1.2

/-- A statement without annotations that starts with no blank. -/
structure IsBody (body : List Char) : Prop where
  chars : ∀ c ∈ body, isBodyChar c = true
  head : ∀ c ∈ body.head?, Unicode.isBlank c = false

theorem IsBody.not_mem {body : List Char} (h : IsBody body) {c : Char}
    (hc : isBodyChar c = false) : c ∉ body :=
  fun hmem => Unicode.ne_of_class (h.chars c hmem) hc rfl

theorem IsBody.plain {body : List Char} (h : IsBody body) : ∀ c ∈ body, isPlain c = true :=
  fun c hc => isPlain_of_isBodyChar (h.chars c hc)

theorem IsBody.inner {body : List Char} (h : IsBody body) : ∀ c ∈ body, isInner c = true :=
  fun c hc => isInner_of_isBodyChar (h.chars c hc)

theorem cleans_annotated {gap body : List Char} {as : List (List Char)}
    (hgap : ∀ c ∈ gap, isPlain c = true ∧ isInner c = true) (hbody : IsBody body)
    (has : ∀ a ∈ as, ∃ out, AnnotatesAs a out) : ∃ outs,
      Cleans (annotated gap as body) (annotated gap outs body) ∧
        (∀ a ∈ outs, IsAnnotation (oneLine a)) ∧
          ∀ c ∈ annotated gap outs body, isInner c = true := by
  have hplain : ∀ c ∈ gap, isPlain c = true := fun c hc => (hgap c hc).1
  induction as with
  | nil =>
    refine ⟨[], (cleans_plain hplain).append (cleans_plain hbody.plain), by simp, fun c hc => ?_⟩
    rw [annotated_nil] at hc
    rcases List.mem_append.1 hc with hc | hc
    · exact (hgap c hc).2
    · exact hbody.inner c hc
  | cons a as ih =>
    obtain ⟨out, hclean, hmark, hinner⟩ := has a (.head _)
    obtain ⟨outs, hcleans, hmarked, hinners⟩ := ih fun b hb => has b (.tail _ hb)
    refine ⟨out :: outs, ?_, ?_, ?_⟩
    · rw [annotated_cons, annotated_cons]
      exact ((cleans_plain hplain).append hclean).append hcleans
    · exact List.forall_mem_cons.2 ⟨hmark, hmarked⟩
    · rw [annotated_cons]
      intro c hc
      simp only [List.mem_append] at hc
      rcases hc with (hc | hc) | hc
      · exact (hgap c hc).2
      · exact hinner c hc
      · exact hinners c hc

/-- An annotated statement is collected, and stripped it is its body. -/
theorem scans_annotated {gap body : List Char} {as : List (List Char)} (hne : gap ≠ [])
    (hgap : ∀ c ∈ gap, c = ' ' ∨ c = '\n') (hbody : IsBody body)
    (has : ∀ a ∈ as, ∃ out, AnnotatesAs a out) : ∃ out, Cleans (annotated gap as body) out ∧
      ∀ s : Scanner, s.inStatement = true → (∀ c ∈ s.statement, Unicode.isBlank c = true) →
        ∃ stmt, Scans out s { s with statement := stmt.reverse } ∧ Strips stmt body ∧
          openParens stmt = 0 := by
  have hgap' : ∀ c ∈ gap, isPlain c = true ∧ isInner c = true := by
    intro c hc
    rcases hgap c hc with rfl | rfl <;> exact ⟨rfl, rfl⟩
  have hone : ∀ c ∈ oneLine gap, c = ' ' := by
    intro c hc
    obtain ⟨d, hd, rfl⟩ := List.mem_map.1 hc
    rcases hgap d hd with rfl | rfl <;> rfl
  have hblank : ∀ c ∈ oneLine gap, Unicode.isBlank c = true :=
    fun c hc => hone c hc ▸ by decide
  obtain ⟨outs, hclean, hmarked, hinner⟩ := cleans_annotated hgap' hbody has
  refine ⟨_, hclean, fun s hs hw => ?_⟩
  have hline : oneLine (annotated gap outs body) =
      annotated (oneLine gap) (outs.map oneLine) body := by
    rw [oneLine_annotated, oneLine_of_not_mem (hbody.not_mem (by decide))]
  have hall : ∀ a ∈ outs.map oneLine, IsAnnotation a := by
    simpa using hmarked
  have hstrips := strips_annotated (by simpa [oneLine] using hne) hblank hall
    (fun c hc => ⟨hbody.head c hc, fun heq =>
      hbody.not_mem (by decide : isBodyChar '(' = false) (heq ▸ List.mem_of_mem_head? hc)⟩)
    (hbody.not_mem (by decide))
  refine ⟨s.statement.reverse ++ oneLine (annotated gap outs body), ?_, ?_, ?_⟩
  · simpa using scans_inner hinner hs
  · rw [hline]
    exact hstrips.blanks (by simpa using hw)
  · have hparens : ∀ {w : List Char}, (∀ c ∈ w, Unicode.isBlank c = true) → openParens w = 0 :=
      fun hw => openParens_of_not_mem (fun hc => absurd (hw _ hc) (by decide))
        (fun hc => absurd (hw _ hc) (by decide))
    have hbody0 : openParens body = 0 :=
      openParens_of_not_mem (hbody.not_mem (by decide)) (hbody.not_mem (by decide))
    rw [openParens_append, hparens (by simpa using hw), hline,
      openParens_annotated (hparens hblank) hbody0 hall]
    rfl

/-! ## Classes and members -/

theorem isBodyChar_of_isIdentChar {c : Char} (h : isIdentChar c = true) : isBodyChar c = true := by
  have hmarks : c ∉ "/\"'\x7b\x7d;\n@()".toList :=
    Unicode.not_mem_of_class h (by decide +kernel)
  simpa [isBodyChar, isPlain, isInner, and_assoc] using hmarks

theorem isBodyChar_of_mem {cs : List Char} (h : isIdentifier cs = true) :
    ∀ c ∈ cs, isBodyChar c = true :=
  fun c hc => isBodyChar_of_isIdentChar (isIdentChar_of_isIdentifier h c hc)

/-- A public class at the top of a file opens its body. -/
theorem leads_classHeader {name : List Char} {as : List (List Char)}
    (hname : isIdentifier name = true) (has : ∀ a ∈ as, ∃ out, AnnotatesAs a out) :
    Leads AtTop (annotated ['\n'] as ("public class ".toList ++ (name ++ [' '])) ++ ['\x7b', '\n'])
      (InClass []) := by
  have hbody : IsBody ("public class ".toList ++ (name ++ [' '])) := by
    refine ⟨fun c hc => ?_, fun c hc => ?_⟩
    · simp only [List.mem_append] at hc
      rcases hc with hc | hc | hc
      · have hword : "public class ".toList.all isBodyChar = true := by decide
        exact List.all_eq_true.1 hword c hc
      · exact isBodyChar_of_mem hname c hc
      · exact List.mem_singleton.1 hc ▸ by decide
    · obtain rfl : 'p' = c := Option.some.inj hc
      decide
  have hgap : ∀ c ∈ ['\n'], c = ' ' ∨ c = '\n' := by simp
  obtain ⟨out, hclean, hscan⟩ := scans_annotated (List.cons_ne_nil _ _) hgap hbody has
  have hbrace : Cleans ['\x7b', '\n'] ['\x7b', '\n'] :=
    cleans_plain (List.all_eq_true.1 (by decide))
  refine ⟨out ++ ['\x7b', '\n'], hclean.append hbrace, fun s hs => ?_⟩
  have hin : s.inStatement = true := by rw [Scanner.inStatement, hs.scopes]
  obtain ⟨stmt, hstmt, hstrips, hparens⟩ := hscan s hin hs.statement
  have hopen : Scans ['\x7b'] { s with statement := stmt.reverse }
      { s with scopes := [.type false], statement := [] } :=
    scans_classOpen hs.scopes (by simpa using hparens)
      (by simpa using typeKeyword?_class hname hstrips)
  have hline : Scans ['\n'] { s with scopes := [.type false], statement := [] }
      { s with scopes := [.type false], statement := [' '] } := scans_newline rfl
  exact ⟨{ s with scopes := [.type false], statement := [' '] },
    ⟨rfl, hs.fields, isBlank_of_mem_space⟩, hstmt.append (hopen.append hline)⟩

/-- A private member of a class adds its field. -/
theorem leads_member {gap type name : List Char} {as : List (List Char)} (hne : gap ≠ [])
    (hgap : ∀ c ∈ gap, c = ' ' ∨ c = '\n') (ht : IsTypeText type)
    (hchars : ∀ c ∈ type, isBodyChar c = true) (hname : isIdentifier name = true)
    (has : ∀ a ∈ as, ∃ out, AnnotatesAs a out) (ds : List FieldDecl) :
    Leads (InClass ds)
      (annotated gap as ("private ".toList ++ (type ++ ' ' :: name)) ++ [';', '\n'])
      (InClass (ds ++ [⟨String.ofList name, String.ofList type⟩])) := by
  have hbody : IsBody ("private ".toList ++ (type ++ ' ' :: name)) := by
    refine ⟨fun c hc => ?_, fun c hc => ?_⟩
    · simp only [List.mem_append, List.mem_cons] at hc
      rcases hc with hc | hc | rfl | hc
      · have hword : "private ".toList.all isBodyChar = true := by decide
        exact List.all_eq_true.1 hword c hc
      · exact hchars c hc
      · decide
      · exact isBodyChar_of_mem hname c hc
    · obtain rfl : 'p' = c := Option.some.inj hc
      decide
  obtain ⟨out, hclean, hscan⟩ := scans_annotated hne hgap hbody has
  have hstop : Cleans [';', '\n'] [';', '\n'] := cleans_plain (List.all_eq_true.1 (by decide))
  refine ⟨out ++ [';', '\n'], hclean.append hstop, fun s hs => ?_⟩
  have hin : s.inStatement = true := by rw [Scanner.inStatement, hs.scopes]
  obtain ⟨stmt, hstmt, hstrips, -⟩ := hscan s hin hs.statement
  have hfields := fieldsOfStatement_private ht hname hstrips
  have hend := scans_memberEnd (s := { s with statement := stmt.reverse }) hs.scopes
  rw [List.reverse_reverse, hfields] at hend
  refine ⟨_, ⟨?_, ?_, ?_⟩, hstmt.append (hend.append (scans_newline hin))⟩
  · exact hs.scopes
  · simp [hs.fields]
  · exact isBlank_of_mem_space

/-- The brace that closes the class ends the file. -/
theorem leads_classEnd (ds : List FieldDecl) :
    Leads (InClass ds) ['\x7d', '\n'] (AtEnd ds) := by
  refine ⟨['\x7d', '\n'], cleans_plain (List.all_eq_true.1 (by decide)), fun s hs => ?_⟩
  have hparens : openParens s.statement.reverse = 0 := by
    refine openParens_of_not_mem (fun hc => ?_) (fun hc => ?_)
    · exact absurd (hs.statement _ (List.mem_reverse.1 hc)) (by decide)
    · exact absurd (hs.statement _ (List.mem_reverse.1 hc)) (by decide)
  exact ⟨{ s with scopes := [], statement := [' '] }, ⟨rfl, hs.fields⟩,
    (scans_classClose hs.scopes hparens).append (scans_newline rfl)⟩

end EntityForge.Java
