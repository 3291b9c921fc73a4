import EntityForge.Java.SourceUnit
import EntityForge.Proofs.Java.Cleaned

/-!
# Clean texts

`IsClean cs`: the text has no comment, and its literals are empty. Cleaning keeps such a text
(`IsClean.clean_eq_ok`), and whatever it makes is one (`isClean_of_clean`). What could go wrong are
neighbours: a comment that is dropped, or a literal that is emptied, must not bring a slash next to
a slash or a star. `Cleaner.Tidy` says that it does not, of all texts that may follow; every
character keeps it (`Cleaner.Tidy.step`).

* `clean_eq_ok_iff`: cleaning keeps exactly the clean texts.
* `fieldsOfSource_cleaned`: a source can be cleaned beforehand.
-/

namespace EntityForge.Java

/-- The character makes a comment of a slash before it. -/
def startsComment (c : Char) : Bool :=
  c == '/' || c == '*'

/-- Text without comments whose literals are all empty. -/
inductive IsClean : List Char → Prop
  | nil : IsClean []
  | plain {c : Char} {cs : List Char} (hc : isPlain c = true) (h : IsClean cs) : IsClean (c :: cs)
  | slash {cs : List Char} (hnext : ∀ c ∈ cs.head?, startsComment c = false) (h : IsClean cs) :
      IsClean ('/' :: cs)
  | literal {quote : Char} {cs : List Char} (hq : quote = '"' ∨ quote = '\'') (h : IsClean cs) :
      IsClean (quote :: quote :: cs)

/-- A slash of a clean text starts no comment. -/
theorem IsClean.not_infix {cs : List Char} (h : IsClean cs) {c : Char}
    (hc : startsComment c = true) : ¬ ['/', c] <:+: cs := by
  have hquote : ∀ {quote : Char} {cs : List Char}, quote = '"' ∨ quote = '\'' →
      ¬ ['/', c] <+: quote :: cs := by
    rintro quote cs hq hpre
    obtain ⟨rfl, -⟩ := List.cons_prefix_cons.1 hpre
    rcases hq with hq | hq <;> cases hq
  induction h with
  | nil => simp
  | plain hplain _ ih =>
    rw [List.infix_cons_iff, not_or]
    refine ⟨fun hpre => ?_, ih⟩
    obtain ⟨rfl, -⟩ := List.cons_prefix_cons.1 hpre
    exact absurd hplain (by decide)
  | @slash cs hnext _ ih =>
    rw [List.infix_cons_iff, not_or]
    refine ⟨fun hpre => ?_, ih⟩
    obtain ⟨rest, rfl⟩ := (List.cons_prefix_cons.1 hpre).2
    rw [hnext c rfl] at hc
    cases hc
  | literal hq _ ih =>
    rw [List.infix_cons_iff, List.infix_cons_iff, not_or, not_or]
    exact ⟨hquote hq, hquote hq, ih⟩

namespace Cleaner

/-! ## Clean texts are kept -/

/-- The cleaner in code, after the slash if one was waiting. -/
def settled (s : Cleaner) : Cleaner :=
  if s.mode = .slash then { s with mode := .code, out := '/' :: s.out } else s

theorem settled_of_slash {s : Cleaner} (hs : s.mode = .slash) :
    s.settled = { s with mode := .code, out := '/' :: s.out } :=
  if_pos hs

theorem settled_of_ne {s : Cleaner} (hs : s.mode ≠ .slash) : s.settled = s :=
  if_neg hs

theorem step_settled {s : Cleaner} {c : Char} (hc : s.mode = .slash → startsComment c = false) :
    s.settled.step c = s.step c := by
  by_cases hs : s.mode = .slash
  · have hc := hc hs
    simp only [startsComment, Bool.or_eq_false_iff, beq_eq_false_iff_ne] at hc
    rw [settled_of_slash hs, step, step, hs]
    simp only [stepCode, if_neg hc.1, if_neg hc.2, newline]
  · rw [settled_of_ne hs]

/-- A slash that no comment mark follows is code. -/
theorem finish_settled {s : Cleaner} {cs : List Char}
    (hcs : s.mode = .slash → ∀ c ∈ cs.head?, startsComment c = false) :
    (cs.foldl step s.settled).finish = (cs.foldl step s).finish := by
  cases cs with
  | nil =>
    by_cases hs : s.mode = .slash
    · rw [settled_of_slash hs, List.foldl_nil, List.foldl_nil, finish, finish, hs]
    · rw [settled_of_ne hs]
  | cons c cs => rw [List.foldl_cons, List.foldl_cons, step_settled fun hs => hcs hs c rfl]

end Cleaner

/-- In code, a clean text is kept to the end. -/
theorem IsClean.finish_foldl {cs : List Char} (h : IsClean cs) {s : Cleaner}
    (hs : s.mode = .code) : (cs.foldl Cleaner.step s).finish = .ok (s.out.reverse ++ cs) := by
  induction h generalizing s with
  | nil => rw [List.foldl_nil, Cleaner.finish, hs, List.append_nil]
  | @plain c cs hc _ ih =>
    obtain ⟨hmode, hout⟩ := cleans_char hc s hs
    rw [List.foldl_cons, List.foldl_nil] at hmode hout
    rw [List.foldl_cons, ih hmode, hout]
    simp
  | @slash cs hnext _ ih =>
    have hslash : s.step '/' = { s with mode := .slash } := by
      rw [Cleaner.step, hs]
      rfl
    rw [List.foldl_cons, hslash, ← Cleaner.finish_settled fun _ => hnext,
      Cleaner.settled_of_slash rfl, ih rfl]
    simp
  | @literal quote cs hq _ ih =>
    have hclean : Cleaner.step (s.step quote) quote =
        { s with out := quote :: quote :: s.out } := by
      rcases hq with rfl | rfl <;> simp [Cleaner.step, Cleaner.stepCode, hs]
    have hrest := ih (s := { s with out := quote :: quote :: s.out }) hs
    rw [List.foldl_cons, List.foldl_cons, hclean, hrest]
    simp

theorem IsClean.clean_eq_ok {cs : List Char} (h : IsClean cs) : clean cs = .ok cs :=
  h.finish_foldl (s := {}) rfl

/-! ## What cleaning makes -/

/-- Whatever clean text follows what is written, last character first, the whole is clean; if
`guarded`, of those texts alone that start with no comment mark. -/
def Admits (guarded : Prop) (out : List Char) : Prop :=
  ∀ cs, IsClean cs → (guarded → ∀ c ∈ cs.head?, startsComment c = false) →
    IsClean (out.reverse ++ cs)

namespace Admits

variable {guarded guarded' : Prop} {out : List Char}

theorem mono (h : Admits guarded out) (himp : guarded → guarded') : Admits guarded' out :=
  fun cs hcs hhead => h cs hcs fun hg => hhead (himp hg)

theorem plain (h : Admits guarded out) {c : Char} (hc : isPlain c = true)
    (hstart : guarded → startsComment c = false) : Admits guarded' (c :: out) := by
  intro cs hcs _
  rw [List.reverse_cons, List.append_assoc]
  exact h _ (.plain hc hcs) fun hg d hd => Option.some.inj hd ▸ hstart hg

/-- A slash may be written where any clean text may follow, and is guarded then. -/
theorem slash (h : Admits False out) : Admits True ('/' :: out) := by
  intro cs hcs hhead
  rw [List.reverse_cons, List.append_assoc]
  exact h _ (.slash (hhead trivial) hcs) False.elim

theorem literal (h : Admits guarded out) {quote : Char} (hq : quote = '"' ∨ quote = '\'') :
    Admits guarded' (quote :: quote :: out) := by
  intro cs hcs _
  rw [List.reverse_cons, List.reverse_cons, List.append_assoc, List.append_assoc]
  refine h _ (.literal hq hcs) fun _ d hd => ?_
  obtain rfl : quote = d := Option.some.inj hd
  rcases hq with rfl | rfl <;> rfl

end Admits

namespace Cleaner

/-- What the quote of a literal is, if one is being read. -/
def quote? (s : Cleaner) : Option Char :=
  match s.mode with
  | .literal quote _ _ => some quote
  | _ => none

/-- What is written stays clean, whatever comes. A slash that waits is not written, so what is
written is guarded within a literal alone. -/
structure Tidy (s : Cleaner) : Prop where
  admits : Admits (s.quote? ≠ none) s.out
  quote : ∀ quote, s.quote? = some quote → quote = '"' ∨ quote = '\''

theorem Tidy.of_none {s : Cleaner} (hs : s.quote? = none) (h : Admits False s.out) : s.Tidy where
  admits := h.mono False.elim
  quote quote hq := by
    rw [hs] at hq
    cases hq

theorem Tidy.admits_of_none {s : Cleaner} (h : s.Tidy) (hs : s.quote? = none) :
    Admits False s.out :=
  h.admits.mono fun hne => hne hs

theorem tidy_stepCode {guarded : Prop} {s : Cleaner} (h : Admits guarded s.out) {c : Char}
    (hc : guarded → startsComment c = false) : (s.stepCode c).Tidy := by
  unfold stepCode
  split
  · rename_i hslash
    subst hslash
    exact .of_none rfl (h.mono fun hg => absurd (hc hg) (by decide))
  · rename_i hslash
    split
    · rename_i hquote
      exact ⟨h.mono fun _ => by simp [quote?], fun quote hq => Option.some.inj hq ▸ hquote⟩
    · rename_i hquote
      split
      · exact .of_none rfl (h.plain rfl fun _ => rfl)
      · refine .of_none rfl (h.plain ?_ hc)
        simp only [not_or] at hquote
        simp [isPlain, hslash, hquote]

/-- Every character keeps what is written tidy. -/
theorem Tidy.step {s : Cleaner} (h : s.Tidy) (c : Char) : (s.step c).Tidy := by
  unfold Cleaner.step
  split
  · rename_i hs
    exact tidy_stepCode (h.admits_of_none (by simp [quote?, hs])) False.elim
  · rename_i hs
    have hout : Admits False s.out := h.admits_of_none (by simp [quote?, hs])
    split
    · exact .of_none rfl hout
    · rename_i hslash
      split
      · exact .of_none rfl hout
      · rename_i hstar
        exact tidy_stepCode (s := { s with out := '/' :: s.out }) hout.slash
          fun _ => by simp [startsComment, hslash, hstar]
  · rename_i hs
    have hout : Admits False s.out := h.admits_of_none (by simp [quote?, hs])
    split
    · exact .of_none rfl (hout.plain rfl fun _ => rfl)
    · exact h
  · rename_i start star hs
    have hout : Admits False s.out := h.admits_of_none (by simp [quote?, hs])
    split
    · exact .of_none rfl (hout.plain rfl fun _ => rfl)
    · split
      · exact .of_none rfl (hout.plain rfl fun _ => rfl)
      · exact .of_none rfl hout
  · rename_i quote start escaped hs
    have hquote : s.quote? = some quote := by simp [quote?, hs]
    have hq := h.quote quote hquote
    have hkept : ∀ escaped, Tidy { s with mode := .literal quote start escaped } := by
      refine fun escaped => ⟨h.admits.mono fun _ => ?_, fun q hq' => ?_⟩
      · simp [quote?]
      · exact h.quote q (hquote.trans hq')
    split
    · exact hkept false
    · split
      · exact hkept true
      · split
        · have hout : Admits (s.newline.quote? ≠ none) s.newline.out :=
            h.admits.plain rfl fun _ => rfl
          exact ⟨hout, h.quote⟩
        · split
          · exact .of_none rfl (h.admits.literal hq)
          · exact h

theorem Tidy.foldl {s : Cleaner} (h : s.Tidy) (cs : List Char) : (cs.foldl Cleaner.step s).Tidy := by
  induction cs generalizing s with
  | nil => exact h
  | cons c cs ih => exact ih (h.step c)

theorem tidy_empty : ({} : Cleaner).Tidy :=
  .of_none rfl fun _ hcs _ => hcs

/-- At the end what is written is clean, with the slash that may still wait. -/
theorem Tidy.isClean_of_finish {s : Cleaner} (h : s.Tidy) {out : List Char}
    (hout : s.finish = .ok out) : IsClean out := by
  unfold finish at hout
  split at hout
  · rename_i hs
    obtain rfl := Except.ok.inj hout
    simpa using h.admits_of_none (by simp [quote?, hs]) [] .nil False.elim
  · rename_i hs
    obtain rfl := Except.ok.inj hout
    simpa using h.admits_of_none (by simp [quote?, hs]) [] .nil False.elim
  · rename_i hs
    obtain rfl := Except.ok.inj hout
    simpa using (h.admits_of_none (by simp [quote?, hs])).slash [] .nil (by simp)
  · cases hout
  · cases hout

end Cleaner

/-- Whatever cleaning makes is clean. -/
theorem isClean_of_clean {cs out : List Char} (h : clean cs = .ok out) : IsClean out :=
  (Cleaner.tidy_empty.foldl cs).isClean_of_finish h

/-- Cleaning keeps exactly the clean texts. -/
theorem clean_eq_ok_iff {cs : List Char} : clean cs = .ok cs ↔ IsClean cs :=
  ⟨isClean_of_clean, IsClean.clean_eq_ok⟩

/-! ## Sources -/

/-- A cleaned source has no comment and only empty literals, so it is clean when it is cleaned
again, and it is read as the source is. -/
theorem fieldsOfSource_cleaned {source : String} {cleaned : List Char}
    (h : clean source.toList = .ok cleaned) :
    clean cleaned = .ok cleaned ∧ IsClean cleaned ∧
      (∀ c, startsComment c = true → ¬ ['/', c] <:+: cleaned) ∧
        fieldsOfSource (String.ofList cleaned) = fieldsOfSource source := by
  have hclean := isClean_of_clean h
  refine ⟨hclean.clean_eq_ok, hclean, fun c => hclean.not_infix, ?_⟩
  rw [fieldsOfSource, fieldsOfSource, String.toList_ofList, hclean.clean_eq_ok, h]

/-- Slashes and stars beside comments, and marks of comments within literals. -/
theorem fieldsOfSource_cleaned_slashes :
    clean "class A \x7b int a = 8 //* 2\n / /**/ / 4; R r = \"\\\"//\"/'*'; \x7d".toList =
      .ok "class A \x7b int a = 8 \n /   / 4; R r = \"\"/''; \x7d".toList ∧
    clean "class A \x7b int a = 8 \n /   / 4; R r = \"\"/''; \x7d".toList =
      .ok "class A \x7b int a = 8 \n /   / 4; R r = \"\"/''; \x7d".toList ∧
    fieldsOfSource (String.ofList "class A \x7b int a = 8 \n /   / 4; R r = \"\"/''; \x7d".toList) =
      fieldsOfSource "class A \x7b int a = 8 //* 2\n / /**/ / 4; R r = \"\\\"//\"/'*'; \x7d" := by
  have h : clean "class A \x7b int a = 8 //* 2\n / /**/ / 4; R r = \"\\\"//\"/'*'; \x7d".toList =
      .ok "class A \x7b int a = 8 \n /   / 4; R r = \"\"/''; \x7d".toList := by
    rw [String.toList_ofList, String.toList_ofList]
    rfl
  obtain ⟨hagain, -, -, hfields⟩ := fieldsOfSource_cleaned h
  exact ⟨h, hagain, hfields⟩

end EntityForge.Java
