import EntityForge.Java.Cleaning
import Mathlib.Data.List.Basic

/-!
# Cleaning part by part

`Cleans src out`: wherever code goes on with `src`, cleaning makes `out` of it and is back in code.
Text without slashes and quotes is kept (`cleans_plain`), a literal without its quote and without
backslashes is emptied down to its newlines (`cleans_literal`), and parts are cleaned one after the
other (`Cleans.append`). `Cleans.clean_eq_ok` is the whole text.
-/

namespace EntityForge.Java

/-- Within code, cleaning makes `out` of `src` and is back in code. -/
def Cleans (src out : List Char) : Prop :=
  ∀ s : Cleaner, s.mode = .code →
    (src.foldl Cleaner.step s).mode = .code ∧
      (src.foldl Cleaner.step s).out = out.reverse ++ s.out

/-- The character starts neither a comment nor a literal. -/
def isPlain (c : Char) : Bool :=
  c != '/' && c != '"' && c != '\''

theorem Cleans.nil : Cleans [] [] :=
  fun _ hs => ⟨hs, rfl⟩

theorem Cleans.append {a b x y : List Char} (ha : Cleans a x) (hb : Cleans b y) :
    Cleans (a ++ b) (x ++ y) := by
  intro s hs
  obtain ⟨hmode, hout⟩ := ha s hs
  obtain ⟨hmode', hout'⟩ := hb _ hmode
  rw [List.foldl_append]
  exact ⟨hmode', by rw [hout', hout, List.reverse_append, List.append_assoc]⟩

theorem cleans_char {c : Char} (hc : isPlain c = true) : Cleans [c] [c] := by
  intro s hs
  simp only [isPlain, Bool.and_eq_true, bne_iff_ne] at hc
  rw [List.foldl_cons, List.foldl_nil, Cleaner.step, hs]
  dsimp only
  rw [Cleaner.stepCode, if_neg hc.1.1, if_neg (not_or.2 ⟨hc.1.2, hc.2⟩)]
  split
  · rename_i hn
    exact ⟨rfl, by rw [hn]; rfl⟩
  · exact ⟨rfl, rfl⟩

theorem cleans_plain {cs : List Char} (h : ∀ c ∈ cs, isPlain c = true) : Cleans cs cs := by
  induction cs with
  | nil => exact .nil
  | cons c cs ih => exact (cleans_char (h c (.head _))).append (ih fun d hd => h d (.tail _ hd))

/-! ## Literals -/

/-- Within a literal only newlines are kept. -/
theorem foldl_step_literal {quote : Char} {start : Nat} {cs : List Char} (hq : quote ∉ cs)
    (hb : '\\' ∉ cs) {s : Cleaner} (hs : s.mode = .literal quote start false) :
    (cs.foldl Cleaner.step s).mode = .literal quote start false ∧
      (cs.foldl Cleaner.step s).out = (cs.filter (· = '\n')).reverse ++ s.out := by
  induction cs generalizing s with
  | nil => exact ⟨hs, rfl⟩
  | cons c cs ih =>
    rw [List.mem_cons, not_or] at hq hb
    have hstep : (s.step c).mode = .literal quote start false ∧
        (s.step c).out = ([c].filter (· = '\n')).reverse ++ s.out := by
      rw [Cleaner.step, hs]
      by_cases hn : c = '\n'
      · simp [hn, Cleaner.newline, hs]
      · simp [Ne.symm hb.1, hn, Ne.symm hq.1, hs]
    obtain ⟨hmode, hout⟩ := ih hq.2 hb.2 hstep.1
    refine ⟨hmode, ?_⟩
    rw [List.foldl_cons, hout, hstep.2, ← List.append_assoc, ← List.reverse_append,
      ← List.filter_append, List.singleton_append]

/-- A literal is emptied, but for the newlines in it, which come before it. -/
theorem cleans_literal {cs : List Char} (hq : '"' ∉ cs) (hb : '\\' ∉ cs) :
    Cleans ('"' :: (cs ++ ['"'])) (cs.filter (· = '\n') ++ ['"', '"']) := by
  intro s hs
  have hopen : (s.step '"').mode = .literal '"' s.line false ∧ (s.step '"').out = s.out := by
    rw [Cleaner.step, hs]
    exact ⟨rfl, rfl⟩
  obtain ⟨hmode, hout⟩ := foldl_step_literal hq hb hopen.1
  rw [List.foldl_cons, List.foldl_append, List.foldl_cons, List.foldl_nil, Cleaner.step, hmode]
  refine ⟨rfl, ?_⟩
  simp [hout, hopen.2]

/-! ## Whole texts -/

theorem Cleans.clean_eq_ok {src out : List Char} (h : Cleans src out) : clean src = .ok out := by
  obtain ⟨hmode, hout⟩ := h {} rfl
  rw [clean, Cleaner.finish, hmode]
  simp [hout]

end EntityForge.Java
