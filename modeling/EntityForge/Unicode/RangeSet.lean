/-!
# Sets of characters given by ranges

A property of characters is a sorted list of ranges of code points. `RangeSet.contains` looks a
character up and stops at the first range that lies beyond it; on a sorted list that is membership
in one of the ranges (`RangeSet.containsCode_eq_any`).
-/

namespace EntityForge.Unicode

/-- Ranges of code points, ends included, in increasing order. -/
abbrev RangeSet := List (Nat × Nat)

namespace RangeSet

/-- The code point lies in a range of the set. -/
def containsCode : RangeSet → Nat → Bool
  | [], _ => false
  | (first, last) :: rest, n =>
    if n < first then false else if n ≤ last then true else containsCode rest n

/-- The character lies in a range of the set. -/
def contains (s : RangeSet) (c : Char) : Bool :=
  s.containsCode c.toNat

/-- Each range is not empty and ends before the next one starts. -/
def IsSorted (s : RangeSet) : Prop :=
  (∀ r ∈ s, r.1 ≤ r.2) ∧ s.Pairwise fun r t => r.2 < t.1

theorem containsCode_eq_any {s : RangeSet} (h : IsSorted s) (n : Nat) :
    s.containsCode n = s.any fun r => decide (r.1 ≤ n) && decide (n ≤ r.2) := by
  induction s with
  | nil => rfl
  | cons r rest ih =>
    obtain ⟨hne, hlt⟩ := h
    rw [List.pairwise_cons] at hlt
    have ih := ih ⟨fun t ht => hne t (.tail _ ht), hlt.2⟩
    by_cases h1 : n < r.1
    · have hrest : (rest.any fun t => decide (t.1 ≤ n) && decide (n ≤ t.2)) = false := by
        rw [List.any_eq_false]
        intro t ht
        have h2 := hlt.1 t ht
        have h3 := hne r (.head _)
        simp only [Bool.and_eq_true, decide_eq_true_eq, not_and]
        omega
      have h2 : ¬ r.1 ≤ n := Nat.not_le_of_lt h1
      simp [containsCode, h1, h2, hrest]
    · by_cases h2 : n ≤ r.2
      · simp [containsCode, h1, h2, Nat.le_of_not_lt h1]
      · simp [containsCode, h1, h2, ih]

end RangeSet

end EntityForge.Unicode
