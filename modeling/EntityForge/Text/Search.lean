/-!
# Searching in a text

`cutAtFirst p cs` cuts a text at the first place where the pattern `p` stands
(`cutAtFirst_eq_some`).
-/

namespace EntityForge.Text

/-- Cuts at the first occurrence of the pattern, given the reversed text before `cs`. -/
def cutAtFirstAfter (pattern before : List Char) : List Char → Option (List Char × List Char)
  | [] => if pattern.isEmpty then some (before.reverse, []) else none
  | c :: rest =>
    if pattern.isPrefixOf (c :: rest) then
      some (before.reverse, (c :: rest).drop pattern.length)
    else cutAtFirstAfter pattern (c :: before) rest

/-- The text before the first occurrence of the pattern and the text after it. -/
def cutAtFirst (pattern cs : List Char) : Option (List Char × List Char) :=
  cutAtFirstAfter pattern [] cs

theorem cutAtFirstAfter_eq_some {pattern before cs left right : List Char}
    (h : cutAtFirstAfter pattern before cs = some (left, right)) :
    left ++ pattern ++ right = before.reverse ++ cs := by
  fun_induction cutAtFirstAfter pattern before cs with
  | case1 before hp => simp_all [List.isEmpty_iff]
  | case2 => simp at h
  | case3 before c rest hp =>
    obtain ⟨tail, ht⟩ := List.isPrefixOf_iff_prefix.1 hp
    simp only [Option.some.injEq, Prod.mk.injEq] at h
    rw [← h.1, ← h.2, ← ht]
    simp
  | case4 before c rest hp ih => simpa using ih h

/-- The two parts and the pattern between them make up the text. -/
theorem cutAtFirst_eq_some {pattern cs left right : List Char}
    (h : cutAtFirst pattern cs = some (left, right)) : left ++ pattern ++ right = cs := by
  simpa using cutAtFirstAfter_eq_some h

end EntityForge.Text
