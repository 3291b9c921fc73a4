/-!
# Splitting a text

`splitBy p` cuts a text at every character that satisfies `p`; `piecesBy p` leaves out the empty
pieces.
-/

namespace EntityForge.Text

/-- The pieces of a text between the characters that satisfy `p`, the empty ones included. -/
def splitBy (p : Char → Bool) : List Char → List (List Char)
  | [] => [[]]
  | c :: rest =>
    if p c then [] :: splitBy p rest
    else
      match splitBy p rest with
      | [] => [[c]]
      | piece :: pieces => (c :: piece) :: pieces

/-- The pieces of a text between the characters that satisfy `p`, the empty ones left out. -/
def piecesBy (p : Char → Bool) (cs : List Char) : List (List Char) :=
  (splitBy p cs).filter fun piece => !piece.isEmpty

theorem splitBy_ne_nil (p : Char → Bool) (cs : List Char) : splitBy p cs ≠ [] := by
  cases cs with
  | nil => simp [splitBy]
  | cons c rest =>
    simp only [splitBy]
    split
    · simp
    · split <;> simp

end EntityForge.Text
