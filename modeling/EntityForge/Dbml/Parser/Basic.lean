import EntityForge.Dbml.Error
import EntityForge.Schema.Basic
import EntityForge.Text.Ascii

/-!
# Names and blocks

Readers take the tokens that are left and give a value with the tokens after it. The end of the
document is an error of its own (`failure`), except where a reader says otherwise. A reader that
succeeds leaves fewer tokens (`parseName_length_lt`, `skipBlock_length_lt`, …), so loops over readers
end.
-/

namespace EntityForge.Dbml

/-- What a reader gives: a value and the tokens that are left. -/
abbrev Parsed (α : Type) := α × List Token

theorem bind_eq_ok {ε α β : Type} {x : Except ε α} {f : α → Except ε β} {b : β} :
    (x >>= f) = .ok b ↔ ∃ a, x = .ok a ∧ f a = .ok b := by
  cases x with
  | error e => simp [bind, Except.bind]
  | ok a => simp [bind, Except.bind]

/-- The error of a document that goes on with `ts` where `what` is expected. -/
def failure (ts : List Token) (what : Expected) : ParseError :=
  match ts with
  | [] => .unexpectedEnd
  | t :: _ => .unexpected (some t) what

/-- Reads the token `t`. -/
def expectToken (t : Token) (what : Expected) (ts : List Token) : Except ParseError (List Token) :=
  match ts with
  | [] => .error .unexpectedEnd
  | u :: rest => if u = t then .ok rest else .error (.unexpected (some u) what)

theorem expectToken_eq_ok {t : Token} {what : Expected} {ts rest : List Token} :
    expectToken t what ts = .ok rest ↔ ts = t :: rest := by
  cases ts with
  | nil => simp [expectToken]
  | cons u r => by_cases h : u = t <;> simp [expectToken, h]

/-- The name that a bare or quoted token stands for. -/
def Token.name? : Token → Option String
  | ident s => some s
  | str s => some s
  | _ => none

/-- Reads a bare or quoted name. -/
def parseName : List Token → Except ParseError (Parsed String)
  | [] => .error .unexpectedEnd
  | t :: rest =>
    match t.name? with
    | some s => .ok (s, rest)
    | none => .error (.unexpected (some t) .name)

theorem parseName_length_lt {ts rest : List Token} {s : String}
    (h : parseName ts = .ok (s, rest)) : rest.length < ts.length := by
  cases ts with
  | nil => simp [parseName] at h
  | cons t r => cases ht : t.name? <;> simp_all [parseName]

/-- The tokens start with the bare word `word`, in any letter case. -/
def startsWithWord (word : String) : List Token → Bool
  | .ident s :: _ => Text.lowerAscii s == word
  | _ => false

/-- Reads `name` or `schema.name`. -/
def parseQualifiedName (ts : List Token) : Except ParseError (Parsed (String × String)) := do
  let (first, rest) ← parseName ts
  match rest with
  | .dot :: rest =>
    let (second, rest) ← parseName rest
    .ok ((first, second), rest)
  | rest => .ok ((defaultSchema, first), rest)

theorem parseQualifiedName_length_lt {ts rest : List Token} {p : String × String}
    (h : parseQualifiedName ts = .ok (p, rest)) : rest.length < ts.length := by
  simp only [parseQualifiedName, bind_eq_ok] at h
  obtain ⟨⟨first, r⟩, h1, h2⟩ := h
  have := parseName_length_lt h1
  split at h2
  · obtain ⟨⟨second, r'⟩, h3, h4⟩ := bind_eq_ok.1 h2
    have := parseName_length_lt h3
    grind
  · grind

/-! ## Skipping -/

/-- Skips past the brace that closes the outermost of `depth + 1` open blocks. -/
def skipNested : Nat → List Token → Except ParseError (List Token)
  | _, [] => .error .unexpectedEnd
  | depth, .lbrace :: rest => skipNested (depth + 1) rest
  | 0, .rbrace :: rest => .ok rest
  | depth + 1, .rbrace :: rest => skipNested depth rest
  | depth, _ :: rest => skipNested depth rest

/-- Skips a block with all blocks inside it. -/
def skipBlock (ts : List Token) : Except ParseError (List Token) := do
  let rest ← expectToken .lbrace .openBrace ts
  skipNested 0 rest

/-- Skips to the next opening brace, which stays. -/
def skipToBlock : List Token → Except ParseError (List Token)
  | [] => .error .unexpectedEnd
  | .lbrace :: rest => .ok (.lbrace :: rest)
  | _ :: rest => skipToBlock rest

/-- Skips to the next closing bracket, which goes too. -/
def skipToBracket : List Token → Except ParseError (List Token)
  | [] => .error .unexpectedEnd
  | .rbracket :: rest => .ok rest
  | _ :: rest => skipToBracket rest

/-- Skips a list in brackets, if the tokens start with one. -/
def skipBrackets : List Token → Except ParseError (List Token)
  | .lbracket :: rest => skipToBracket rest
  | ts => .ok ts

theorem skipNested_length_lt {depth : Nat} {ts rest : List Token}
    (h : skipNested depth ts = .ok rest) : rest.length < ts.length := by
  fun_induction skipNested depth ts <;> grind

theorem skipBlock_length_lt {ts rest : List Token} (h : skipBlock ts = .ok rest) :
    rest.length < ts.length := by
  simp only [skipBlock, bind_eq_ok, expectToken_eq_ok] at h
  obtain ⟨r, rfl, h⟩ := h
  have := skipNested_length_lt h
  grind

theorem skipToBlock_length_le {ts rest : List Token} (h : skipToBlock ts = .ok rest) :
    rest.length ≤ ts.length := by
  fun_induction skipToBlock ts <;> grind

theorem skipToBracket_length_lt {ts rest : List Token} (h : skipToBracket ts = .ok rest) :
    rest.length < ts.length := by
  fun_induction skipToBracket ts <;> grind

theorem skipBrackets_length_le {ts rest : List Token} (h : skipBrackets ts = .ok rest) :
    rest.length ≤ ts.length := by
  unfold skipBrackets at h
  split at h
  · have := skipToBracket_length_lt h
    grind
  · grind

end EntityForge.Dbml
