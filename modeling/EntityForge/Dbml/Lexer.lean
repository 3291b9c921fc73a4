import EntityForge.Dbml.Token
import EntityForge.Unicode.Blank
import EntityForge.Unicode.Letter

/-!
# Reading tokens

`nextToken` skips blanks and comments and reads one token from a text. It gives the text that is
left in every case, so reading can go on after an error. `tokenize` reads tokens to the end of the
text and stops at the first error.

Every call that gives a token or an error shortens the text (`nextToken_length_lt`), which is why
`tokenize` ends.
-/

namespace EntityForge.Dbml

/-- Why no token can be read. -/
inductive LexError where
  /-- No token starts with this character. -/
  | unexpectedChar (c : Char)
  /-- A quoted text is not closed. -/
  | unterminatedString
  /-- An expression between backticks is not closed. -/
  | unterminatedExpr
  /-- A block comment is not closed. -/
  | unterminatedComment
deriving DecidableEq, Repr

/-- The text of the error. -/
def LexError.message : LexError → String
  | unexpectedChar c => "Unexpected character: " ++ c.toString
  | unterminatedString => "Unterminated string"
  | unterminatedExpr => "Unterminated expression"
  | unterminatedComment => "Unterminated comment"

/-! ## Blanks and comments -/

/-- The text after the end of the line. -/
def afterLine : List Char → List Char
  | [] => []
  | c :: rest => if c = '\n' then rest else afterLine rest

/-- The text after the first `*/`, if there is one. -/
def afterComment : List Char → Option (List Char)
  | [] => none
  | '*' :: '/' :: rest => some rest
  | _ :: rest => afterComment rest

theorem afterLine_length_le (cs : List Char) : (afterLine cs).length ≤ cs.length := by
  induction cs with
  | nil => simp [afterLine]
  | cons c rest ih => grind [afterLine]

theorem afterComment_length_lt {cs rest : List Char} (h : afterComment cs = some rest) :
    rest.length < cs.length := by
  fun_induction afterComment cs with
  | case1 => simp at h
  | case2 => grind
  | case3 => grind

/-- Drops blanks, line comments and block comments; fails if a block comment is not closed. -/
def skipTrivia : List Char → Option (List Char)
  | '/' :: '/' :: rest => skipTrivia (afterLine rest)
  | '/' :: '*' :: rest =>
    match _h : afterComment rest with
    | some rest => skipTrivia rest
    | none => none
  | c :: rest => if Unicode.isBlank c then skipTrivia rest else some (c :: rest)
  | [] => some []
termination_by cs => cs.length
decreasing_by
  · have := afterLine_length_le rest
    grind
  · have := afterComment_length_lt _h
    grind
  · grind

theorem skipTrivia_length_le {cs rest : List Char} (h : skipTrivia cs = some rest) :
    rest.length ≤ cs.length := by
  fun_induction skipTrivia cs with
  | case1 rest' ih => have := ih h; have := afterLine_length_le rest'; grind
  | case2 rest' r hr ih => have := ih h; have := afterComment_length_lt hr; grind
  | case3 => simp at h
  | case4 => grind
  | case5 => grind
  | case6 => grind

/-! ## The kinds of tokens -/

/-- The character can stand inside a name. -/
def isNameChar (c : Char) : Bool :=
  Unicode.isAlphanumeric c || c == '_'

/-- The character can start a name. -/
def isNameStart (c : Char) : Bool :=
  Unicode.isAlphabetic c || c == '_' || c == '#'

/-- The character can stand inside a number. -/
def isNumberChar (c : Char) : Bool :=
  c.isDigit || c == '.'

/-- The character that a backslash and `c` stand for. -/
def unescape (c : Char) : Char :=
  match c with
  | 'n' => '\n'
  | 't' => '\t'
  | 'r' => '\r'
  | c => c

/-- The text up to the closing quote, with escapes resolved, and what follows the quote. -/
def readQuoted (quote : Char) : List Char → Option (List Char × List Char)
  | [] => none
  | '\\' :: c :: rest => (readQuoted quote rest).map fun (text, rest) => (unescape c :: text, rest)
  | c :: rest =>
    if c = quote then some ([], rest)
    else (readQuoted quote rest).map fun (text, rest) => (c :: text, rest)

/-- The text up to three single quotes in a row, without escapes, and what follows them. -/
def readTripleQuoted : List Char → Option (List Char × List Char)
  | [] => none
  | '\'' :: '\'' :: '\'' :: rest => some ([], rest)
  | c :: rest => (readTripleQuoted rest).map fun (text, rest) => (c :: text, rest)

/-- The text up to the next backtick, and what follows it. -/
def readExpr : List Char → Option (List Char × List Char)
  | [] => none
  | c :: rest =>
    if c = '\x60' then some ([], rest)
    else (readExpr rest).map fun (text, rest) => (c :: text, rest)

theorem readQuoted_length_lt {quote : Char} {cs text rest : List Char}
    (h : readQuoted quote cs = some (text, rest)) : rest.length < cs.length := by
  fun_induction readQuoted quote cs generalizing text with
  | case1 => simp at h
  | case2 c r ih =>
    obtain ⟨⟨t, r'⟩, h1, h2⟩ := Option.map_eq_some_iff.1 h
    have := @ih t
    grind
  | case3 => grind
  | case4 c r _ _ ih =>
    obtain ⟨⟨t, r'⟩, h1, h2⟩ := Option.map_eq_some_iff.1 h
    have := @ih t
    grind

theorem readTripleQuoted_length_lt {cs text rest : List Char}
    (h : readTripleQuoted cs = some (text, rest)) : rest.length < cs.length := by
  fun_induction readTripleQuoted cs generalizing text with
  | case1 => simp at h
  | case2 => grind
  | case3 c r _ ih =>
    obtain ⟨⟨t, r'⟩, h1, h2⟩ := Option.map_eq_some_iff.1 h
    have := @ih t
    grind

theorem readExpr_length_lt {cs text rest : List Char} (h : readExpr cs = some (text, rest)) :
    rest.length < cs.length := by
  fun_induction readExpr cs generalizing text with
  | case1 => simp at h
  | case2 => grind
  | case3 c r _ ih =>
    obtain ⟨⟨t, r'⟩, h1, h2⟩ := Option.map_eq_some_iff.1 h
    have := @ih t
    grind

/-! ## One token -/

/-- The mark that a character is by itself. -/
def mark? (c : Char) : Option Token :=
  match c with
  | '\x7b' => some .lbrace
  | '\x7d' => some .rbrace
  | '(' => some .lparen
  | ')' => some .rparen
  | '[' => some .lbracket
  | ']' => some .rbracket
  | ',' => some .comma
  | ':' => some .colon
  | '.' => some .dot
  | '>' => some .gt
  | '-' => some .dash
  | _ => none

/-- What was read: a token, the end of the text (`none`), or an error, and the text that is left. -/
abbrev Lexed := Except LexError (Option Token) × List Char

/-- A token made of a text that may not be closed; an open text takes all that is left. -/
def closed (make : String → Token) (open_ : LexError) : Option (List Char × List Char) → Lexed
  | some (text, rest) => (.ok (some (make (String.ofList text))), rest)
  | none => (.error open_, [])

/-- Reads the token that starts with `c`. -/
def tokenAt (c : Char) (rest : List Char) : Lexed :=
  match mark? c with
  | some t => (.ok (some t), rest)
  | none =>
    if c = '<' then
      match rest with
      | '>' :: rest => (.ok (some .ltGt), rest)
      | rest => (.ok (some .lt), rest)
    else if c = '\'' then
      match rest with
      | '\'' :: '\'' :: rest => closed .str .unterminatedString (readTripleQuoted rest)
      | rest => closed .str .unterminatedString (readQuoted c rest)
    else if c = '"' then closed .str .unterminatedString (readQuoted c rest)
    else if c = '\x60' then closed .expr .unterminatedExpr (readExpr rest)
    else if c.isDigit then
      (.ok (some (.num (String.ofList (c :: rest.takeWhile isNumberChar)))),
        rest.dropWhile isNumberChar)
    else if isNameStart c then
      (.ok (some (.ident (String.ofList (c :: rest.takeWhile isNameChar)))),
        rest.dropWhile isNameChar)
    else (.error (.unexpectedChar c), rest)

/-- Reads the next token of the text. -/
def nextToken (cs : List Char) : Lexed :=
  match skipTrivia cs with
  | none => (.error .unterminatedComment, [])
  | some [] => (.ok none, [])
  | some (c :: rest) => tokenAt c rest

theorem dropWhile_length_le (p : Char → Bool) (cs : List Char) :
    (cs.dropWhile p).length ≤ cs.length :=
  (List.dropWhile_suffix p).length_le

theorem tokenAt_length_le (c : Char) (rest : List Char) :
    (tokenAt c rest).2.length ≤ rest.length := by
  have hd := dropWhile_length_le isNumberChar rest
  have hn := dropWhile_length_le isNameChar rest
  unfold tokenAt
  split
  · exact Nat.le_refl _
  · split
    · split <;> simp
    · split
      · split
        · rename_i r
          cases h : readTripleQuoted r with
          | none => simp [closed]
          | some p => obtain ⟨_, _⟩ := p; have := readTripleQuoted_length_lt h
                      simp [closed]; omega
        · cases h : readQuoted c rest with
          | none => simp [closed]
          | some p => obtain ⟨_, _⟩ := p; have := readQuoted_length_lt h
                      simp [closed]; omega
      · split
        · cases h : readQuoted c rest with
          | none => simp [closed]
          | some p => obtain ⟨_, _⟩ := p; have := readQuoted_length_lt h
                      simp [closed]; omega
        · split
          · cases h : readExpr rest with
            | none => simp [closed]
            | some p => obtain ⟨_, _⟩ := p; have := readExpr_length_lt h
                        simp [closed]; omega
          · split
            · exact hd
            · split
              · exact hn
              · exact Nat.le_refl _

/-- A call that does not find the end of the text shortens it. -/
theorem nextToken_length_lt {cs rest : List Char} {r : Except LexError (Option Token)}
    (h : nextToken cs = (r, rest)) (hr : r ≠ .ok none) : rest.length < cs.length := by
  unfold nextToken at h
  split at h
  · rename_i hs
    cases cs with
    | nil => simp [skipTrivia] at hs
    | cons c cs => grind
  · grind
  · rename_i c r' hs
    have h1 := skipTrivia_length_le hs
    have h2 := tokenAt_length_le c r'
    rw [h] at h2
    simp only [List.length_cons] at h1 h2
    omega

/-! ## All tokens -/

/-- Reads tokens to the end of the text, after those in `read`, which holds the last one first. -/
def tokenizeAfter (read : List Token) (cs : List Char) : Except LexError (List Token) :=
  match _h : nextToken cs with
  | (.error e, _) => .error e
  | (.ok none, _) => .ok read.reverse
  | (.ok (some t), rest) => tokenizeAfter (t :: read) rest
termination_by cs.length
decreasing_by exact nextToken_length_lt _h (by simp)

/-- All tokens of the text, or the first error. -/
def tokenize (input : String) : Except LexError (List Token) :=
  tokenizeAfter [] input.toList

end EntityForge.Dbml
