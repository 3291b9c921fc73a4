/-!
# Cleaned source text

Cleaning replaces every comment of a Java source by blanks and empties every text and character
literal, so that what is left can be read without regard to either. Newlines are kept, but for one
that a backslash precedes within a literal. `Cleaner.step` takes one character; `clean` takes a
whole text.
-/

namespace EntityForge.Java

/-- What can be left open at the end of a source. -/
inductive OpenPart where
  | comment
  | literal
deriving DecidableEq, Repr

/-- Why a source cannot be read; lines are counted from 1. -/
inductive SourceError where
  /-- A comment or literal that starts on that line is not closed. -/
  | unterminated (part : OpenPart) (line : Nat)
  /-- A closing brace is missing, or one closes nothing. -/
  | unbalancedBraces (line : Nat)
deriving DecidableEq, Repr

/-- The text of the error. -/
def SourceError.message : SourceError → String
  | unterminated .comment line => "Unterminated comment starting at line " ++ toString line
  | unterminated .literal line => "Unterminated literal starting at line " ++ toString line
  | unbalancedBraces line => "Unbalanced braces at line " ++ toString line

/-- What the next character of a source belongs to. -/
inductive Mode where
  | code
  /-- After a slash that may start a comment. -/
  | slash
  | lineComment
  /-- In a block comment that starts on line `start`; `star` says that the last character was a
  star that may close it. -/
  | blockComment (start : Nat) (star : Bool)
  /-- In a literal that starts on line `start`; `escaped` says that the next character is part of it
  whatever it is. -/
  | literal (quote : Char) (start : Nat) (escaped : Bool)
deriving DecidableEq, Repr

/-- A source that is being cleaned. -/
structure Cleaner where
  mode : Mode := .code
  /-- The current line, as far as newlines are kept. -/
  line : Nat := 1
  /-- The cleaned text so far, last character first. -/
  out : List Char := []
deriving DecidableEq, Repr

namespace Cleaner

/-- Keeps a newline. -/
def newline (s : Cleaner) : Cleaner :=
  { s with line := s.line + 1, out := '\n' :: s.out }

/-- Takes a character of code that no slash precedes. -/
def stepCode (s : Cleaner) (c : Char) : Cleaner :=
  if c = '/' then { s with mode := .slash }
  else if c = '"' ∨ c = '\'' then { s with mode := .literal c s.line false }
  else if c = '\n' then { s with mode := .code }.newline
  else { s with mode := .code, out := c :: s.out }

/-- Takes one character. -/
def step (s : Cleaner) (c : Char) : Cleaner :=
  match s.mode with
  | .code => s.stepCode c
  | .slash =>
    if c = '/' then { s with mode := .lineComment }
    else if c = '*' then { s with mode := .blockComment s.line false }
    else { s with out := '/' :: s.out }.stepCode c
  | .lineComment => if c = '\n' then { s with mode := .code }.newline else s
  | .blockComment start star =>
    if star && c == '/' then { s with mode := .code, out := ' ' :: s.out }
    else if c = '\n' then { s with mode := .blockComment start false }.newline
    else { s with mode := .blockComment start (c == '*') }
  | .literal quote start escaped =>
    if escaped then { s with mode := .literal quote start false }
    else if c = '\\' then { s with mode := .literal quote start true }
    else if c = '\n' then s.newline
    else if c = quote then { s with mode := .code, out := quote :: quote :: s.out }
    else s

/-- The cleaned text, if nothing is left open. -/
def finish (s : Cleaner) : Except SourceError (List Char) :=
  match s.mode with
  | .code => .ok s.out.reverse
  | .lineComment => .ok s.out.reverse
  | .slash => .ok ('/' :: s.out).reverse
  | .blockComment start _ => .error (.unterminated .comment start)
  | .literal _ start _ => .error (.unterminated .literal start)

end Cleaner

/-- The cleaned text of a source. -/
def clean (source : List Char) : Except SourceError (List Char) :=
  (source.foldl Cleaner.step {}).finish

end EntityForge.Java
