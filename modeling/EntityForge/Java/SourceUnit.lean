import EntityForge.Java.Cleaning
import EntityForge.Java.Statement

/-!
# Fields of a source file

`fieldsOfSource` collects the fields of every class, interface, enumeration and record of a Java
source, nested ones included. It reads the cleaned text character by character and tells the braces
of type bodies, of initial values and of all other blocks apart.
-/

namespace EntityForge.Java

/-- What an open brace stands for. -/
inductive Scope where
  /-- The body of a type; `constants` is set while the constants of an enumeration are pending. -/
  | type (constants : Bool)
  /-- The initial value of a field. -/
  | initializer
  /-- The body of a method, or any other block. -/
  | block
deriving DecidableEq, Repr

/-- A cleaned source that is being read. -/
structure Scanner where
  /-- The fields so far, last one first. -/
  fields : List FieldDecl := []
  /-- The open braces, innermost first. -/
  scopes : List Scope := []
  /-- The statement being read, last character first. -/
  statement : List Char := []
  line : Nat := 1
deriving DecidableEq, Repr

/-- How many more opening than closing parentheses a text has. -/
def openParens (cs : List Char) : Int :=
  cs.foldl (fun depth c => if c = '(' then depth + 1 else if c = ')' then depth - 1 else depth) 0

namespace Scanner

/-- The next character belongs to a statement of a type body or to the top of the file. -/
def inStatement (s : Scanner) : Bool :=
  match s.scopes with
  | [] => true
  | .type _ :: _ => true
  | _ => false

/-- The innermost brace is that of a type body. -/
def inType (s : Scanner) : Bool :=
  match s.scopes with
  | .type _ :: _ => true
  | _ => false

/-- Adds a character to the statement. -/
def push (s : Scanner) (c : Char) : Scanner :=
  { s with statement := c :: s.statement }

/-- Opens a brace. -/
def openBrace (s : Scanner) : Scanner :=
  if s.inStatement then
    if s.inType && hasInitializer s.statement.reverse then
      { s with scopes := .initializer :: s.scopes }
    else
      match typeKeyword? s.statement.reverse with
      | some k => { s with scopes := .type (k == .enumBody) :: s.scopes, statement := [] }
      | none => { s with scopes := .block :: s.scopes, statement := [] }
  else { s with scopes := .block :: s.scopes }

/-- Closes the innermost brace. -/
def closeBrace (s : Scanner) : Except SourceError Scanner :=
  match s.scopes with
  | [] => .error (.unbalancedBraces s.line)
  | .initializer :: rest =>
    .ok { s with scopes := rest, statement := '\x7d' :: '\x7b' :: s.statement }
  | _ :: rest =>
    let s := { s with scopes := rest }
    .ok (if s.inStatement then { s with statement := [] } else s)

/-- Ends a statement. -/
def endStatement (s : Scanner) : Scanner :=
  match s.scopes with
  | [] => { s with statement := [] }
  | .type true :: rest => { s with scopes := .type false :: rest, statement := [] }
  | .type false :: _ =>
    { s with
      fields := (fieldsOfStatement s.statement.reverse).reverse ++ s.fields
      statement := [] }
  | _ => s

/-- Takes one character. Braces inside open parentheses belong to annotations and stay in the
statement. -/
def step (s : Scanner) (c : Char) : Except SourceError Scanner :=
  if c = '\n' then .ok ({ s with line := s.line + 1 }.push ' ')
  else if (c = '\x7b' ∨ c = '\x7d') ∧ s.inStatement ∧ 0 < openParens s.statement.reverse then
    .ok (s.push c)
  else if c = '\x7b' then .ok s.openBrace
  else if c = '\x7d' then s.closeBrace
  else if c = ';' then .ok s.endStatement
  else .ok (if s.inStatement then s.push c else s)

/-- The fields of the source, if all braces are closed. -/
def finish (s : Scanner) : Except SourceError (List FieldDecl) :=
  if s.scopes.isEmpty then .ok s.fields.reverse else .error (.unbalancedBraces s.line)

end Scanner

/-- The fields of a cleaned source. -/
def fieldsOfCleaned (cleaned : List Char) : Except SourceError (List FieldDecl) := do
  let s ← cleaned.foldlM Scanner.step {}
  s.finish

/-- The fields of the types that a source declares, in order. -/
def fieldsOfSource (source : String) : Except SourceError (List FieldDecl) := do
  let cleaned ← clean source.toList
  fieldsOfCleaned cleaned

end EntityForge.Java
