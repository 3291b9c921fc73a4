import EntityForge.Text.Split
import EntityForge.Unicode.Blank
import EntityForge.Unicode.Letter

/-!
# Field declarations

A statement of a class body declares fields if, without its annotations, it is a type and a list of
declarators, each with array brackets or an initial value if need be. `fieldsOfStatement` gives the
fields with their types in normal form, and none for any other statement.
-/

namespace EntityForge.Java

/-- A field of a class with its type in normal form. -/
structure FieldDecl where
  name : String
  type : String
deriving DecidableEq, Repr

/-- The character can stand in a Java identifier. -/
def isIdentChar (c : Char) : Bool :=
  Unicode.isAlphanumeric c || c == '_' || c == '$'

/-- The maximal pieces of a text that consist of identifier characters. -/
def words (cs : List Char) : List (List Char) :=
  Text.piecesBy (fun c => !isIdentChar c) cs

/-- The text before the first character `c`, or all of it. -/
def before (c : Char) (cs : List Char) : List Char :=
  cs.takeWhile (· != c)

/-! ## Annotations -/

/-- The text after the parenthesis that closes `depth + 1` open ones; empty if it is missing. -/
def afterParens : Nat → List Char → List Char
  | _, [] => []
  | depth, '(' :: rest => afterParens (depth + 1) rest
  | 0, ')' :: rest => rest
  | depth + 1, ')' :: rest => afterParens depth rest
  | depth, _ :: rest => afterParens depth rest

theorem afterParens_length_le (depth : Nat) (cs : List Char) :
    (afterParens depth cs).length ≤ cs.length := by
  fun_induction afterParens depth cs <;> grind

/-- The character can stand in the name of an annotation. -/
def isAnnotationChar (c : Char) : Bool :=
  isIdentChar c || c == '.'

/-- The text after the arguments of an annotation, if it has any. -/
def afterArguments (cs : List Char) : List Char :=
  match Unicode.trimStart cs with
  | '(' :: rest => afterParens 0 rest
  | rest => rest

theorem afterArguments_length_le (cs : List Char) :
    (afterArguments cs).length ≤ cs.length := by
  have h : (Unicode.trimStart cs).length ≤ cs.length := (List.dropWhile_suffix _).length_le
  unfold afterArguments
  split
  · rename_i rest hr
    have := afterParens_length_le 0 rest
    rw [hr] at h
    simp only [List.length_cons] at h
    omega
  · exact h

/-- The text with a blank for each annotation and its arguments. The head of an annotation type,
`@interface`, stays without its sign. -/
def stripAnnotations : List Char → List Char
  | [] => []
  | c :: rest =>
    if c = '@' then
      if rest.takeWhile isAnnotationChar = "interface".toList then
        " interface".toList ++ stripAnnotations (rest.dropWhile isAnnotationChar)
      else ' ' :: stripAnnotations (afterArguments (rest.dropWhile isAnnotationChar))
    else c :: stripAnnotations rest
termination_by cs => cs.length
decreasing_by
  · have := (List.dropWhile_suffix (l := rest) isAnnotationChar).length_le
    grind
  · have := (List.dropWhile_suffix (l := rest) isAnnotationChar).length_le
    have := afterArguments_length_le (rest.dropWhile isAnnotationChar)
    grind
  · grind

/-! ## Headers of types -/

/-- The kind of body that a declaring word announces. -/
inductive TypeKeyword where
  | classBody
  | interfaceBody
  | enumBody
  | recordBody
deriving DecidableEq, Repr

/-- The keyword that a word is, if it is one. -/
def TypeKeyword.ofWord? (w : List Char) : Option TypeKeyword :=
  if w = "class".toList then some .classBody
  else if w = "interface".toList then some .interfaceBody
  else if w = "enum".toList then some .enumBody
  else if w = "record".toList then some .recordBody
  else none

/-- The first keyword that another word follows. -/
def firstKeyword : List (List Char) → Option TypeKeyword
  | [] => none
  | [_] => none
  | w :: next :: rest =>
    match TypeKeyword.ofWord? w with
    | some k => some k
    | none => firstKeyword (next :: rest)

/-- The keyword of a header that declares a type: one that a word follows, before any
parenthesis. -/
def typeKeyword? (header : List Char) : Option TypeKeyword :=
  firstKeyword (words (before '(' (stripAnnotations header)))

/-- The statement gives an initial value. -/
def hasInitializer (stmt : List Char) : Bool :=
  (stripAnnotations stmt).contains '='

/-! ## Declarators -/

/-- How deep a place in a list of declarators is nested. -/
structure Nesting where
  /-- Open parentheses, brackets and braces. -/
  depth : Int := 0
  /-- Open angle brackets outside initial values. -/
  angle : Int := 0
  /-- Within an initial value, where angle brackets are comparisons. -/
  inInit : Bool := false
deriving DecidableEq, Repr

namespace Nesting

/-- No bracket is open. -/
def isTop (n : Nesting) : Bool :=
  n.depth == 0 && n.angle == 0

/-- The nesting after a character that is not a separating comma. -/
def step (n : Nesting) (c : Char) : Nesting :=
  if c = '(' ∨ c = '[' ∨ c = '\x7b' then { n with depth := n.depth + 1 }
  else if c = ')' ∨ c = ']' ∨ c = '\x7d' then { n with depth := n.depth - 1 }
  else if c = '<' ∧ !n.inInit then { n with angle := n.angle + 1 }
  else if c = '>' ∧ !n.inInit then { n with angle := n.angle - 1 }
  else if c = '=' ∧ n.isTop then { n with inInit := true }
  else n

end Nesting

/-- The declarators of a statement: its parts between commas outside brackets. `part` is the part
being read, last character first. -/
def splitDeclaratorsFrom (n : Nesting) (part : List Char) : List Char → List (List Char)
  | [] => [part.reverse]
  | c :: rest =>
    if c = ',' ∧ n.isTop then
      part.reverse :: splitDeclaratorsFrom { n with inInit := false } [] rest
    else splitDeclaratorsFrom (n.step c) (c :: part) rest

/-- The declarators of a statement: its parts between commas outside brackets. -/
def splitDeclarators (stmt : List Char) : List (List Char) :=
  splitDeclaratorsFrom {} [] stmt

/-- A declarator cut into what precedes the name, the name, and the number of array brackets after
it. -/
structure Declarator where
  head : List Char
  name : List Char
  dims : Nat
deriving DecidableEq, Repr

/-- Takes pairs of brackets off the front of a reversed text, with blanks between them; fails if a
closing bracket has no opening one before it. -/
def takeDims (dims : Nat) (reversed : List Char) : Option (Nat × List Char) :=
  match _h : reversed.dropWhile Unicode.isBlank with
  | ']' :: inner =>
    match _h' : inner.dropWhile Unicode.isBlank with
    | '[' :: rest => takeDims (dims + 1) rest
    | _ => none
  | rest => some (dims, rest)
termination_by reversed.length
decreasing_by
  have h1 := (List.dropWhile_suffix (l := reversed) Unicode.isBlank).length_le
  have h2 := (List.dropWhile_suffix (l := inner) Unicode.isBlank).length_le
  rw [_h] at h1
  rw [_h'] at h2
  simp only [List.length_cons] at h1 h2
  omega

/-- Cuts a declarator without an initial value; fails if it does not end in an identifier and array
brackets. -/
def Declarator.ofChars? (cs : List Char) : Option Declarator :=
  match takeDims 0 (Unicode.trim cs).reverse with
  | none => none
  | some (dims, reversed) =>
    let name := (reversed.takeWhile isIdentChar).reverse
    match name with
    | [] => none
    | c :: _ =>
      if c.isDigit then none
      else some ⟨(reversed.dropWhile isIdentChar).reverse, name, dims⟩

/-- The array brackets of a declarator. -/
def Declarator.dimsText (d : Declarator) : List Char :=
  (List.replicate d.dims ['[', ']']).flatten

/-! ## Types -/

/-- The words that may precede the type of a declaration. -/
def modifiers : List (List Char) :=
  ["public", "private", "protected", "static", "final", "transient", "volatile", "abstract",
    "synchronized", "native", "strictfp", "default", "sealed", "non-sealed"].map String.toList

/-- The text after the modifier that it starts with, if a blank follows the modifier. -/
def dropModifier? (cs : List Char) : Option (List Char) :=
  modifiers.findSome? fun m =>
    if m.isPrefixOf cs && ((cs.drop m.length).head?.any Unicode.isBlank) then
      some (cs.drop m.length)
    else none

theorem dropModifier?_length_lt {cs rest : List Char} (h : dropModifier? cs = some rest) :
    rest.length < cs.length := by
  obtain ⟨m, hm, h⟩ := List.exists_of_findSome?_eq_some h
  have hpos : 0 < m.length := by
    have : ∀ m ∈ modifiers, 0 < m.length := by decide
    exact this m hm
  split at h
  · rename_i hp
    simp only [Bool.and_eq_true] at hp
    have := (List.isPrefixOf_iff_prefix.1 hp.1).length_le
    simp only [Option.some.injEq] at h
    rw [← h, List.length_drop]
    omega
  · simp at h

/-- The text without the modifiers it starts with and without blanks at its ends. -/
def stripModifiers (cs : List Char) : List Char :=
  match _h : dropModifier? (Unicode.trimStart cs) with
  | some rest => stripModifiers rest
  | none => Unicode.trim cs
termination_by cs.length
decreasing_by
  have h1 := dropModifier?_length_lt _h
  have h2 : (Unicode.trimStart cs).length ≤ cs.length := (List.dropWhile_suffix _).length_le
  omega

/-- A blank before this character has no meaning in a type. -/
def gluesLeft (c : Char) : Bool :=
  c == '<' || c == '>' || c == ',' || c == '[' || c == ']'

/-- A blank after this character has no meaning in a type. -/
def gluesRight (c : Char) : Bool :=
  c == '<' || c == ',' || c == '['

/-- Drops the single blanks of a type that have no meaning and puts one after each comma; `prev` is
the character before `cs`. -/
def glue (prev : Option Char) : List Char → List Char
  | [] => []
  | c :: rest =>
    if c = ' ' then
      if prev.any gluesRight || rest.head?.any gluesLeft then glue (some c) rest
      else ' ' :: glue (some c) rest
    else if c = ',' then ',' :: ' ' :: glue (some c) rest
    else c :: glue (some c) rest

/-- The normal form of a type: words with single blanks between them, no blanks around brackets and
one after each comma. -/
def normalizeType (cs : List Char) : List Char :=
  glue none (List.intercalate [' '] (Unicode.splitBlank cs))

/-! ## Statements -/

/-- The fields of further declarators of a type; fails if one of them has anything before its
name. -/
def moreFields (base : List Char) : List (List Char) → Option (List FieldDecl)
  | [] => some []
  | part :: rest => do
    let d ← Declarator.ofChars? (before '=' part)
    if (Unicode.trim d.head).isEmpty then
      let more ← moreFields base rest
      some (⟨String.ofList d.name, String.ofList (base ++ d.dimsText)⟩ :: more)
    else none

/-- The fields of the declarators of a statement; the first one starts with the type. -/
def fieldsOfDeclarators : List (List Char) → Option (List FieldDecl)
  | [] => none
  | part :: rest => do
    let d ← Declarator.ofChars? (before '=' part)
    let head := stripModifiers d.head
    if (words head).isEmpty then none
    else
      let base := normalizeType head
      let more ← moreFields base rest
      some (⟨String.ofList d.name, String.ofList (base ++ d.dimsText)⟩ :: more)

/-- The fields that a statement of a class body declares. -/
def fieldsOfStatement (stmt : List Char) : List FieldDecl :=
  let stmt := stripAnnotations stmt
  if (before '=' stmt).contains '(' || (Unicode.trim stmt).isEmpty then []
  else (fieldsOfDeclarators (splitDeclarators stmt)).getD []

end EntityForge.Java
