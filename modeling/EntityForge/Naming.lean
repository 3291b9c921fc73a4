import EntityForge.Unicode.CaseMap

/-!
# Names in generated code

Names of tables and columns become names of classes and members: underscores go and the letter after
each is a capital. `camelCase` starts with a small letter and `pascalCase` with a capital one.
-/

namespace EntityForge

/-- Drops underscores and capitalises the character after each; `up` says whether one was just
dropped. -/
def joinWords (up : Bool) : List Char → List Char
  | [] => []
  | c :: rest =>
    if c = '_' then joinWords true rest
    else (if up then Unicode.toUpper c else [c]) ++ joinWords false rest

/-- The characters of a member name: leading underscores go and the first character after them is
small. -/
def camelChars (cs : List Char) : List Char :=
  match cs.dropWhile (· == '_') with
  | [] => []
  | c :: rest => Unicode.toLower c ++ joinWords false rest

/-- The text with its first character in upper case. -/
def capitalize : List Char → List Char
  | [] => []
  | c :: rest => Unicode.toUpper c ++ rest

/-- The member name of a table or column: `author_id` becomes `authorId`. -/
def camelCase (s : String) : String :=
  String.ofList (camelChars s.toList)

/-- The class name of a table: `order_item` becomes `OrderItem`. -/
def pascalCase (s : String) : String :=
  String.ofList (capitalize (camelChars s.toList))

/-- The name of a list of things: `book` becomes `books`. -/
def pluralize (s : String) : String :=
  s ++ "s"

end EntityForge
