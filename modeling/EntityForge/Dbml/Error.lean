import EntityForge.Dbml.Lexer

/-!
# Errors of schema documents

A document fails for its tokens, for a token that cannot stand where it stands, or for a table or
column declared twice. `ParseError.message` is the text of each.
-/

namespace EntityForge.Dbml

/-- What could have stood where an unexpected token stands. -/
inductive Expected where
  | declaration
  | name
  | openBrace
  | openBracket
  | colon
  | colonOrBrace
  | commaOrBracket
  | typeArgument
  | setting
  | nullKeyword
  | noteText
  | number
  | defaultValue
  | relation
  | endpoint
  | indexColumn
  | indexEntry
deriving DecidableEq, Repr

/-- How a message names what was expected. -/
def Expected.describe : Expected → String
  | declaration => "Table, Ref, Enum, Project, Note or TableGroup"
  | name => "name"
  | openBrace => "\x7b"
  | openBracket => "["
  | colon => ":"
  | colonOrBrace => ": or \x7b"
  | commaOrBracket => ", or ]"
  | typeArgument => "type argument"
  | setting => "column setting"
  | nullKeyword => "null"
  | noteText => "note string"
  | number => "number"
  | defaultValue => "default value"
  | relation => "relation (>, <, -, <>)"
  | endpoint => "table.column or schema.table.column"
  | indexColumn => "index column"
  | indexEntry => "index definition"

/-- Why a document declares no database. -/
inductive ParseError where
  | lex (error : LexError)
  /-- A token, or the end of the document, stands where something else is expected. -/
  | unexpected (found : Option Token) (expected : Expected)
  | unexpectedEnd
  /-- A relationship names several columns at once. -/
  | compositeRef
  | duplicateTable (name : String)
  | duplicateColumn (table column : String)
deriving DecidableEq, Repr

/-- The text of the error. -/
def ParseError.message : ParseError → String
  | lex e => "Lex error: " ++ e.message
  | unexpected found expected =>
    "Unexpected token: " ++ Token.describe? found ++ ", expected " ++ expected.describe
  | unexpectedEnd => "Unexpected end of input"
  | compositeRef => "Composite references are not supported"
  | duplicateTable name => "Duplicate table: " ++ name
  | duplicateColumn table column => "Duplicate column " ++ column ++ " in table " ++ table

end EntityForge.Dbml
