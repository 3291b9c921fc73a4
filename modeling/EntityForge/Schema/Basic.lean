/-!
# Databases

A database is a list of schemas, each with its tables, and the relationships between columns. Order
is declaration order everywhere. A relationship is stored from its referencing side: `source` is the
column that holds the reference and `target` the column referred to.
-/

namespace EntityForge

/-- The schema of names written without one. -/
def defaultSchema : String := "public"

/-- What is said of a column besides its name and type. -/
inductive Setting where
  | primaryKey
  | increment
  | notNull
  | null
  | unique
  /-- The default value, as written. -/
  | defaultValue (text : String)
  | note (text : String)
deriving DecidableEq, Repr

/-- A column of a table. -/
structure Column where
  name : String
  /-- The column's type with its arguments, as one text. -/
  type : String
  settings : List Setting
deriving DecidableEq, Repr

/-- A table; `schema` repeats the name of the schema that holds it. -/
structure Table where
  schema : String
  name : String
  /-- A second name for the table. -/
  aliasName : Option String
  columns : List Column
  note : Option String
deriving DecidableEq, Repr

/-- A named group of tables. -/
structure Schema where
  name : String
  tables : List Table
deriving DecidableEq, Repr

/-- One end of a relationship: a single column. -/
structure Endpoint where
  schema : String
  table : String
  column : String
deriving DecidableEq, Repr

/-- How many rows may stand on the two sides of a relationship. -/
inductive RelationKind where
  | manyToOne
  | oneToOne
  | manyToMany
deriving DecidableEq, Repr

/-- A reference from one column to another. -/
structure Relationship where
  name : Option String
  source : Endpoint
  target : Endpoint
  kind : RelationKind
deriving DecidableEq, Repr

/-- A database as its documents declare it. -/
structure Database where
  project : Option String := none
  schemas : List Schema := []
  relationships : List Relationship := []
  enums : List String := []
deriving DecidableEq, Repr

/-- The text of an endpoint: its three names with dots between them. -/
def Endpoint.describe (e : Endpoint) : String :=
  e.schema ++ "." ++ e.table ++ "." ++ e.column

end EntityForge
