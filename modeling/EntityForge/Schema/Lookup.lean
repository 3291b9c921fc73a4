import EntityForge.Schema.Basic

/-!
# Finding tables and columns

Tables of a schema answer to their name and to their alias, and the first that does is found. An
endpoint without a schema may also use the alias of a table of any schema (`Database.tableOf?`).
-/

namespace EntityForge

namespace Column

/-- The setting is among those of the column. -/
def has (c : Column) (s : Setting) : Bool :=
  c.settings.contains s

/-- The column belongs to the primary key. -/
def isPrimaryKey (c : Column) : Bool :=
  c.has .primaryKey

/-- The database fills the column with increasing numbers. -/
def isIncrement (c : Column) : Bool :=
  c.has .increment

end Column

namespace Table

/-- The first column of that name. -/
def column? (t : Table) (name : String) : Option Column :=
  t.columns.find? (·.name == name)

/-- The first column of the primary key. -/
def primaryKey? (t : Table) : Option Column :=
  t.columns.find? (·.isPrimaryKey)

/-- The table has that name or that alias. -/
def answersTo (t : Table) (name : String) : Bool :=
  t.name == name || t.aliasName == some name

end Table

namespace Schema

/-- The first table with that name or alias. -/
def table? (s : Schema) (name : String) : Option Table :=
  s.tables.find? (·.answersTo name)

end Schema

namespace Database

/-- The first schema of that name. -/
def schema? (db : Database) (name : String) : Option Schema :=
  db.schemas.find? (·.name == name)

/-- The table with that name or alias in the schema of that name. -/
def table? (db : Database) (schema name : String) : Option Table :=
  (db.schema? schema).bind (·.table? name)

/-- The tables of all schemas. -/
def tables (db : Database) : List Table :=
  db.schemas.flatMap (·.tables)

/-- The table that an endpoint names. In the default schema, a name that no table there answers to
may be the alias of a table of any schema. -/
def tableOf? (db : Database) (e : Endpoint) : Option Table :=
  match db.table? e.schema e.table with
  | some t => some t
  | none =>
    if e.schema == defaultSchema then db.tables.find? (·.aliasName == some e.table) else none

/-- The schemas, with an empty one of that name at the end if there is none. -/
def ensureSchema (name : String) (schemas : List Schema) : List Schema :=
  if schemas.any (·.name == name) then schemas else schemas ++ [⟨name, []⟩]

/-- Adds a table at the end of the first schema of that name. -/
def pushTable (name : String) (t : Table) : List Schema → List Schema
  | [] => []
  | s :: rest =>
    if s.name == name then { s with tables := s.tables ++ [t] } :: rest
    else s :: pushTable name t rest

/-- The database with a schema of that name. -/
def withSchema (db : Database) (name : String) : Database :=
  { db with schemas := ensureSchema name db.schemas }

/-- Adds a table to the schema of that name, which is created if there is none. -/
def addTable (db : Database) (schema : String) (t : Table) : Database :=
  { db with schemas := pushTable schema t (ensureSchema schema db.schemas) }

/-- Adds relationships at the end. -/
def addRelationships (db : Database) (rs : List Relationship) : Database :=
  { db with relationships := db.relationships ++ rs }

end Database

end EntityForge
