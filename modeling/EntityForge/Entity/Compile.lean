import EntityForge.Entity.Associations

/-!
# From tables to entities

`Compiler.compile` makes the entity of a table. Columns that refer to other tables become
associations and the others plain members.
-/

namespace EntityForge

/-- The package of generated classes if none is given. -/
def defaultPackage : String := "com.example.demo"

/-- The import of an entity that lists others. -/
def listImport : String := "java.util.List"

/-- Why no entity can be made. -/
inductive CompileError where
  | schemaNotFound (schema : String)
  | tableNotFound (schema table : String)
  | resolve (error : ResolveError)
deriving DecidableEq, Repr

/-- The text of the error. -/
def CompileError.message : CompileError → String
  | schemaNotFound s => "Schema not found: " ++ s
  | tableNotFound s t => "Table not found: " ++ s ++ "." ++ t
  | resolve e => e.message

/-- What entities depend on besides the database. -/
structure Compiler where
  packageName : String := defaultPackage
  types : TypeMap := {}
deriving DecidableEq, Repr

namespace Compiler

/-- The identifier that a column of the primary key makes. -/
def identifier (c : Compiler) (col : Column) : Identifier :=
  ⟨col.name, camelCase col.name, c.types.target col.type⟩

/-- The plain member of a column. -/
def plainField (c : Compiler) (col : Column) : PlainField :=
  ⟨col.name, camelCase col.name, c.types.target col.type, col.isPrimaryKey⟩

/-- The plain members of a table: one for each column that refers to nothing. -/
def plainFields (c : Compiler) (t : Table) (a : Associations) : List PlainField :=
  (t.columns.filter fun col => !a.foreignKeys.contains col.name).map c.plainField

/-- The imports of an entity with those members: the list type if it lists others, then what the
types of plain members need. -/
def imports (fields : List PlainField) (a : Associations) : List String :=
  (fields.filterMap (·.target.import?)).foldl insertNew
    (if a.inbound.isEmpty then [] else [listImport])

/-- The entity of a table with the given associations. -/
def entity (c : Compiler) (t : Table) (a : Associations) : Entity where
  packageName := c.packageName
  tableName := t.name
  className := pascalCase t.name
  id := t.primaryKey?.map c.identifier
  hasIncrement := t.primaryKey?.any (·.isIncrement)
  fields := c.plainFields t a
  manyToOne := a.outbound
  oneToMany := a.inbound
  imports := imports (c.plainFields t a) a

/-- The entity of a table of the database. -/
def compile (c : Compiler) (db : Database) (t : Table) : Except CompileError Entity :=
  match db.associations t with
  | .error e => .error (.resolve e)
  | .ok a => .ok (c.entity t a)

/-- The entity of the table with that name or alias. -/
def compileTable (c : Compiler) (db : Database) (schema name : String) :
    Except CompileError Entity :=
  match db.schema? schema with
  | none => .error (.schemaNotFound schema)
  | some s =>
    match s.table? name with
    | none => .error (.tableNotFound schema name)
    | some t => c.compile db t

/-- The entities of the tables of a schema, in declaration order. -/
def compileSchema (c : Compiler) (db : Database) (schema : String) :
    Except CompileError (List Entity) :=
  match db.schema? schema with
  | none => .error (.schemaNotFound schema)
  | some s => s.tables.mapM (c.compile db)

end Compiler

end EntityForge
