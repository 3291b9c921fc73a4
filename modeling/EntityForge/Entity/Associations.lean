import EntityForge.Entity.Basic
import EntityForge.Naming
import EntityForge.Schema.Lookup

/-!
# The associations of a table

Every relationship of the database must name existing columns at both ends. Those that leave a table
are its outbound associations, those that arrive at it the inbound ones; a relationship from a table
to itself is both.
-/

namespace EntityForge

/-- Why relationships cannot be followed. -/
inductive ResolveError where
  /-- The endpoint names no column of the database. -/
  | unknownColumn (endpoint : Endpoint)
deriving DecidableEq, Repr

/-- The text of the error. -/
def ResolveError.message : ResolveError → String
  | unknownColumn e => "Relationship endpoint " ++ e.describe ++ " does not resolve to a column"

/-- What the relationships of a database mean for one table. -/
structure Associations where
  outbound : List ManyToOne := []
  inbound : List OneToMany := []
  /-- The columns of the table that refer to others, each once. -/
  foreignKeys : List String := []
deriving DecidableEq, Repr

/-- The list with `x` at the end, unless it is in the list. -/
def insertNew (xs : List String) (x : String) : List String :=
  if xs.contains x then xs else xs ++ [x]

namespace Table

/-- The two are the same table of the database. -/
def isSame (t u : Table) : Bool :=
  t.schema == u.schema && t.name == u.name

/-- How an entity refers to the entity of `target` through a column. -/
def reference (target : Table) (column : String) : ManyToOne :=
  ⟨column, pascalCase target.name, camelCase target.name⟩

/-- How the entity of `target` lists the entities of `source`. -/
def collection (target source : Table) : OneToMany :=
  ⟨pascalCase source.name, pluralize (camelCase source.name), camelCase target.name⟩

end Table

namespace Database

/-- The table of an endpoint, if it has the endpoint's column. -/
def endpointTable (db : Database) (e : Endpoint) : Except ResolveError Table :=
  match db.tableOf? e with
  | some t => if (t.column? e.column).isSome then .ok t else .error (.unknownColumn e)
  | none => .error (.unknownColumn e)

end Database

namespace Associations

/-- Adds what a relationship from `source` to `target` means for `t`. -/
def add (a : Associations) (t source target : Table) (r : Relationship) : Associations :=
  let a :=
    if source.isSame t then
      { a with
        outbound := a.outbound ++ [target.reference r.source.column]
        foreignKeys := insertNew a.foreignKeys r.source.column }
    else a
  if target.isSame t then { a with inbound := a.inbound ++ [target.collection source] } else a

/-- Adds what each of the relationships means for `t`, and stops at the first bad endpoint. -/
def addAll (db : Database) (t : Table) (a : Associations) :
    List Relationship → Except ResolveError Associations
  | [] => .ok a
  | r :: rest => do
    let source ← db.endpointTable r.source
    let target ← db.endpointTable r.target
    addAll db t (a.add t source target r) rest

end Associations

/-- The associations of a table of the database. -/
def Database.associations (db : Database) (t : Table) : Except ResolveError Associations :=
  Associations.addAll db t {} db.relationships

end EntityForge
