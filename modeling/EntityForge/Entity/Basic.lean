import EntityForge.TargetType

/-!
# Entities

An entity is what is generated for a table: a class with a member for each plain column, one for
each reference to another entity and one for each list of entities that refer to it. Lists keep
declaration order.
-/

namespace EntityForge

/-- The column that identifies an entity. -/
structure Identifier where
  columnName : String
  fieldName : String
  target : TargetType
deriving DecidableEq, Repr

/-- A member for a column that refers to nothing. -/
structure PlainField where
  columnName : String
  fieldName : String
  target : TargetType
  /-- The column belongs to the primary key. -/
  isId : Bool
deriving DecidableEq, Repr

/-- A member that holds the entity that a column refers to. -/
structure ManyToOne where
  joinColumn : String
  targetClass : String
  fieldName : String
deriving DecidableEq, Repr

/-- A member that lists the entities that refer to this one through their member `mappedBy`. -/
structure OneToMany where
  targetClass : String
  fieldName : String
  mappedBy : String
deriving DecidableEq, Repr

/-- The class that is generated for a table. -/
structure Entity where
  packageName : String
  tableName : String
  className : String
  /-- Absent if the table has no primary key. -/
  id : Option Identifier
  /-- The database generates the identifier. -/
  hasIncrement : Bool
  fields : List PlainField
  manyToOne : List ManyToOne
  oneToMany : List OneToMany
  /-- Qualified names, in order of first use and each once. -/
  imports : List String
deriving DecidableEq, Repr

namespace Entity

/-- The type of the identifier. -/
def idType? (e : Entity) : Option TargetType :=
  e.id.map (·.target)

/-- The names of the plain members. -/
def fieldNames (e : Entity) : List String :=
  e.fields.map (·.fieldName)

end Entity

end EntityForge
