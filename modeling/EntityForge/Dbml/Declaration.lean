import EntityForge.Dbml.Error
import EntityForge.Schema.Lookup

/-!
# Declarations

A document is a sequence of declarations and the body of a table a sequence of items. This module
says what each of them adds: `TableDraft.add` to the table being declared, `Database.declare` to the
database. Both refuse a name that is taken.
-/

namespace EntityForge.Dbml

/-- The sign between the two ends of a relationship. -/
inductive RelationSign where
  /-- `>`: many on the left, one on the right. -/
  | manyToOne
  /-- `<`: one on the left, many on the right. -/
  | oneToMany
  /-- `-` -/
  | oneToOne
  /-- `<>` -/
  | manyToMany
deriving DecidableEq, Repr

/-- The relationship between a left and a right endpoint; it is stored from its many side. -/
def RelationSign.relate (sign : RelationSign) (name : Option String) (left right : Endpoint) :
    Relationship :=
  match sign with
  | manyToOne => ⟨name, left, right, .manyToOne⟩
  | oneToMany => ⟨name, right, left, .manyToOne⟩
  | oneToOne => ⟨name, left, right, .oneToOne⟩
  | manyToMany => ⟨name, left, right, .manyToMany⟩

/-- A reference written among the settings of a column. -/
structure InlineRef where
  sign : RelationSign
  other : Endpoint
deriving DecidableEq, Repr

/-- An entry of an index block. -/
structure IndexEntry where
  columns : List String
  /-- The entry makes its columns a primary key. -/
  primary : Bool
deriving DecidableEq, Repr

/-- What can stand in the body of a table. -/
inductive TableItem where
  | column (column : Column) (refs : List InlineRef)
  | note (text : Option String)
  | indexes (entries : List IndexEntry)
deriving DecidableEq, Repr

/-- A table whose body is being read, and the references written in it so far. -/
structure TableDraft where
  table : Table
  refs : List Relationship
deriving DecidableEq, Repr

/-! ## Items of a table -/

/-- Makes the column part of the primary key, if it is not. -/
def promoteColumn (c : Column) : Column :=
  if c.isPrimaryKey then c else { c with settings := c.settings ++ [.primaryKey] }

/-- Makes the columns of a primary entry part of the primary key. -/
def IndexEntry.promote (e : IndexEntry) (columns : List Column) : List Column :=
  if e.primary then columns.map fun c => if e.columns.contains c.name then promoteColumn c else c
  else columns

/-- The relationship that a reference among the settings of a column of `t` stands for. -/
def InlineRef.relationship (r : InlineRef) (t : Table) (column : String) : Relationship :=
  r.sign.relate none ⟨t.schema, t.name, column⟩ r.other

/-- The draft with one more item of the body. -/
def TableDraft.add (d : TableDraft) : TableItem → Except ParseError TableDraft
  | .column c refs =>
    if (d.table.column? c.name).isSome then .error (.duplicateColumn d.table.name c.name)
    else .ok {
      table := { d.table with columns := d.table.columns ++ [c] }
      refs := d.refs ++ refs.map (·.relationship d.table c.name) }
  | .note text => .ok { d with table := { d.table with note := text } }
  | .indexes entries =>
    .ok { d with table := { d.table with
      columns := entries.foldl (fun columns e => e.promote columns) d.table.columns } }

/-! ## Declarations of a document -/

/-- What can stand at the top of a document. -/
inductive Declaration where
  /-- A table with the references written in its body. -/
  | table (table : Table) (refs : List Relationship)
  | refs (refs : List Relationship)
  | enum (name : String)
  | project (name : String)
  /-- Notes, groups and records, which say nothing about the database. -/
  | remark
deriving DecidableEq, Repr

end EntityForge.Dbml

namespace EntityForge.Database

open Dbml

/-- The database with one more declaration. -/
def declare (db : Database) : Declaration → Except ParseError Database
  | .table t refs =>
    if ((db.schema? t.schema).bind (·.table? t.name)).isSome then .error (.duplicateTable t.name)
    else .ok ((db.addTable t.schema t).addRelationships refs)
  | .refs refs => .ok (db.addRelationships refs)
  | .enum name => .ok { db with enums := db.enums ++ [name] }
  | .project name => .ok { db with project := some name }
  | .remark => .ok db

end EntityForge.Database
