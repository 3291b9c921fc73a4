import EntityForge.Change
import EntityForge.Entity.Basic
import EntityForge.FileTree.Basic
import EntityForge.Json.Basic
import EntityForge.Schema.Basic
import EntityForge.Settings.Basic

/-!
# JSON forms

The JSON form of each thing that is shown: databases, entities, file trees, changes and settings.
-/

namespace EntityForge

/-! ## Databases -/

/-- The name of a setting; values are members of an object under that name. -/
def Setting.toJson : Setting → Json
  | primaryKey => .str "PrimaryKey"
  | increment => .str "Increment"
  | notNull => .str "NotNull"
  | null => .str "Null"
  | unique => .str "Unique"
  | defaultValue s => .obj [("Default", .str s)]
  | note s => .obj [("Note", .str s)]

/-- A column with its settings in the order in which they are declared. -/
def Column.toJson (c : Column) : Json :=
  .obj [("name", .str c.name), ("typ", .str c.type),
    ("settings", .arr (c.settings.map (·.toJson)))]

/-- A table with its columns; a second name or note that is not declared is null. -/
def Table.toJson (t : Table) : Json :=
  .obj [("schema", .str t.schema), ("name", .str t.name), ("alias", .ofOption t.aliasName),
    ("columns", .arr (t.columns.map (·.toJson))), ("note", .ofOption t.note)]

/-- A schema with its tables. -/
def Schema.toJson (s : Schema) : Json :=
  .obj [("name", .str s.name), ("tables", .arr (s.tables.map (·.toJson)))]

/-- One end of a relationship. -/
def Endpoint.toJson (e : Endpoint) : Json :=
  .obj [("schema", .str e.schema), ("table", .str e.table), ("column", .str e.column)]

/-- The name of a kind of relationship. -/
def RelationKind.toJson : RelationKind → Json
  | manyToOne => .str "ManyToOne"
  | oneToOne => .str "OneToOne"
  | manyToMany => .str "ManyToMany"

/-- A relationship; its source is what refers, its target what is referred to. -/
def Relationship.toJson (r : Relationship) : Json :=
  .obj [("name", .ofOption r.name), ("from", r.source.toJson), ("to", r.target.toJson),
    ("kind", r.kind.toJson)]

/-- A database with its schemas, relationships and enumerations in declaration order. -/
def Database.toJson (db : Database) : Json :=
  .obj [("project", .ofOption db.project), ("schemas", .arr (db.schemas.map (·.toJson))),
    ("relationships", .arr (db.relationships.map (·.toJson))), ("enums", .arr (db.enums.map .str))]

/-! ## Entities -/

/-- The identifier of an entity. -/
def Identifier.toJson (i : Identifier) : Json :=
  .obj [("column_name", .str i.columnName), ("field_name", .str i.fieldName),
    ("target", .str i.target.name)]

/-- A field of an entity that holds a value. -/
def PlainField.toJson (f : PlainField) : Json :=
  .obj [("column_name", .str f.columnName), ("field_name", .str f.fieldName),
    ("target", .str f.target.name), ("is_id", .bool f.isId)]

/-- A field of an entity that refers to another entity. -/
def ManyToOne.toJson (r : ManyToOne) : Json :=
  .obj [("join_column", .str r.joinColumn), ("target_class", .str r.targetClass),
    ("field_name", .str r.fieldName)]

/-- A field of an entity that holds the entities that refer to it. -/
def OneToMany.toJson (r : OneToMany) : Json :=
  .obj [("target_class", .str r.targetClass), ("field_name", .str r.fieldName),
    ("mapped_by", .str r.mappedBy)]

/-- An entity; one without an identifier has null in its place. -/
def Entity.toJson (e : Entity) : Json :=
  .obj [("package_name", .str e.packageName), ("table_name", .str e.tableName),
    ("class_name", .str e.className), ("id", e.id.elim .null (·.toJson)),
    ("has_increment", .bool e.hasIncrement), ("fields", .arr (e.fields.map (·.toJson))),
    ("many_to_one", .arr (e.manyToOne.map (·.toJson))),
    ("one_to_many", .arr (e.oneToMany.map (·.toJson))), ("imports", .arr (e.imports.map .str))]

/-! ## File trees -/

mutual

/-- A node with its children, which lose their keys. -/
def FileNode.toJson : FileNode → Json
  | .file n p c l =>
    .obj [("name", .str n), ("type", .str "file"), ("path", .str p), ("content", .str c),
      ("language", .str l.name), ("children", .arr [])]
  | .folder n p cs =>
    .obj [("name", .str n), ("type", .str "folder"), ("path", .str p),
      ("children", .arr (FileNode.childrenToJson cs))]

/-- The JSON forms of children. -/
def FileNode.childrenToJson : List (String × FileNode) → List Json
  | [] => []
  | (_, n) :: rest => n.toJson :: FileNode.childrenToJson rest

end

/-! ## Changes and settings -/

/-- A change of a field. -/
def Change.toJson (c : Change) : Json :=
  .obj [("element", .str c.element), ("type", .str "FIELD"), ("action", .str c.action.name),
    ("detail", .str c.detail)]

/-- All settings, the overrides by column type. -/
def Settings.toJson (s : Settings) : Json :=
  .obj [("package_name", .str s.packageName), ("schema", .str s.schema),
    ("project_name", .str s.projectName),
    ("type_overrides", .obj (s.typeOverrides.map fun o => (o.1, .str o.2)))]

end EntityForge
