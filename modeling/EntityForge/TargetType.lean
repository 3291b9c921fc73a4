import EntityForge.Unicode.Lowercase

/-!
# Types of generated members

A column type is mapped to one of a few Java types. `TypeMap` looks a type up without regard to
letter case, first among its overrides and then in the default table.
-/

namespace EntityForge

/-- A Java type that a column can have. -/
inductive TargetType where
  | string
  | integer
  | long
  | double
  | boolean
  | localDate
  | localDateTime
  | bigDecimal
  | uuid
deriving DecidableEq, Repr

namespace TargetType

/-- The simple name of the type. -/
def name : TargetType → String
  | string => "String"
  | integer => "Integer"
  | long => "Long"
  | double => "Double"
  | boolean => "Boolean"
  | localDate => "LocalDate"
  | localDateTime => "LocalDateTime"
  | bigDecimal => "BigDecimal"
  | uuid => "UUID"

/-- The qualified name that a source file imports to use the type, if it has to. -/
def import? : TargetType → Option String
  | localDate => some "java.time.LocalDate"
  | localDateTime => some "java.time.LocalDateTime"
  | bigDecimal => some "java.math.BigDecimal"
  | uuid => some "java.util.UUID"
  | _ => none

/-- Every type. -/
def all : List TargetType :=
  [string, integer, long, double, boolean, localDate, localDateTime, bigDecimal, uuid]

/-- The type of that name. -/
def ofName? (s : String) : Option TargetType :=
  all.find? (·.name == s)

theorem ofName?_name (t : TargetType) : ofName? t.name = some t := by
  cases t <;> decide

end TargetType

/-- A name that is none of the target types. -/
structure UnknownTarget where
  name : String
deriving DecidableEq, Repr

/-- The text of the error. -/
def UnknownTarget.message (e : UnknownTarget) : String :=
  "Unknown target type: " ++ e.name

/-- Column types in lower case with the type that replaces the default one; the last override comes
first. -/
structure TypeMap where
  overrides : List (String × TargetType) := []
deriving DecidableEq, Repr

namespace TypeMap

/-- The map in which columns of type `type` have the given target. -/
def override (m : TypeMap) (type : String) (target : TargetType) : TypeMap :=
  ⟨(Unicode.lowercase type, target) :: m.overrides⟩

/-- The target of a type in lower case that is not overridden. -/
def defaultTarget (lower : String) : TargetType :=
  match lower with
  | "varchar" => .string
  | "int" => .integer
  | "boolean" => .boolean
  | "datetime" => .localDateTime
  | _ => .string

/-- The target of a column type. -/
def target (m : TypeMap) (type : String) : TargetType :=
  match m.overrides.lookup (Unicode.lowercase type) with
  | some t => t
  | none => defaultTarget (Unicode.lowercase type)

/-- Adds overrides given by the names of their targets, in order. -/
def addAll (m : TypeMap) : List (String × String) → Except UnknownTarget TypeMap
  | [] => .ok m
  | (type, name) :: rest =>
    match TargetType.ofName? name with
    | some t => (m.override type t).addAll rest
    | none => .error ⟨name⟩

end TypeMap

end EntityForge
