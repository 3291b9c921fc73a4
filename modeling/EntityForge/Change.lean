import EntityForge.Java.SourceUnit

/-!
# Changes between two source files

`changes old new` compares the fields of two sources by name: first what the new one has added or
modified, in its order, then what the old one has lost, in that order. A name that is declared
several times has the type of its last declaration and the place of its first one.
-/

namespace EntityForge

open Java

/-- What happened to a field. -/
inductive ChangeAction where
  | added
  | removed
  | modified
deriving DecidableEq, Repr

/-- The name of the action. -/
def ChangeAction.name : ChangeAction → String
  | added => "ADDED"
  | removed => "REMOVED"
  | modified => "MODIFIED"

/-- A field that differs between two sources. -/
structure Change where
  element : String
  action : ChangeAction
  detail : String
deriving DecidableEq, Repr

/-- The types of the fields of a source by name, in order of first declaration. -/
abbrev FieldTypes := List (String × String)

namespace FieldTypes

/-- Gives a name a type: at its place if it has one, else at the end. -/
def insert (name type : String) : FieldTypes → FieldTypes
  | [] => [(name, type)]
  | (n, t) :: rest => if n == name then (n, type) :: rest else (n, t) :: insert name type rest

/-- The types of fields by name. -/
def ofFields (fields : List FieldDecl) : FieldTypes :=
  fields.foldl (fun m f => insert f.name f.type m) []

/-- The change of a field that has the type `type` in the new source. -/
def changeOf? (old : FieldTypes) (name type : String) : Option Change :=
  match old.lookup name with
  | none => some ⟨name, .added, "type: " ++ type⟩
  | some previous =>
    if previous == type then none
    else some ⟨name, .modified, "changed from " ++ previous ++ " to " ++ type⟩

/-- The changes from one source to another. -/
def changes (old new : FieldTypes) : List Change :=
  new.filterMap (fun f => changeOf? old f.1 f.2)
  ++ (old.filter fun f => (new.lookup f.1).isNone).map fun f => ⟨f.1, .removed, "field removed"⟩

end FieldTypes

/-- The changes from one list of fields to another. -/
def changesOfFields (old new : List FieldDecl) : List Change :=
  (FieldTypes.ofFields old).changes (FieldTypes.ofFields new)

/-- The changes from one source text to another. -/
def changesOfSources (old new : String) : Except SourceError (List Change) := do
  let old ← fieldsOfSource old
  let new ← fieldsOfSource new
  .ok (changesOfFields old new)

end EntityForge
