import EntityForge.Unicode.Lowercase

/-!
# Languages of files

The language of a file is told from the ending of its name, in any letter case.
-/

namespace EntityForge

/-- What the content of a file is written in. -/
inductive Language where
  | java
  | xml
  | sql
  | yaml
  | json
  | text
deriving DecidableEq, Repr

namespace Language

/-- The name of the language. -/
def name : Language → String
  | java => "java"
  | xml => "xml"
  | sql => "sql"
  | yaml => "yaml"
  | json => "json"
  | text => "text"

/-- The endings that are known, with their languages. -/
def endings : List (String × Language) :=
  [(".java", java), (".xml", xml), (".sql", sql), (".yml", yaml), (".yaml", yaml), (".json", json)]

/-- The language of a file of that name. -/
def ofFileName (name : String) : Language :=
  let lower := (Unicode.lowercase name).toList
  match endings.find? fun e => e.1.toList.isSuffixOf lower with
  | some e => e.2
  | none => text

end Language

end EntityForge
