/-!
# Invocations

An invocation is a command with its operands and, for any command, a file of settings. A
`UsageError` says why a list of arguments is none; asking for help or for the version counts as one.
-/

namespace EntityForge.CommandLine

/-- What the program is to do. -/
inductive Command where
  /-- Write the archive of the project of a schema. -/
  | generate (schema output : String)
  /-- Show the tree of the project of a schema, perhaps as its archive holds it. -/
  | preview (schema : String) (project : Option String) (viaArchive : Bool)
  /-- Show the tree of an archive. -/
  | tree (archive : String) (project : Option String)
  /-- Show the entities of a schema. -/
  | models (schema : String)
  /-- Show the changes of fields between two sources. -/
  | diff (old new : String)
deriving DecidableEq, Repr

/-- A command, and the file of settings if there is one. -/
structure Invocation where
  config : Option String
  command : Command
deriving DecidableEq, Repr

/-- Why a list of arguments is no invocation. -/
inductive UsageError where
  /-- There are no arguments. -/
  | noArguments
  | missingCommand
  | unknownCommand
  | unknownArgument
  | missingArgument
  /-- An option has no value, or a path is empty. -/
  | missingValue
  /-- A flag has a value. -/
  | unneededValue
  /-- An option is given twice. -/
  | repeatedArgument
  | helpWanted
  | versionWanted
deriving DecidableEq, Repr

end EntityForge.CommandLine
