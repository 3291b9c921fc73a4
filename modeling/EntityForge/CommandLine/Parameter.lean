import EntityForge.CommandLine.Invocation

/-!
# Parameters

A parameter is an option with a value, a flag, or an operand by its position. A `Level` says which
parameters stand at one level of the command line: before the command, or after it.
-/

namespace EntityForge.CommandLine

/-- Something that arguments give a value to. -/
inductive Parameter where
  | config
  | output
  | project
  | viaArchive
  | help
  | version
  /-- An operand, counted from zero. -/
  | operand (index : Nat)
deriving DecidableEq, Repr

namespace Parameter

/-- The word after two hyphens. -/
def long : Parameter → String
  | config => "config"
  | output => "output"
  | project => "project"
  | viaArchive => "via-archive"
  | help => "help"
  | version => "version"
  | operand _ => ""

/-- The letter after one hyphen. -/
def short? : Parameter → Option Char
  | config => some 'c'
  | output => some 'o'
  | project => some 'p'
  | help => some 'h'
  | version => some 'V'
  | _ => none

/-- The parameter has a value; flags have none. -/
def takesValue : Parameter → Bool
  | viaArchive => false
  | help => false
  | version => false
  | _ => true

/-- The value can be empty; paths cannot. -/
def allowsEmpty : Parameter → Bool
  | project => true
  | _ => false

end Parameter

/-- The parameters of one level. -/
structure Level where
  options : List Parameter
  operands : Nat := 0

namespace Level

/-- The option with that word. -/
def ofLong? (l : Level) (word : String) : Option Parameter :=
  l.options.find? fun p => p.long == word

/-- The option with that letter. -/
def ofShort? (l : Level) (letter : Char) : Option Parameter :=
  l.options.find? fun p => p.short? == some letter

end Level

/-- The name of a command. -/
inductive CommandName where
  | generate
  | preview
  | tree
  | models
  | diff
deriving DecidableEq, Repr

namespace CommandName

/-- The commands and their names. -/
def names : List (String × CommandName) :=
  [("generate", generate), ("preview", preview), ("tree", tree), ("models", models),
    ("diff", diff)]

/-- The command of that name. -/
def ofName? (name : String) : Option CommandName :=
  names.lookup name

/-- The parameters after the command. -/
def level : CommandName → Level
  | generate => ⟨[.config, .help, .output], 1⟩
  | preview => ⟨[.config, .help, .project, .viaArchive], 1⟩
  | tree => ⟨[.config, .help, .project], 1⟩
  | models => ⟨[.config, .help], 1⟩
  | diff => ⟨[.config, .help], 2⟩

end CommandName

/-- The parameters before the command. -/
def outerLevel : Level :=
  ⟨[.config, .help, .version], 0⟩

end EntityForge.CommandLine
