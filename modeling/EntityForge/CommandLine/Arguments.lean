import EntityForge.CommandLine.Parameter

/-!
# Reading arguments

The arguments of a level are read in order. An option waits for its value in the next argument, and
every value is checked when the next parameter comes or the arguments end; of two errors the one
that is found first counts. After `--` all arguments are operands. `Invocation.ofArguments` reads
the arguments of both levels.
-/

namespace EntityForge.CommandLine

/-- A parameter whose value is not checked yet, or still missing. -/
structure Pending where
  parameter : Parameter
  value : Option String

/-- What is known while the arguments of a level are read. -/
structure Reading where
  /-- The parameters that have a value. -/
  given : List (Parameter × String) := []
  pending : Option Pending := none
  /-- How many operands there were. -/
  operands : Nat := 0
  /-- `--` was read. -/
  onlyOperands : Bool := false

namespace Reading

/-- The parameter has a value. -/
def has (r : Reading) (p : Parameter) : Bool :=
  r.given.any fun g => g.1 == p

/-- The value of a parameter. -/
def value? (r : Reading) (p : Parameter) : Option String :=
  r.given.lookup p

/-- Gives a parameter its value. -/
def accept (r : Reading) (p : Parameter) (value : String) : Except UsageError Reading :=
  if r.has p then .error .repeatedArgument
  else if value = "" && !p.allowsEmpty then .error .missingValue
  else .ok { r with given := (p, value) :: r.given }

/-- Checks the value of the parameter that waits for it. -/
def settle (r : Reading) : Except UsageError Reading :=
  match r.pending with
  | none => .ok r
  | some ⟨_, none⟩ => .error .missingValue
  | some ⟨p, some value⟩ => { r with pending := none }.accept p value

/-- An option is waiting for its value. -/
def awaitsValue (r : Reading) : Bool :=
  !r.onlyOperands && r.pending.any fun p => p.value.isNone

/-- Adds a parameter that is waiting for its value, or whose value is not checked yet. -/
def await (r : Reading) (p : Parameter) (value : Option String) : Except UsageError Reading := do
  let r ← r.settle
  .ok { r with pending := some ⟨p, value⟩ }

/-- Adds a flag. Help and the version are shown at once. -/
def raise (r : Reading) (p : Parameter) : Except UsageError Reading := do
  let r ← r.settle
  match p with
  | .help => .error .helpWanted
  | .version => .error .versionWanted
  | p => r.accept p "true"

/-- Adds an option with the value that stands in the same argument. -/
def attach (r : Reading) (p : Parameter) (value : String) : Except UsageError Reading := do
  let r ← r.settle
  r.accept p value

/-- Reads an argument that starts with two hyphens. -/
def readLong (l : Level) (r : Reading) (text : List Char) : Except UsageError Reading :=
  let word := text.takeWhile (· != '=')
  let value? := (text.dropWhile (· != '=')).tail?.map String.ofList
  match l.ofLong? (String.ofList word), value? with
  | none, _ => .error .unknownArgument
  | some p, value? =>
    if p.takesValue then
      match value? with
      | some value => r.attach p value
      | none => r.await p none
    else if value?.isSome then .error .unneededValue
    else r.raise p

/-- Reads the letters after one hyphen. The rest of the argument after an option is its value; an
equals sign before the value does not count. -/
def readShort (l : Level) (r : Reading) : List Char → Except UsageError Reading
  | [] => .ok r
  | c :: rest =>
    match l.ofShort? c with
    | none => .error .unknownArgument
    | some p =>
      if p.takesValue then
        match rest with
        | [] => r.await p none
        | '=' :: value => r.attach p (String.ofList value)
        | value => r.attach p (String.ofList value)
      else do
        let r ← r.raise p
        readShort l r rest

/-- Reads an operand. -/
def readOperand (l : Level) (r : Reading) (argument : String) : Except UsageError Reading :=
  if r.operands < l.operands then do
    let r ← r.await (.operand r.operands) (some argument)
    .ok { r with operands := r.operands + 1 }
  else .error .unknownArgument

/-- Reads an argument as the value that is waited for, or as an operand. -/
def readPlain (l : Level) (r : Reading) (argument : String) : Except UsageError Reading :=
  match r.pending with
  | some ⟨p, none⟩ => .ok { r with pending := some ⟨p, some argument⟩ }
  | _ => r.readOperand l argument

/-- Reads an argument. -/
def read (l : Level) (r : Reading) (argument : String) : Except UsageError Reading :=
  if r.onlyOperands then r.readOperand l argument
  else
    match argument.toList with
    | ['-', '-'] => .ok { r with onlyOperands := true }
    | '-' :: '-' :: text => r.readLong l text
    | ['-'] => r.readPlain l argument
    | '-' :: letters => r.readShort l letters
    | _ => r.readPlain l argument

/-- Reads the arguments of a level to their end. -/
def readAll (l : Level) (r : Reading) : List String → Except UsageError Reading
  | [] => r.settle
  | argument :: rest => do
    let r ← r.read l argument
    readAll l r rest

end Reading

namespace CommandName

/-- The value of a parameter that has to be given. -/
def need (r : Reading) (p : Parameter) : Except UsageError String :=
  match r.value? p with
  | some value => .ok value
  | none => .error .missingArgument

/-- The command with the values that were read. -/
def command (r : Reading) : CommandName → Except UsageError Command
  | generate => do .ok (.generate (← need r (.operand 0)) (← need r .output))
  | preview => do
    .ok (.preview (← need r (.operand 0)) (r.value? .project) (r.has .viaArchive))
  | tree => do .ok (.tree (← need r (.operand 0)) (r.value? .project))
  | models => do .ok (.models (← need r (.operand 0)))
  | diff => do .ok (.diff (← need r (.operand 0)) (← need r (.operand 1)))

end CommandName

/-- The word that asks for help on a command. -/
def helpWord : String := "help"

/-- Answers a request for help: it may name one command, or itself. -/
def helpOn (arguments : List String) : UsageError :=
  match arguments with
  | [] => .helpWanted
  | [name] =>
    if name = helpWord || (CommandName.ofName? name).isSome then .helpWanted else .unknownCommand
  | _ => .unknownCommand

namespace Invocation

/-- Reads the arguments after the name of a command. -/
def ofCommand (outer : Reading) (name : CommandName) (arguments : List String) :
    Except UsageError Invocation := do
  let inner ← Reading.readAll name.level {} arguments
  let command ← name.command inner
  let outer ← outer.settle
  .ok ⟨inner.value? .config <|> outer.value? .config, command⟩

/-- What is wrong if there is no command. -/
def missing (r : Reading) : UsageError :=
  match r.settle with
  | .error e => e
  | .ok r => if r.given.isEmpty then .noArguments else .missingCommand

/-- What is wrong with an operand where a command is expected. -/
def misplaced (r : Reading) (argument : String) : UsageError :=
  let isCommand := argument = helpWord || (CommandName.ofName? argument).isSome
  if r.onlyOperands && isCommand then .unknownArgument else .unknownCommand

/-- Reads arguments up to the name of a command, and then those of the command. -/
def ofArgumentsAfter (r : Reading) : List String → Except UsageError Invocation
  | [] => .error (missing r)
  | argument :: rest =>
    let isWord := r.onlyOperands || !argument.startsWith "-" || argument = "-"
    if isWord && !r.awaitsValue then
      match CommandName.ofName? argument with
      | some name =>
        if r.onlyOperands then .error (misplaced r argument) else ofCommand r name rest
      | none =>
        if argument = helpWord && !r.onlyOperands then .error (helpOn rest)
        else .error (misplaced r argument)
    else do
      let r ← r.read outerLevel argument
      ofArgumentsAfter r rest

/-- The invocation that the arguments after the name of the program stand for. -/
def ofArguments (arguments : List String) : Except UsageError Invocation :=
  ofArgumentsAfter {} arguments

end Invocation

end EntityForge.CommandLine
