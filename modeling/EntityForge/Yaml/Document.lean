import EntityForge.Yaml.Node.Parser

/-!
# Whole documents

A text is one document, with directives and marks of its start and end where they are wanted, or it
is blank. `Document.ofText` reads it.
-/

namespace EntityForge.Yaml

/-- What the directives before a document say. -/
structure Directives where
  hasVersion : Bool := false
  handles : List String := []

namespace Directives

/-- The handles that need no directive. -/
def defaultHandles : List String := ["!", "!!"]

/-- Adds the version of the document, which can be given once. -/
def addVersion (major minor : Nat) (d : Directives) : Except YamlError Directives :=
  if d.hasVersion then .error .repeatedDirective
  else if major = 1 ∧ (minor = 1 ∨ minor = 2) then .ok { d with hasVersion := true }
  else .error .unsupportedVersion

/-- Adds a handle, which can be given once. -/
def addHandle (handle : String) (d : Directives) : Except YamlError Directives :=
  if d.handles.contains handle then .error .repeatedDirective
  else .ok { d with handles := handle :: d.handles }

/-- Reads directives up to the mark that starts the document. -/
def read (d : Directives) : List Token → Except YamlError (Directives × List Token)
  | .versionDirective major minor :: rest =>
    match d.addVersion major minor with
    | .error e => .error e
    | .ok d => read d rest
  | .tagDirective handle :: rest =>
    match d.addHandle handle with
    | .error e => .error e
    | .ok d => read d rest
  | .documentStart :: rest => .ok (d, rest)
  | _ => .error .unexpectedToken

end Directives

/-- A document with a mark at its start has no content if it ends there. -/
def isEmptyContent : List Token → Bool
  | [] => true
  | .versionDirective _ _ :: _ => true
  | .tagDirective _ :: _ => true
  | .documentStart :: _ => true
  | .documentEnd :: _ => true
  | _ => false

/-- Reads the node of a document, after its start. -/
def readRoot (handles : List String) (ts : List Token) :
    Except YamlError (Node × List Token) := do
  let r ← readNode (handles ++ Directives.defaultHandles) .block ⟨ts, []⟩
  .ok (r.1.1, r.1.2.tokens)

/-- Reads a document after the directives and the mark of its start. -/
def readContent (handles : List String) (ts : List Token) :
    Except YamlError (Node × List Token) :=
  if isEmptyContent ts then .ok (.nothing, ts) else readRoot handles ts

/-- The document that the tokens stand for. -/
def Document.ofTokens (ts : List Token) : Except YamlError Document := do
  let (root, rest) ←
    match ts with
    | [] => Except.ok (none, [])
    | .versionDirective _ _ :: _ | .tagDirective _ :: _ | .documentStart :: _ =>
      let (d, rest) ← Directives.read {} ts
      (readContent d.handles rest).map fun (root, rest) => (some root, rest)
    | ts => (readRoot [] ts).map fun (root, rest) => (some root, rest)
  if rest.all (· == .documentEnd) then .ok ⟨root⟩ else .error .severalDocuments

/-- Reads a text as a document. -/
def Document.ofText (text : String) : Except YamlError Document := do
  Document.ofTokens (← tokens text)

end EntityForge.Yaml
