import EntityForge.Yaml.Token

/-!
# Nodes

A document is a tree of scalars, sequences and mappings. A node may have an anchor, and a reference
stands for the node with its anchor. Anchors are numbered, and of the nodes with one number the last
counts (`Document.target?`).
-/

namespace EntityForge.Yaml

/-- A node of a document. -/
inductive Node where
  | scalar (anchor : Option Nat) (scalar : Scalar)
  | sequence (anchor : Option Nat) (items : List Node)
  | mapping (anchor : Option Nat) (entries : List (Node × Node))
  | reference (anchor : Nat)
deriving Repr

/-- The plain scalar without text that stands where nothing is written. -/
def Scalar.nothing : Scalar := ⟨"", true⟩

mutual

/-- The nodes with the anchor, in the order in which they start. -/
def Node.anchored (n : Nat) : Node → List Node
  | .scalar a s => if a = some n then [.scalar a s] else []
  | .sequence a items =>
    (if a = some n then [.sequence a items] else []) ++ Node.anchoredItems n items
  | .mapping a entries =>
    (if a = some n then [.mapping a entries] else []) ++ Node.anchoredEntries n entries
  | .reference _ => []

/-- The same for the items of a sequence. -/
def Node.anchoredItems (n : Nat) : List Node → List Node
  | [] => []
  | item :: rest => Node.anchored n item ++ Node.anchoredItems n rest

/-- The same for the entries of a mapping. -/
def Node.anchoredEntries (n : Nat) : List (Node × Node) → List Node
  | [] => []
  | (key, value) :: rest =>
    Node.anchored n key ++ (Node.anchored n value ++ Node.anchoredEntries n rest)

end

/-- A document: a node, or nothing. -/
structure Document where
  root : Option Node
deriving Repr

namespace Document

/-- The node that references with this anchor stand for. -/
def target? (d : Document) (anchor : Nat) : Option Node :=
  d.root.bind fun root => (Node.anchored anchor root).getLast?

/-- The node itself, or the one that it stands for. -/
def resolve? (d : Document) : Node → Option Node
  | .reference anchor => d.target? anchor
  | node => some node

/-- The scalar that a node is or stands for. -/
def scalar? (d : Document) (node : Node) : Option Scalar :=
  match d.resolve? node with
  | some (.scalar _ s) => some s
  | _ => none

/-- The entries of the mapping that a node is or stands for. Nothing counts as a mapping without
entries. -/
def entries? (d : Document) (node : Node) : Option (List (Node × Node)) :=
  match d.resolve? node with
  | some (.mapping _ entries) => some entries
  | some (.scalar _ s) => if s = Scalar.nothing then some [] else none
  | _ => none

end Document

end EntityForge.Yaml
