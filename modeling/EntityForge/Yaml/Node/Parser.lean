import EntityForge.Yaml.Error
import EntityForge.Yaml.Layout
import EntityForge.Yaml.Node.Basic

/-!
# From tokens to nodes

Each reader takes the tokens that are left and the anchors that are known, and gives a node, or the
parts of a collection, with what is then left and known. Readers leave fewer tokens than they take,
which their results carry, so that the recursion ends.
-/

namespace EntityForge.Yaml

/-- The names of the anchors so far, each with the number of the last anchor of that name. -/
abbrev Anchors := List (String × Nat)

/-- The number of the next anchor: how many names there are. -/
def Anchors.next (a : Anchors) : Nat :=
  List.length a

/-- The anchors with one more: a name that is there gets the new number. -/
def Anchors.add (name : String) (a : Anchors) : Anchors :=
  (name, a.next) :: List.filter (fun e => e.1 != name) a

/-- What is left to read, and the anchors that are known. -/
structure ReadState where
  tokens : List Token
  anchors : Anchors

/-- A result and a state with fewer tokens than `s` has. -/
abbrev Shorter (α : Type) (s : ReadState) :=
  { r : α × ReadState // r.2.tokens.length < s.tokens.length }

/-- A result and a state with no more tokens than `s` has. -/
abbrev NotLonger (α : Type) (s : ReadState) :=
  { r : α × ReadState // r.2.tokens.length ≤ s.tokens.length }

/-- The state after its first token, if that is to be skipped. -/
def ReadState.skipIf (skips : Bool) (s : ReadState) : ReadState :=
  if skips then { s with tokens := s.tokens.tail } else s

theorem ReadState.skipIf_length_le (skips : Bool) (s : ReadState) :
    (s.skipIf skips).tokens.length ≤ s.tokens.length := by
  cases skips <;> simp [ReadState.skipIf]

/-- Nothing is written where a node could stand. -/
def Node.nothing : Node := .scalar none Scalar.nothing

/-- Where a node stands. -/
inductive NodePlace where
  /-- In a flow collection, where no block can start. -/
  | flow
  | block
  /-- At a key or a value of a block mapping, where a sequence need not be indented. -/
  | blockEntry
deriving DecidableEq

/-! ## Anchors and tags of a node -/

/-- What stands before a node: its anchor, and whether there is anything. -/
structure Properties where
  anchor : Option Nat := none
  isGiven : Bool := false

/-- Reads a tag whose handle has to be known; a tag without a handle is known. -/
def checkTag (handles : List String) (handle : String) : Except YamlError Unit :=
  if handle = "" || handles.contains handle then .ok () else .error (.undefinedTagHandle handle)

/-- Reads an anchor and a tag in any order. -/
def readProperties (handles : List String) (s : ReadState) :
    Except YamlError { r : Properties × ReadState //
      r.2.tokens.length ≤ s.tokens.length ∧
        (r.1.isGiven = true → r.2.tokens.length < s.tokens.length) } :=
  let named (name : String) (ts : List Token) : ReadState := ⟨ts, s.anchors.add name⟩
  match hs : s.tokens with
  | .anchor name :: .tag handle :: ts =>
    match checkTag handles handle with
    | .error e => .error e
    | .ok _ => .ok ⟨(⟨some s.anchors.next, true⟩, named name ts), by simp [named]; omega⟩
  | .anchor name :: ts => .ok ⟨(⟨some s.anchors.next, true⟩, named name ts), by simp [named]⟩
  | .tag handle :: .anchor name :: ts =>
    match checkTag handles handle with
    | .error e => .error e
    | .ok _ => .ok ⟨(⟨some s.anchors.next, true⟩, named name ts), by simp [named]; omega⟩
  | .tag handle :: ts =>
    match checkTag handles handle with
    | .error e => .error e
    | .ok _ => .ok ⟨(⟨none, true⟩, ⟨ts, s.anchors⟩), by simp⟩
  | _ => .ok ⟨({}, s), by simp [hs]⟩

/-! ## Nodes -/

/-- A node that starts with one of the tokens is not there. -/
def ReadState.startsWith (s : ReadState) (ts : List Token) : Bool :=
  s.tokens.head?.any fun t => ts.contains t

mutual

/-- Reads a node. -/
def readNode (handles : List String) (place : NodePlace) (s : ReadState) :
    Except YamlError (Shorter Node s) := do
  match hs : s.tokens with
  | .reference name :: ts =>
    match s.anchors.lookup name with
    | some n => .ok ⟨(.reference n, ⟨ts, s.anchors⟩), by simp [hs]⟩
    | none => .error (.unknownAnchor name)
  | _ =>
    let ⟨(p, s₁), hle, hlt⟩ ← readProperties handles s
    match h₁ : s₁.tokens with
    | .scalar text :: ts =>
      .ok ⟨(.scalar p.anchor text, ⟨ts, s₁.anchors⟩), by simp [h₁] at hle; simp; omega⟩
    | .flowSequence :: ts =>
      let ⟨(items, s₂), h₂⟩ ← readFlowItems handles ⟨ts, s₁.anchors⟩
      .ok ⟨(.sequence p.anchor items, s₂), by simp [h₁] at hle h₂; simp; omega⟩
    | .flowMapping :: ts =>
      let ⟨(entries, s₂), h₂⟩ ← readFlowEntries handles ⟨ts, s₁.anchors⟩
      .ok ⟨(.mapping p.anchor entries, s₂), by simp [h₁] at hle h₂; simp; omega⟩
    | .blockSequence :: .blockEntry :: ts =>
      if place = .flow then
        if hg : p.isGiven then .ok ⟨(.scalar p.anchor .nothing, s₁), hlt hg⟩
        else .error .unexpectedToken
      else
        let ⟨(items, s₂), h₂⟩ ← readItems handles [.blockEntry, .blockEnd] ⟨ts, s₁.anchors⟩
        match h₃ : s₂.tokens with
        | .blockEnd :: ts₃ =>
          .ok ⟨(.sequence p.anchor items, ⟨ts₃, s₂.anchors⟩), by
            simp [h₁] at hle; simp [h₃] at h₂; simp; omega⟩
        | _ => .error .unexpectedToken
    | .blockMapping :: ts =>
      if place = .flow then
        if hg : p.isGiven then .ok ⟨(.scalar p.anchor .nothing, s₁), hlt hg⟩
        else .error .unexpectedToken
      else
        let ⟨(entries, s₂), h₂⟩ ← readEntries handles ⟨ts, s₁.anchors⟩
        .ok ⟨(.mapping p.anchor entries, s₂), by simp [h₁] at hle h₂; simp; omega⟩
    | .blockEntry :: ts =>
      if place = .blockEntry then
        let ⟨(items, s₂), h₂⟩ ←
          readItems handles [.blockEntry, .key, .value, .blockEnd] ⟨ts, s₁.anchors⟩
        .ok ⟨(.sequence p.anchor items, s₂), by simp [h₁] at hle h₂; simp; omega⟩
      else if hg : p.isGiven then .ok ⟨(.scalar p.anchor .nothing, s₁), hlt hg⟩
      else .error .unexpectedToken
    | _ =>
      if hg : p.isGiven then .ok ⟨(.scalar p.anchor .nothing, s₁), hlt hg⟩
      else .error .unexpectedToken
termination_by (s.tokens.length, 0)
decreasing_by all_goals (simp [h₁] at hle; simp [Prod.lex_def]; omega)

/-- Reads a node, or nothing if one of the tokens in `ends` stands there. -/
def readOptional (handles : List String) (place : NodePlace) (ends : List Token) (s : ReadState) :
    Except YamlError (NotLonger Node s) := do
  if s.startsWith ends then .ok ⟨(.nothing, s), Nat.le_refl _⟩
  else
    let ⟨r, h⟩ ← readNode handles place s
    .ok ⟨r, Nat.le_of_lt h⟩
termination_by (s.tokens.length, 1)
decreasing_by simp [Prod.lex_def]

/-- Reads the items of a block sequence, after the dash of the first. An item can be missing before
the tokens in `ends`. -/
def readItems (handles : List String) (ends : List Token) (s : ReadState) :
    Except YamlError (NotLonger (List Node) s) := do
  let ⟨(item, s₁), h₁⟩ ← readOptional handles .block ends s
  match h₂ : s₁.tokens with
  | .blockEntry :: ts =>
    let ⟨(items, s₃), h₃⟩ ← readItems handles ends ⟨ts, s₁.anchors⟩
    .ok ⟨(item :: items, s₃), by simp [h₂] at h₁; simp at h₃ ⊢; omega⟩
  | _ => .ok ⟨([item], s₁), h₁⟩
termination_by (s.tokens.length, 2)
decreasing_by
  · simp [Prod.lex_def]
  · simp [h₂] at h₁; simp [Prod.lex_def]; omega

/-- Reads a value after its colon; there is none if there is no colon. -/
def readValue (handles : List String) (place : NodePlace) (ends : List Token) (s : ReadState) :
    Except YamlError (NotLonger Node s) := do
  match hs : s.tokens with
  | .value :: ts =>
    let ⟨r, h⟩ ← readOptional handles place ends ⟨ts, s.anchors⟩
    .ok ⟨r, by simp at h; simp [hs]; omega⟩
  | _ => .ok ⟨(.nothing, s), Nat.le_refl _⟩
termination_by (s.tokens.length, 2)
decreasing_by simp [hs, Prod.lex_def]

/-- Reads the entries of a block mapping up to its end. -/
def readEntries (handles : List String) (s : ReadState) :
    Except YamlError (Shorter (List (Node × Node)) s) := do
  match hs : s.tokens with
  | .key :: ts =>
    let ⟨(key, s₁), h₁⟩ ←
      readOptional handles .blockEntry [.key, .value, .blockEnd] ⟨ts, s.anchors⟩
    let ⟨(value, s₂), h₂⟩ ← readValue handles .blockEntry [.key, .value, .blockEnd] s₁
    let ⟨(entries, s₃), h₃⟩ ← readEntries handles s₂
    .ok ⟨((key, value) :: entries, s₃), by simp at h₁ h₂ h₃; simp [hs]; omega⟩
  | .blockEnd :: ts => .ok ⟨([], ⟨ts, s.anchors⟩), by simp [hs]⟩
  | _ => .error .unexpectedToken
termination_by (s.tokens.length, 3)
decreasing_by all_goals (simp_all [Prod.lex_def]; try omega)

/-- Reads the items of a flow sequence up to its end. An item with a key is a mapping of its own. -/
def readFlowItems (handles : List String) (s : ReadState) :
    Except YamlError (Shorter (List Node) s) := do
  match hs : s.tokens with
  | .flowSequenceEnd :: ts => .ok ⟨([], ⟨ts, s.anchors⟩), by simp [hs]⟩
  | _ =>
    let ⟨(item, s₁), h₁⟩ ← readFlowItem handles s
    match h₂ : s₁.tokens with
    | .flowSequenceEnd :: ts =>
      .ok ⟨([item], ⟨ts, s₁.anchors⟩), by simp [h₂] at h₁; simp; omega⟩
    | .flowEntry :: ts =>
      let ⟨(items, s₃), h₃⟩ ← readFlowItems handles ⟨ts, s₁.anchors⟩
      .ok ⟨(item :: items, s₃), by simp [h₂] at h₁; simp at h₃ ⊢; omega⟩
    | _ => .error .unexpectedToken
termination_by (s.tokens.length, 4)
decreasing_by
  · simp [Prod.lex_def]
  · simp [h₂] at h₁; simp [Prod.lex_def]; omega

/-- Reads an item of a flow sequence. Where a key is missing, the token in its place is skipped. -/
def readFlowItem (handles : List String) (s : ReadState) :
    Except YamlError (Shorter Node s) := do
  match hs : s.tokens with
  | .key :: ts =>
    let isMissing :=
      ReadState.startsWith ⟨ts, s.anchors⟩ [.value, .flowEntry, .flowSequenceEnd]
    let ⟨(key, s₁), h₁⟩ ←
      readOptional handles .flow [.value, .flowEntry, .flowSequenceEnd] ⟨ts, s.anchors⟩
    have h₂ := s₁.skipIf_length_le isMissing
    let ⟨(value, s₃), h₃⟩ ←
      readValue handles .flow [.flowEntry, .flowSequenceEnd] (s₁.skipIf isMissing)
    .ok ⟨(.mapping none [(key, value)], s₃), by
      rw [hs]; exact Nat.lt_succ_of_le (Nat.le_trans h₃ (Nat.le_trans h₂ h₁))⟩
  | _ => readNode handles .flow s
termination_by (s.tokens.length, 3)
decreasing_by
  · simp [hs, Prod.lex_def]
  · exact Prod.Lex.left _ _ (by rw [hs]; exact Nat.lt_succ_of_le (Nat.le_trans h₂ h₁))
  · simp [Prod.lex_def]

/-- Reads the entries of a flow mapping up to its end. -/
def readFlowEntries (handles : List String) (s : ReadState) :
    Except YamlError (Shorter (List (Node × Node)) s) := do
  match hs : s.tokens with
  | .flowMappingEnd :: ts => .ok ⟨([], ⟨ts, s.anchors⟩), by simp [hs]⟩
  | _ =>
    let ⟨(entry, s₁), h₁⟩ ← readFlowEntry handles s
    match h₂ : s₁.tokens with
    | .flowMappingEnd :: ts =>
      .ok ⟨([entry], ⟨ts, s₁.anchors⟩), by simp [h₂] at h₁; simp; omega⟩
    | .flowEntry :: ts =>
      let ⟨(entries, s₃), h₃⟩ ← readFlowEntries handles ⟨ts, s₁.anchors⟩
      .ok ⟨(entry :: entries, s₃), by simp [h₂] at h₁; simp at h₃ ⊢; omega⟩
    | _ => .error .unexpectedToken
termination_by (s.tokens.length, 4)
decreasing_by
  · simp [Prod.lex_def]
  · simp [h₂] at h₁; simp [Prod.lex_def]; omega

/-- Reads an entry of a flow mapping; one without a colon has no value. -/
def readFlowEntry (handles : List String) (s : ReadState) :
    Except YamlError (Shorter (Node × Node) s) := do
  match hs : s.tokens with
  | .key :: ts =>
    let ⟨(key, s₁), h₁⟩ ←
      readOptional handles .flow [.value, .flowEntry, .flowMappingEnd] ⟨ts, s.anchors⟩
    let ⟨(value, s₂), h₂⟩ ← readValue handles .flow [.flowEntry, .flowMappingEnd] s₁
    .ok ⟨((key, value), s₂), by simp at h₁ h₂; simp [hs]; omega⟩
  | _ =>
    let ⟨(key, s₁), h₁⟩ ← readNode handles .flow s
    .ok ⟨((key, .nothing), s₁), h₁⟩
termination_by (s.tokens.length, 3)
decreasing_by all_goals (simp_all [Prod.lex_def]; try omega)

end

end EntityForge.Yaml
