import EntityForge.Archive.BitReader

/-!
# Huffman codes

`Huffman.ofLengths` is the canonical code in which each symbol has a code of a given length.
`Huffman.decode?` reads the code of a symbol, which takes at least one bit (`decode?_remaining_lt`).
-/

namespace EntityForge.Archive

/-- The longest code. -/
def maxCodeLength : Nat := 15

/-- A canonical code: how many symbols have codes of each length from 1 on, and the symbols in the
order of their codes. -/
structure Huffman where
  counts : List Nat
  symbols : Array Nat

namespace Huffman

/-- The symbols whose code has that length, in increasing order. -/
def symbolsOfLength (lengths : List Nat) (n : Nat) : List Nat :=
  (lengths.zipIdx.filter fun p => p.1 == n).map (·.2)

/-- The canonical code with a code length for each symbol; symbols of length zero have none. -/
def ofLengths (lengths : List Nat) : Huffman :=
  let byLength := (List.range maxCodeLength).map fun n => symbolsOfLength lengths (n + 1)
  ⟨byLength.map List.length, byLength.flatten.toArray⟩

/-- The number of codes that are left free when codes of all lengths are given out, from `left`
codes of the current length on; `none` if there are too few. -/
def freeCodes (left : Nat) : List Nat → Option Nat
  | [] => some left
  | count :: rest => if count ≤ 2 * left then freeCodes (2 * left - count) rest else none

/-- Every sequence of bits starts with a code or is the start of one. -/
def isComplete (h : Huffman) : Bool :=
  freeCodes 1 h.counts == some 0

/-- The code can be used in a block: it is complete, or has no symbol, or one whose code is a single
bit. -/
def isUsable (h : Huffman) : Bool :=
  h.isComplete || h.symbols.isEmpty || (h.symbols.size == 1 && h.counts.head? == some 1)

/-- Reads a code bit by bit. `code` holds the bits so far, `first` the first code of that length and
`index` the place of its symbol. Bits stand for no symbol if no longer code is left. -/
def decodeFrom (h : Huffman) (code first index : Nat) (r : BitReader) :
    List Nat → Option (Option Nat × BitReader)
  | [] => some (none, r)
  | count :: rest => do
    let (bit, r) ← r.bit?
    let code := 2 * code + bit
    let first := 2 * first
    if code < first + count then some (h.symbols[index + (code - first)]?, r)
    else if h.symbols.size ≤ index + count then some (none, r)
    else h.decodeFrom code (first + count) (index + count) r rest

/-- Reads the code of a symbol: `none` if the data stop, and no symbol if the bits are no code. -/
def decode? (h : Huffman) (r : BitReader) : Option (Option Nat × BitReader) :=
  h.decodeFrom 0 0 0 r h.counts

theorem decodeFrom_remaining_le {h : Huffman} {code first index : Nat} {r r' : BitReader}
    {counts : List Nat} {s : Option Nat}
    (e : h.decodeFrom code first index r counts = some (s, r')) :
    r'.remaining ≤ r.remaining := by
  induction counts generalizing code first index r with
  | nil => simp_all [decodeFrom]
  | cons count rest ih =>
    simp only [decodeFrom, Option.bind_eq_bind, Option.bind_eq_some_iff] at e
    obtain ⟨⟨bit, r1⟩, h1, h2⟩ := e
    have := BitReader.bit?_remaining_lt h1
    split at h2
    · simp only [Option.some.injEq, Prod.mk.injEq] at h2
      rw [← h2.2]
      exact Nat.le_of_lt this
    · split at h2
      · simp only [Option.some.injEq, Prod.mk.injEq] at h2
        rw [← h2.2]
        exact Nat.le_of_lt this
      · have : r'.remaining ≤ r1.remaining := ih h2
        omega

theorem decode?_remaining_lt {h : Huffman} {r r' : BitReader} {s : Nat}
    (e : h.decode? r = some (some s, r')) : r'.remaining < r.remaining := by
  unfold decode? at e
  cases hc : h.counts with
  | nil => simp [hc, decodeFrom] at e
  | cons count rest =>
    rw [hc] at e
    simp only [decodeFrom, Option.bind_eq_bind, Option.bind_eq_some_iff] at e
    obtain ⟨⟨bit, r1⟩, h1, h2⟩ := e
    have := BitReader.bit?_remaining_lt h1
    split at h2
    · simp only [Option.some.injEq, Prod.mk.injEq] at h2
      rw [← h2.2]
      exact this
    · split at h2
      · simp only [Option.some.injEq, Prod.mk.injEq] at h2
        rw [← h2.2]
        exact this
      · have : r'.remaining ≤ r1.remaining := decodeFrom_remaining_le h2
        omega

end Huffman

end EntityForge.Archive
