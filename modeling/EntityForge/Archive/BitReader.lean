/-!
# Reading bits

A `BitReader` takes bits from bytes, from the lowest to the highest of each byte. What is taken
shortens what remains (`bit?_remaining_lt`, `bits?_remaining_le`).
-/

namespace EntityForge.Archive

/-- A place in a sequence of bits. -/
structure BitReader where
  data : ByteArray
  /-- The number of bits taken. -/
  position : Nat := 0

namespace BitReader

/-- The number of bits that are left. -/
def remaining (r : BitReader) : Nat :=
  8 * r.data.size - r.position

/-- The next bit. -/
def bit? (r : BitReader) : Option (Nat × BitReader) :=
  if h : r.position / 8 < r.data.size then
    some (((r.data[r.position / 8]).toNat >>> (r.position % 8)) % 2,
      { r with position := r.position + 1 })
  else none

/-- The next `n` bits as a number, the first bit lowest. -/
def bits? (r : BitReader) : Nat → Option (Nat × BitReader)
  | 0 => some (0, r)
  | n + 1 => do
    let (low, r) ← r.bit?
    let (high, r) ← r.bits? n
    some (low + 2 * high, r)

/-- How many bytes of data are taken at once. -/
def pieceSize : Nat := 8192

/-- The byte with which the piece begins in which the last bit taken stands. -/
def pieceStart (r : BitReader) : Nat :=
  (r.position - 1) / (8 * pieceSize) * pieceSize

/-- The first byte of which no bit is taken. -/
def nextByte (r : BitReader) : Nat :=
  (r.position + 7) / 8

/-- Goes on to the start of a byte. -/
def align (r : BitReader) : BitReader :=
  { r with position := 8 * r.nextByte }

theorem bit?_remaining_lt {r r' : BitReader} {b : Nat} (h : r.bit? = some (b, r')) :
    r'.remaining < r.remaining := by
  unfold bit? at h
  split at h
  · simp only [Option.some.injEq, Prod.mk.injEq] at h
    rw [← h.2]
    simp only [remaining]
    omega
  · simp at h

theorem bits?_remaining_le {n : Nat} {r r' : BitReader} {b : Nat}
    (h : r.bits? n = some (b, r')) : r'.remaining ≤ r.remaining := by
  induction n generalizing r r' b with
  | zero => simp_all [bits?]
  | succ n ih =>
    simp only [bits?, Option.bind_eq_bind, Option.bind_eq_some_iff] at h
    obtain ⟨⟨low, r1⟩, h1, ⟨high, r2⟩, h2, h3⟩ := h
    have := bit?_remaining_lt h1
    have : r2.remaining ≤ r1.remaining := ih h2
    simp only [Option.some.injEq, Prod.mk.injEq] at h3
    rw [← h3.2]
    exact Nat.le_trans this (Nat.le_of_lt ‹_›)

end BitReader

end EntityForge.Archive
