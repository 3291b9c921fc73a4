import EntityForge.Archive.BitReader
import EntityForge.Archive.ByteStream

/-!
# Decoded bytes

Data are decoded in pieces into a window, and what is decoded is handed out when a piece or the
window ends. `Decoded` holds the bytes and how many of them have been handed out, which are those that
can be read if the data turn out to break their format (`Decoded.broken`).
-/

namespace EntityForge.Archive

/-- How many decoded bytes are kept to be handed out. -/
def windowSize : Nat := 32768

/-- What has been decoded. Bytes are handed out when the piece of data at hand ends, and when the
window is full and a byte is to follow. -/
structure Decoded where
  bytes : ByteArray := .empty
  /-- How many bytes have been handed out. -/
  settled : Nat := 0
  /-- The first byte of the data that was not taken when they were handed out. -/
  begun : Nat := 0

namespace Decoded

/-- The data up to `r` are taken: a new piece begins if the last bit taken is not in the old one. -/
def takeTo (d : Decoded) (r : BitReader) : Decoded :=
  if d.begun < r.pieceStart then { d with settled := d.bytes.size, begun := r.pieceStart } else d

/-- A byte is to follow when the data up to `r` are taken: a full window is handed out. -/
def makeRoom (d : Decoded) (r : BitReader) : Decoded :=
  if d.bytes.size % windowSize = 0 ∧ d.settled < d.bytes.size then
    { d with settled := d.bytes.size, begun := r.nextByte }
  else d

/-- Adds a byte. -/
def push (d : Decoded) (b : UInt8) : Decoded :=
  { d with bytes := d.bytes.push b }

/-- The byte that stands `distance` back. What stands before all bytes counts as zero. -/
def byteBack (d : Decoded) (distance : Nat) : UInt8 :=
  if distance ≤ d.bytes.size then (d.bytes[d.bytes.size - distance]?).getD 0 else 0

/-- Repeats bytes that stand `distance` back, where the data up to `r` are taken. -/
def copy (d : Decoded) (r : BitReader) (distance : Nat) : Nat → Decoded
  | 0 => d
  | n + 1 =>
    let byte := d.byteBack distance
    ((d.makeRoom r).push byte).copy r distance n

/-- The data break their format: what has not been handed out is lost. -/
def broken (d : Decoded) : ByteStream :=
  ⟨d.bytes.extract 0 d.settled, true⟩

/-- The data stop: all that they give is handed out. -/
def stopped (d : Decoded) : ByteStream :=
  ⟨d.bytes, true⟩

/-- There is enough to read `limit` bytes, whatever follows. -/
def isEnough (d : Decoded) (limit : Nat) : Bool :=
  limit ≤ d.settled

end Decoded

end EntityForge.Archive
