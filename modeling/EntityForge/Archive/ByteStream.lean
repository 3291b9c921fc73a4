/-!
# Bytes that may end in an error

`ByteStream` is what a decoder has to offer: bytes, and whether an error or the end follows them.
`ByteStream.read` meets the error only if it is asked for more bytes than stand before it.
-/

namespace EntityForge.Archive

/-- Why the bytes of an entry end too early. -/
inductive ReadError where
  /-- The compressed data break their format or stop too early. -/
  | corruptData
  /-- The checksum of the bytes is not that of the directory. -/
  | wrongChecksum
deriving DecidableEq, Repr

/-- The text of the error. -/
def ReadError.message : ReadError → String
  | corruptData => "corrupt deflate stream"
  | wrongChecksum => "Invalid checksum"

/-- Bytes that come one after the other, and whether an error or the end follows them. -/
structure ByteStream where
  bytes : ByteArray
  fails : Bool

/-- The first `n` bytes of a stream, or all if there are fewer; fails if an error comes before. -/
def ByteStream.read (s : ByteStream) (n : UInt64) : Except ReadError ByteArray :=
  if n.toNat ≤ s.bytes.size then .ok (s.bytes.extract 0 n.toNat)
  else if s.fails then .error .corruptData
  else .ok s.bytes

end EntityForge.Archive
