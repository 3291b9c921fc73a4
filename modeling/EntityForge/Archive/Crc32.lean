/-!
# Checksums

The 32-bit cyclic redundancy check with the reversed polynomial `0xEDB88320`.
-/

namespace EntityForge.Archive

/-- One bit of the division. -/
def crcBit (crc : UInt32) : UInt32 :=
  if crc &&& 1 == 1 then (crc >>> 1) ^^^ 0xEDB88320 else crc >>> 1

/-- The remainder after one more byte. -/
def crcByte (crc : UInt32) (b : UInt8) : UInt32 :=
  let crc := crc ^^^ b.toUInt32
  let crc := crcBit (crcBit (crcBit (crcBit crc)))
  crcBit (crcBit (crcBit (crcBit crc)))

/-- The checksum of bytes. -/
def crc32 (bytes : ByteArray) : UInt32 :=
  bytes.foldl crcByte 0xFFFFFFFF ^^^ 0xFFFFFFFF

end EntityForge.Archive
