import EntityForge.Archive.Bytes
import EntityForge.Archive.CodePage
import EntityForge.Archive.Crc32
import EntityForge.Text.Utf8

/-!
# Directory headers

The directory of an archive has a header for each entry: numbers of fixed width, then a name, extra
fields and a comment. An extra field may replace what the numbers say (sizes beyond 32 bits), give
the name in UTF-8, or mark the entry as encrypted.
-/

namespace EntityForge.Archive.Zip

/-- What stands before a header of the directory. -/
def headerSignature : List UInt8 := [0x50, 0x4B, 0x01, 0x02]

/-- What stands before the data of an entry. -/
def localSignature : List UInt8 := [0x50, 0x4B, 0x03, 0x04]

/-- The greatest number of 32 bits, which stands for a number given in an extra field. -/
def wide : Nat := 0xFFFFFFFF

/-- The header of an entry. -/
structure Header where
  name : String
  rawName : ByteArray
  comment : String
  isEncrypted : Bool
  /-- An extra field says how the entry is encrypted. -/
  hasKeyField : Bool := false
  method : Nat
  checksum : Nat
  compressedSize : Nat
  size : Nat
  /-- Where the local header of the entry starts. -/
  offset : Nat

/-- What reading an extra field gives. -/
inductive FieldResult where
  /-- The header with what the field says, and the place after it. -/
  | next (header : Header) (place : Nat)
  /-- The fields end within this one; what was read of it counts. -/
  | stop (header : Header)
  /-- The field breaks its format. -/
  | broken

/-! ## Extra fields -/

/-- Reads the sizes and the offset that do not fit into 32 bits. Each is there if the header says so
or the field has room for all three. -/
def wideNumbers (fields : ByteArray) (length place : Nat) (h : Header) : FieldResult :=
  let all := decide (24 ≤ length)
  let start := place
  let skip (h : Header) (place : Nat) : FieldResult :=
    if length < place - start then .broken
    else if start + length ≤ fields.size then .next h (start + length)
    else .stop h
  let readOffset (h : Header) (place : Nat) : FieldResult :=
    if all || h.offset == wide then
      match natAt? fields place 8 with
      | none => .stop h
      | some n => skip { h with offset := n } (place + 8)
    else skip h place
  let readCompressed (h : Header) (place : Nat) : FieldResult :=
    if all || h.compressedSize == wide then
      match natAt? fields place 8 with
      | none => .stop h
      | some n => readOffset { h with compressedSize := n } (place + 8)
    else readOffset h place
  if all || h.size == wide then
    match natAt? fields place 8 with
    | none => .stop h
    | some n => readCompressed { h with size := n } (place + 8)
  else readCompressed h place

/-- Reads how the entry is encrypted, and the method of the data under it. -/
def keyField (fields : ByteArray) (length place : Nat) (h : Header) : FieldResult :=
  if length ≠ 7 then .broken
  else
    match natAt? fields place 2, natAt? fields (place + 2) 2, natAt? fields (place + 4) 1,
      natAt? fields (place + 5) 2 with
    | some version, some vendor, some strength, some method =>
      if vendor ≠ 0x4541 ∨ (version ≠ 1 ∧ version ≠ 2) ∨ strength = 0 ∨ 3 < strength then .broken
      else .next { h with hasKeyField := true, method := method } (place + 7)
    | _, _, _, _ => .stop h

/-- Checks the form of a field with times, of which there are three kinds. -/
def timesField (fields : ByteArray) (length place : Nat) (h : Header) : FieldResult :=
  match natAt? fields place 1 with
  | none => .stop h
  | some flags =>
    if 8 ≤ flags then .broken
    else if length ≠ 5 ∧ length ≠ 1 + 4 * ((List.range 3).filter flags.testBit).length then .broken
    else
      let times :=
        (if flags.testBit 0 ∨ length = 5 then 1 else 0)
        + (if flags.testBit 1 ∧ 5 < length then 1 else 0)
        + (if flags.testBit 2 ∧ 5 < length then 1 else 0)
      if place + 1 + 4 * times ≤ fields.size then .next h (place + 1 + 4 * times) else .stop h

/-- Checks the form of a field with times in units of 100 nanoseconds. -/
def fineTimesField (fields : ByteArray) (length place : Nat) (h : Header) : FieldResult :=
  if length ≠ 32 then .broken
  else
    match natAt? fields (place + 4) 2, natAt? fields (place + 6) 2 with
    | none, _ => .stop h
    | some tag, none => if tag = 1 then .stop h else .broken
    | some tag, some size =>
      if tag ≠ 1 ∨ size ≠ 24 then .broken
      else if place + 32 ≤ fields.size then .next h (place + 32)
      else .stop h

/-- What a field with a text in UTF-8 gives. -/
inductive UnicodeResult where
  | text (bytes : ByteArray)
  | stop
  | broken

/-- Reads a text in UTF-8 that replaces the bytes `old`, whose checksum it repeats. -/
def unicodeText (fields : ByteArray) (length place : Nat) (old : ByteArray) : UnicodeResult :=
  match natAt? fields place 1, natAt? fields (place + 1) 4 with
  | some _, some checksum =>
    if length < 5 then .broken
    else
      match slice? fields (place + 5) (length - 5) with
      | none => .stop
      | some bytes => if (crc32 old).toNat = checksum then .text bytes else .broken
  | _, _ => .stop

/-- Reads the field at `place`, after its kind and length. -/
def field (fields : ByteArray) (kind length place : Nat) (h : Header) : FieldResult :=
  match kind with
  | 0x0001 => wideNumbers fields length place h
  | 0x000A => fineTimesField fields length place h
  | 0x9901 => keyField fields length place h
  | 0x5455 => timesField fields length place h
  | 0x6375 =>
    match unicodeText fields length place h.comment.toUTF8 with
    | .stop => .stop h
    | .broken => .broken
    | .text bytes =>
      match String.fromUTF8? bytes with
      | some s => .next { h with comment := s } (place + length)
      | none => .broken
  | 0x7075 =>
    match unicodeText fields length place h.rawName with
    | .stop => .stop h
    | .broken => .broken
    | .text bytes =>
      match String.fromUTF8? bytes with
      | some s => .next { h with name := s, rawName := bytes } (place + length)
      | none => .broken
  | _ => if place + length ≤ fields.size then .next h (place + length) else .stop h

/-- Reads the fields from `place` on; each takes four bytes at least, which bounds their number by
`fuel`. -/
def fieldsFrom (fields : ByteArray) (place : Nat) (h : Header) : Nat → Option Header
  | 0 => some h
  | fuel + 1 =>
    if fields.size ≤ place then some h
    else
      match natAt? fields place 2, natAt? fields (place + 2) 2 with
      | some kind, some length =>
        match field fields kind length (place + 4) h with
        | .next h place => fieldsFrom fields place h fuel
        | .stop h => some h
        | .broken => none
      | _, _ => some h

/-- The header with what the extra fields say, unless one of them breaks its format. -/
def withFields (fields : ByteArray) (h : Header) : Option Header :=
  fieldsFrom fields 0 h fields.size

/-! ## Headers -/

/-- The text of a name or comment. -/
def textOf (isUtf8 : Bool) (bytes : ByteArray) : String :=
  if isUtf8 then Text.decodeLossy bytes.toList else textOfCodePage437 bytes.toList

/-- The method that stands for encrypted data in a header. -/
def keyMethod : Nat := 99

/-- Reads the header at `place` and gives the place after it. Offsets in the archive count from
`base`. -/
def Header.at? (bytes : ByteArray) (base place : Nat) : Option (Header × Nat) := do
  guard (hasAt bytes place headerSignature)
  let flags ← natAt? bytes (place + 8) 2
  let method ← natAt? bytes (place + 10) 2
  let checksum ← natAt? bytes (place + 16) 4
  let compressedSize ← natAt? bytes (place + 20) 4
  let size ← natAt? bytes (place + 24) 4
  let nameLength ← natAt? bytes (place + 28) 2
  let fieldsLength ← natAt? bytes (place + 30) 2
  let commentLength ← natAt? bytes (place + 32) 2
  let offset ← natAt? bytes (place + 42) 4
  let rawName ← slice? bytes (place + 46) nameLength
  let fields ← slice? bytes (place + 46 + nameLength) fieldsLength
  let comment ← slice? bytes (place + 46 + nameLength + fieldsLength) commentLength
  let isUtf8 := flags.testBit 11
  let h ← withFields fields {
    name := textOf isUtf8 rawName
    rawName := rawName
    comment := textOf isUtf8 comment
    isEncrypted := flags % 2 == 1
    method := method
    checksum := checksum
    compressedSize := compressedSize
    size := size
    offset := offset }
  guard (h.method ≠ keyMethod ∨ h.hasKeyField)
  guard (h.offset + base < UInt64.size)
  some ({ h with offset := h.offset + base },
    place + 46 + nameLength + fieldsLength + commentLength)

/-- Where the data of an entry start: after its local header. -/
def Header.dataStart? (bytes : ByteArray) (h : Header) : Option Nat := do
  guard (hasAt bytes h.offset localSignature)
  let nameLength ← natAt? bytes (h.offset + 26) 2
  let fieldsLength ← natAt? bytes (h.offset + 28) 2
  some (h.offset + 30 + nameLength + fieldsLength)

end EntityForge.Archive.Zip
