import EntityForge.Archive.Crc32
import EntityForge.Archive.Read
import EntityForge.Archive.Zip.Directory

/-!
# Writing an archive

`write` stores files in order, each under its name and as it is, and then the directory. Two files
of one name are refused.
-/

namespace EntityForge.Archive.Zip

/-- A file that is stored in an archive: its name and bytes, and where its local header starts. -/
structure StoredFile where
  name : String
  bytes : ByteArray
  offset : Nat

namespace StoredFile

/-- The bit that marks names in UTF-8. -/
def flags (f : StoredFile) : Nat :=
  if f.name.toList.all fun c => c.toNat < 128 then 0 else 0x800

/-- The numbers that the local header and the header in the directory share: the version that can
read the entry, flags, method, time and date, checksum, the two sizes and the length of the name. -/
def sharedFields (f : StoredFile) : List UInt8 :=
  littleEndian 2 10 ++ littleEndian 2 f.flags ++ littleEndian 2 0
  ++ littleEndian 2 0 ++ littleEndian 2 0x21
  ++ littleEndian 4 (crc32 f.bytes).toNat
  ++ littleEndian 4 f.bytes.size ++ littleEndian 4 f.bytes.size
  ++ littleEndian 2 f.name.utf8ByteSize

/-- What stands before the data. -/
def localHeader (f : StoredFile) : List UInt8 :=
  localSignature ++ f.sharedFields ++ littleEndian 2 0 ++ f.name.toUTF8.toList

/-- The header in the directory. -/
def header (f : StoredFile) : List UInt8 :=
  headerSignature ++ littleEndian 2 10 ++ f.sharedFields
  ++ littleEndian 2 0 ++ littleEndian 2 0 ++ littleEndian 2 0 ++ littleEndian 2 0
  ++ littleEndian 4 0 ++ littleEndian 4 f.offset ++ f.name.toUTF8.toList

end StoredFile

/-- An archive that is being written. -/
structure Writer where
  /-- The local headers and data so far. -/
  body : ByteArray := .empty
  /-- The files so far, last one first. -/
  files : List StoredFile := []

/-- The bytes of a list. -/
def ofBytes (bytes : List UInt8) : ByteArray :=
  ⟨bytes.toArray⟩

/-- The greatest length of a name. -/
def maxNameLength : Nat := 65535

/-- Adds a file. -/
def Writer.add (w : Writer) (name : String) (bytes : ByteArray) : Except ZipError Writer :=
  if w.files.any (·.name == name) then .error (.duplicateName name)
  else if maxNameLength < name.utf8ByteSize then .error (.nameTooLong name)
  else
    let f : StoredFile := ⟨name, bytes, w.body.size⟩
    .ok ⟨w.body ++ ofBytes f.localHeader ++ bytes, f :: w.files⟩

/-- The wide record and its locator, for more headers than 16 bits can count. -/
def wideRecords (count size offset : Nat) : List UInt8 :=
  wideEndSignature ++ littleEndian 8 44 ++ littleEndian 2 45 ++ littleEndian 2 45
  ++ littleEndian 4 0 ++ littleEndian 4 0 ++ littleEndian 8 count ++ littleEndian 8 count
  ++ littleEndian 8 size ++ littleEndian 8 offset
  ++ locatorSignature ++ littleEndian 4 0 ++ littleEndian 8 (offset + size) ++ littleEndian 4 1

/-- The records at the end of an archive with that many headers of that size from `offset` on. -/
def endRecords (count size offset : Nat) : List UInt8 :=
  (if 0xFFFF < count then wideRecords count size offset else [])
  ++ endSignature ++ littleEndian 2 0 ++ littleEndian 2 0
  ++ littleEndian 2 (min count 0xFFFF) ++ littleEndian 2 (min count 0xFFFF)
  ++ littleEndian 4 size ++ littleEndian 4 offset ++ littleEndian 2 0

/-- The archive with the files so far. -/
def Writer.finish (w : Writer) : ByteArray :=
  let directory := w.files.reverse.flatMap (·.header)
  w.body ++ ofBytes directory ++ ofBytes (endRecords w.files.length directory.length w.body.size)

/-- Adds files in order. -/
def Writer.addAll (w : Writer) : List (String × ByteArray) → Except ZipError Writer
  | [] => .ok w
  | (name, bytes) :: rest =>
    match w.add name bytes with
    | .error e => .error e
    | .ok w => w.addAll rest

/-- The archive with the given files. -/
def write (files : List (String × ByteArray)) : Except ZipError ByteArray :=
  (Writer.addAll {} files).map (·.finish)

end EntityForge.Archive.Zip
