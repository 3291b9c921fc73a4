import EntityForge.Archive.Inflate
import EntityForge.Archive.Read
import EntityForge.Archive.Zip.Directory

/-!
# Opening an archive

`openArchive` gives the entries that the directory of an archive lists. The bytes of an entry are
stored or deflated; encrypted entries and those of other methods do not open.
-/

namespace EntityForge.Archive.Zip

/-- How the bytes of an entry are stored. -/
inductive Method where
  | stored
  | deflated
deriving DecidableEq, Repr

/-- The method of that number. -/
def Method.ofNat? (n : Nat) : Option Method :=
  match n with
  | 0 => some .stored
  | 8 => some .deflated
  | _ => none

/-- The bytes that the data stand for, as far as they are needed to read `limit` of them. -/
def Method.decode (m : Method) (limit : Nat) (data : ByteArray) : ByteStream :=
  match m with
  | .stored => ⟨data, false⟩
  | .deflated => inflate limit data

/-- The first `n` bytes of an entry. The checksum is compared where the bytes end. -/
def readData (m : Method) (checksum : Nat) (data : ByteArray) (n : UInt64) :
    Except ReadError ByteArray := do
  let bytes ← (m.decode n.toNat data).read n
  if bytes.size < n.toNat ∧ (crc32 bytes).toNat ≠ checksum then .error .wrongChecksum
  else .ok bytes

/-- A name that ends in a slash or backslash is that of a directory. -/
def isDirectoryName (name : String) : Bool :=
  name.toList.getLast?.any fun c => c == '/' || c == '\\'

/-- Opens the entry of a header. Its data start after its local header and go on to the end of the
bytes at most. -/
def openEntry (bytes : ByteArray) (h : Header) : Except ZipError Entry :=
  if h.isEncrypted || h.hasKeyField then .error .encrypted
  else
    match h.dataStart? bytes, Method.ofNat? h.method with
    | none, _ => .error .malformed
    | _, none => .error (.unsupportedMethod h.method)
    | some dataStart, some m => .ok {
        name := h.name
        isDirectory := isDirectoryName h.name
        size := h.size.toUInt64
        read := readData m h.checksum
          (bytes.extract dataStart (min (dataStart + h.compressedSize) bytes.size)) }

/-- The entries of an archive. -/
def openArchive (bytes : ByteArray) : Except ZipError (List (Except ZipError Entry)) :=
  match headers? bytes with
  | none => .error .malformed
  | some hs => .ok (hs.map (openEntry bytes))

end EntityForge.Archive.Zip

namespace EntityForge.Archive

/-- The names and bytes of the files of an archive. -/
def filesOfBytes (limits : Limits) (bytes : ByteArray) :
    Except ArchiveError (List (String × ByteArray)) :=
  match Zip.openArchive bytes with
  | .error e => .error (.zip e)
  | .ok entries => readEntries limits entries

/-- The names and texts of the files of an archive. -/
def textsOfBytes (bytes : ByteArray) : Except ArchiveError (List (String × String)) :=
  match filesOfBytes {} bytes with
  | .error e => .error e
  | .ok files => textEntries files

end EntityForge.Archive
