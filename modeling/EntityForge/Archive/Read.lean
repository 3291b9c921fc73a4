import EntityForge.Archive.ByteStream

/-!
# Reading archives within limits

An archive is a list of entries, each of which may fail to open. `readEntries` gives the bytes of
all entries that are not directories, in order, and refuses an archive with too many entries or too
many bytes. No entry is read further than one byte beyond the limit for entries.
-/

namespace EntityForge.Archive

/-- Why an archive or one of its entries cannot be opened, or an archive cannot be written. -/
inductive ZipError where
  /-- There is no directory of entries, or it is broken. -/
  | malformed
  | unsupportedMethod (method : Nat)
  | encrypted
  /-- Two files of an archive to be written have the same name. -/
  | duplicateName (name : String)
  /-- The name does not fit into an entry. -/
  | nameTooLong (name : String)
deriving DecidableEq, Repr

/-- The text of the error. -/
def ZipError.message : ZipError → String
  | malformed => "invalid archive"
  | unsupportedMethod m => "unsupported compression method " ++ toString m
  | encrypted => "the entry is encrypted"
  | duplicateName n => "duplicate filename: " ++ n
  | nameTooLong n => "filename too long: " ++ n

/-- Why an archive cannot be read. -/
inductive ArchiveError where
  | read (error : ReadError)
  | zip (error : ZipError)
  /-- The bytes of the entry are no text. -/
  | invalidUtf8 (path : String)
  | tooManyEntries (entries limit : Nat)
  | entryTooLarge (path : String) (size limit : UInt64)
  | totalTooLarge (limit : UInt64)
deriving DecidableEq, Repr

/-- The text of the error. -/
def ArchiveError.message : ArchiveError → String
  | read e => "I/O error: " ++ e.message
  | zip e => "ZIP error: " ++ e.message
  | invalidUtf8 p => "entry '" ++ p ++ "' is not valid UTF-8"
  | tooManyEntries n limit =>
    "archive has too many entries: " ++ toString n ++ " (limit: " ++ toString limit ++ ")"
  | entryTooLarge p size limit =>
    "entry '" ++ p ++ "' is too large: " ++ toString size.toNat ++ " bytes (limit: "
      ++ toString limit.toNat ++ " bytes)"
  | totalTooLarge limit =>
    "total uncompressed size exceeds " ++ toString limit.toNat ++ " bytes"

/-- Caps on what is read from an archive. -/
structure Limits where
  maxEntries : Nat := 10000
  maxEntryBytes : UInt64 := 16777216
  maxTotalBytes : UInt64 := 134217728
deriving DecidableEq, Repr

/-- An entry of an archive that could be opened. -/
structure Entry where
  name : String
  isDirectory : Bool
  /-- The number of bytes that the archive declares. -/
  size : UInt64
  /-- The first `n` bytes, or all if there are fewer; fails if the bytes end in an error before. -/
  read : UInt64 → Except ReadError ByteArray

/-- The entry with the bytes of a stream. -/
def Entry.ofStream (name : String) (isDirectory : Bool) (size : UInt64) (s : ByteStream) : Entry :=
  ⟨name, isDirectory, size, s.read⟩

/-- The bytes of an entry, at most the limit for entries. -/
def readEntry (limits : Limits) (e : Entry) : Except ArchiveError ByteArray :=
  if limits.maxEntryBytes < e.size then
    .error (.entryTooLarge e.name e.size limits.maxEntryBytes)
  else
    match e.read (limits.maxEntryBytes + 1) with
    | .error r => .error (.read r)
    | .ok bytes =>
      if limits.maxEntryBytes < bytes.size.toUInt64 then
        .error (.entryTooLarge e.name bytes.size.toUInt64 limits.maxEntryBytes)
      else .ok bytes

/-- Reads entries in order, where `total` bytes and the entries `done`, the last first, are read. -/
def readEntriesAfter (limits : Limits) (total : UInt64) (done : List (String × ByteArray)) :
    List (Except ZipError Entry) → Except ArchiveError (List (String × ByteArray))
  | [] => .ok done.reverse
  | .error e :: _ => .error (.zip e)
  | .ok e :: rest =>
    if e.isDirectory then readEntriesAfter limits total done rest
    else
      match readEntry limits e with
      | .error r => .error r
      | .ok bytes =>
        let total := total + bytes.size.toUInt64
        if limits.maxTotalBytes < total then .error (.totalTooLarge limits.maxTotalBytes)
        else readEntriesAfter limits total ((e.name, bytes) :: done) rest

/-- The names and bytes of the entries that are not directories, in order. -/
def readEntries (limits : Limits) (archive : List (Except ZipError Entry)) :
    Except ArchiveError (List (String × ByteArray)) :=
  if limits.maxEntries < archive.length then
    .error (.tooManyEntries archive.length limits.maxEntries)
  else readEntriesAfter limits 0 [] archive

/-- The entries as texts. -/
def textEntries : List (String × ByteArray) → Except ArchiveError (List (String × String))
  | [] => .ok []
  | (name, bytes) :: rest =>
    match String.fromUTF8? bytes with
    | none => .error (.invalidUtf8 name)
    | some text => (textEntries rest).map ((name, text) :: ·)

end EntityForge.Archive
