import EntityForge.Archive.Zip.Header

/-!
# The directory of an archive

A record near the end of an archive says where its directory is and how many headers it has. Bytes
may stand before the archive and after it: the record is searched from the end, and the difference
between where the directory should be and where it is, `Directory.base`, shifts all offsets. Large
archives have a second record with wider numbers.
-/

namespace EntityForge.Archive.Zip

/-- What stands before the record at the end. -/
def endSignature : List UInt8 := [0x50, 0x4B, 0x05, 0x06]

/-- What stands before the wide record. -/
def wideEndSignature : List UInt8 := [0x50, 0x4B, 0x06, 0x06]

/-- What stands before the locator of the wide record. -/
def locatorSignature : List UInt8 := [0x50, 0x4B, 0x06, 0x07]

/-- Where the headers are. -/
structure Directory where
  /-- How many bytes stand before the archive. -/
  base : Nat
  /-- Where the first header starts. -/
  start : Nat
  count : Nat

/-- The record at the end. -/
structure EndRecord where
  place : Nat
  disk : Nat
  directoryDisk : Nat
  countOnDisk : Nat
  count : Nat
  offset : Nat

/-- Reads the record at `place`; its comment must end with the bytes or before. -/
def EndRecord.at? (bytes : ByteArray) (place : Nat) : Option EndRecord := do
  guard (hasAt bytes place endSignature)
  let disk ← natAt? bytes (place + 4) 2
  let directoryDisk ← natAt? bytes (place + 6) 2
  let countOnDisk ← natAt? bytes (place + 8) 2
  let count ← natAt? bytes (place + 10) 2
  let offset ← natAt? bytes (place + 16) 4
  let commentLength ← natAt? bytes (place + 20) 2
  guard (place + 22 + commentLength ≤ bytes.size)
  some ⟨place, disk, directoryDisk, countOnDisk, count, offset⟩

/-- The first place from `i` on where the pattern stands within the next `n` places. -/
def findForward (bytes : ByteArray) (pattern : List UInt8) (i : Nat) : Nat → Option Nat
  | 0 => none
  | n + 1 => if hasAt bytes i pattern then some i else findForward bytes pattern (i + 1) n

/-- The first place in `start ≤ i` where the pattern stands and ends at `stop` or before. -/
def findWithin (bytes : ByteArray) (pattern : List UInt8) (start stop : Nat) : Option Nat :=
  findForward bytes pattern start (stop + 1 - pattern.length - start)

/-! ## Wide records -/

/-- The locator of the wide record. -/
structure Locator where
  place : Nat
  directoryDisk : Nat
  offset : Nat
  disks : Nat

/-- Reads the locator, which stands right before the record at the end. -/
def Locator.before? (bytes : ByteArray) (r : EndRecord) : Option Locator := do
  guard (20 ≤ r.place)
  let place := r.place - 20
  guard (hasAt bytes place locatorSignature)
  let directoryDisk ← natAt? bytes (place + 4) 4
  let offset ← natAt? bytes (place + 8) 8
  let disks ← natAt? bytes (place + 16) 4
  some ⟨place, directoryDisk, offset, disks⟩

/-- The wide record. -/
structure WideEndRecord where
  place : Nat
  madeBy : Nat
  needed : Nat
  disk : Nat
  directoryDisk : Nat
  countOnDisk : Nat
  count : Nat
  offset : Nat

/-- Reads the wide record at `place`, which must reach exactly to its locator. -/
def WideEndRecord.at? (bytes : ByteArray) (l : Locator) (place : Nat) : Option WideEndRecord := do
  guard (hasAt bytes place wideEndSignature)
  let length ← natAt? bytes (place + 4) 8
  let madeBy ← natAt? bytes (place + 12) 2
  let needed ← natAt? bytes (place + 14) 2
  let disk ← natAt? bytes (place + 16) 4
  let directoryDisk ← natAt? bytes (place + 20) 4
  let countOnDisk ← natAt? bytes (place + 24) 8
  let count ← natAt? bytes (place + 32) 8
  let offset ← natAt? bytes (place + 48) 8
  guard (44 ≤ length ∧ length + 12 = l.place - place)
  guard (directoryDisk = l.directoryDisk)
  guard (count * 46 + offset ≤ place)
  some ⟨place, madeBy, needed, disk, directoryDisk, countOnDisk, count, offset⟩

/-- The first wide record in the next `n` places from `i` on. -/
def findWideRecord (bytes : ByteArray) (l : Locator) (i : Nat) : Nat → Option WideEndRecord
  | 0 => none
  | n + 1 =>
    match WideEndRecord.at? bytes l i with
    | some r => some r
    | none => findWideRecord bytes l (i + 1) n

/-- The directory that a wide record describes. -/
def WideEndRecord.directory? (r : WideEndRecord) (l : Locator) : Option Directory := do
  let base := r.place - l.offset
  guard (r.countOnDisk ≤ r.count ∧ r.needed ≤ r.madeBy)
  guard (r.disk = r.directoryDisk)
  guard (r.offset + base < UInt64.size)
  some ⟨base, r.offset + base, r.count⟩

/-! ## Records of 32 bits -/

/-- The directory that a record at the end describes. An empty archive has its directory right
before the record; any other where the first header stands. -/
def EndRecord.directory? (bytes : ByteArray) (r : EndRecord) : Option Directory := do
  let base ←
    if r.count = 0 then some (r.place - r.offset)
    else if r.place ≤ r.offset then none
    else (findWithin bytes headerSignature r.offset r.place).map (· - r.offset)
  guard (r.disk = r.directoryDisk)
  some ⟨base, r.offset + base, r.countOnDisk⟩

/-- The directory that the record at `place` describes, with its wide record if it has one. -/
def directoryAt? (bytes : ByteArray) (place : Nat) : Option Directory := do
  let r ← EndRecord.at? bytes place
  let locator := if r.count = 0xFFFF ∨ r.offset = wide then Locator.before? bytes r else none
  match locator with
  | none => r.directory? bytes
  | some l =>
    guard (l.offset < l.place ∧ l.disks ≤ 1)
    let w ← findWideRecord bytes l l.offset (l.place + 1 - 4 - l.offset)
    w.directory? l

/-! ## Headers of the directory -/

/-- Reads `n` headers from `place` on, after those in `done`, which holds the last first. Each entry
must start before the directory. -/
def headersFrom (bytes : ByteArray) (d : Directory) (place : Nat) (done : List Header) :
    Nat → Option (List Header)
  | 0 => some done.reverse
  | n + 1 =>
    match Header.at? bytes d.base place with
    | none => none
    | some (h, place) =>
      if h.offset < d.start then headersFrom bytes d place (h :: done) n else none

/-- Adds a header at the end, or in the place of the one that has its name. -/
def putHeader (h : Header) : List Header → List Header
  | [] => [h]
  | k :: rest => if k.name == h.name then h :: rest else k :: putHeader h rest

/-- The headers of the last record that describes a directory, where the record is searched downwards
from `place`. -/
def headersBelow (bytes : ByteArray) : Nat → Option (List Header)
  | 0 => none
  | place + 1 =>
    let found := do
      let d ← directoryAt? bytes place
      headersFrom bytes d d.start [] d.count
    match found with
    | some hs => some hs
    | none => headersBelow bytes place

/-- The headers of an archive. Of headers with one name the last counts, in the place of the first. -/
def headers? (bytes : ByteArray) : Option (List Header) :=
  (headersBelow bytes bytes.size).map fun hs => hs.foldl (fun done h => putHeader h done) []

end EntityForge.Archive.Zip
