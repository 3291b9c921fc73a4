import EntityForge.Archive.Decoded
import EntityForge.Archive.Huffman

/-!
# Deflated data

`inflate limit data` decodes deflated data, as far as reading `limit` bytes needs it. The data are a
sequence of blocks. A block holds bytes as they are, or items that stand for a byte each or for bytes
that came before, with Huffman codes that are fixed or stand at the start of the block. Data that
stop early give all bytes before they stop; data that break their format give those that have been
handed out before (`Decoded`).

Decoding ends with the data, because every item takes at least one bit (`readItem?_remaining_lt`).
-/

namespace EntityForge.Archive

/-- What decoding a part gives: what is decoded and the rest of the data, or all that can be read if
there is no more to decode. -/
abbrev Inflated := Except ByteStream (Decoded × BitReader)

/-- The shortest length of each length code from 257 on, and how many bits are added to it. -/
def lengthBases : List (Nat × Nat) := [
  (3, 0), (4, 0), (5, 0), (6, 0), (7, 0), (8, 0), (9, 0), (10, 0), (11, 1), (13, 1), (15, 1),
  (17, 1), (19, 2), (23, 2), (27, 2), (31, 2), (35, 3), (43, 3), (51, 3), (59, 3), (67, 4),
  (83, 4), (99, 4), (115, 4), (131, 5), (163, 5), (195, 5), (227, 5), (258, 0)]

/-- The shortest distance of each distance code, and how many bits are added to it. -/
def distanceBases : List (Nat × Nat) := [
  (1, 0), (2, 0), (3, 0), (4, 0), (5, 1), (7, 1), (9, 2), (13, 2), (17, 3), (25, 3), (33, 4),
  (49, 4), (65, 5), (97, 5), (129, 6), (193, 6), (257, 7), (385, 7), (513, 8), (769, 8),
  (1025, 9), (1537, 9), (2049, 10), (3073, 10), (4097, 11), (6145, 11), (8193, 12), (12289, 12),
  (16385, 13), (24577, 13)]

/-- The codes of a compressed block. -/
structure BlockCodes where
  literals : Huffman
  distances : Huffman

/-- What a symbol of a compressed block and the bits after it stand for. -/
inductive BlockItem where
  | literal (byte : UInt8)
  | copy (length distance : Nat)
  | endOfBlock
  /-- The symbol, or the distance after it, is not used. -/
  | invalid

/-- Reads what follows a length symbol. -/
def readCopy? (c : BlockCodes) (base extra : Nat) (r : BitReader) :
    Option (BlockItem × BitReader) := do
  let (more, r) ← r.bits? extra
  let (symbol, r) ← c.distances.decode? r
  match symbol.bind (distanceBases[·]?) with
  | none => some (.invalid, r)
  | some (dbase, dextra) =>
    let (dmore, r) ← r.bits? dextra
    some (.copy (base + more) (dbase + dmore), r)

/-- Reads an item of a compressed block; `none` if the data stop within it. -/
def readItem? (c : BlockCodes) (r : BitReader) : Option (BlockItem × BitReader) :=
  match c.literals.decode? r with
  | none => none
  | some (none, r) => some (.invalid, r)
  | some (some symbol, r) =>
    if symbol < 256 then some (.literal (UInt8.ofNat symbol), r)
    else if symbol = 256 then some (.endOfBlock, r)
    else
      match lengthBases[symbol - 257]? with
      | none => some (.invalid, r)
      | some (base, extra) => readCopy? c base extra r

theorem readCopy?_remaining_le {c : BlockCodes} {base extra : Nat} {r r' : BitReader}
    {i : BlockItem} (h : readCopy? c base extra r = some (i, r')) :
    r'.remaining ≤ r.remaining := by
  simp only [readCopy?, Option.bind_eq_bind, Option.bind_eq_some_iff] at h
  obtain ⟨⟨more, r1⟩, h1, ⟨symbol, r2⟩, h2, h3⟩ := h
  have l1 : r1.remaining ≤ r.remaining := BitReader.bits?_remaining_le h1
  have l2 : r2.remaining ≤ r1.remaining := Huffman.decodeFrom_remaining_le h2
  split at h3
  · simp only [Option.some.injEq, Prod.mk.injEq] at h3
    rw [← h3.2]
    exact Nat.le_trans l2 l1
  · obtain ⟨⟨dmore, r3⟩, h4, h5⟩ := Option.bind_eq_some_iff.1 h3
    have l3 : r3.remaining ≤ r2.remaining := BitReader.bits?_remaining_le h4
    simp only [Option.some.injEq, Prod.mk.injEq] at h5
    rw [← h5.2]
    exact Nat.le_trans l3 (Nat.le_trans l2 l1)

theorem readItem?_remaining_lt {c : BlockCodes} {r r' : BitReader} {i : BlockItem}
    (h : readItem? c r = some (i, r')) (hi : i ≠ .invalid) : r'.remaining < r.remaining := by
  unfold readItem? at h
  split at h
  · simp at h
  · simp only [Option.some.injEq, Prod.mk.injEq] at h
    exact absurd h.1.symm hi
  · rename_i symbol r1 hd
    have l1 := Huffman.decode?_remaining_lt hd
    split at h
    · simp only [Option.some.injEq, Prod.mk.injEq] at h
      rw [← h.2]
      exact l1
    · split at h
      · simp only [Option.some.injEq, Prod.mk.injEq] at h
        rw [← h.2]
        exact l1
      · split at h
        · simp only [Option.some.injEq, Prod.mk.injEq] at h
          exact absurd h.1.symm hi
        · have := readCopy?_remaining_le h
          omega

/-- Decodes the items of a compressed block. -/
def inflateItems (limit : Nat) (c : BlockCodes) (d : Decoded) (r : BitReader) : Inflated :=
  if d.isEnough limit then .error d.broken
  else
    match _h : readItem? c r with
    | none => .error d.stopped
    | some (.endOfBlock, r') => .ok (d.takeTo r', r')
    | some (.invalid, r') => .error (d.takeTo r').broken
    | some (.literal b, r') => inflateItems limit c (((d.takeTo r').makeRoom r').push b) r'
    | some (.copy length distance, r') =>
      inflateItems limit c ((d.takeTo r').copy r' distance length) r'
termination_by r.remaining
decreasing_by
  all_goals exact readItem?_remaining_lt _h (by simp)

/-- Copies `n` bytes that stand as they are. -/
def copyStored (d : Decoded) (r : BitReader) : Nat → Inflated
  | 0 => .ok (d, r)
  | n + 1 =>
    let d := d.makeRoom r
    match r.bits? 8 with
    | none => .error d.stopped
    | some (byte, r') => copyStored ((d.takeTo r').push (UInt8.ofNat byte)) r' n

/-- Decodes a stored block. -/
def inflateStored (d : Decoded) (r : BitReader) : Inflated :=
  match r.align.bits? 16 with
  | none => .error d.stopped
  | some (n, r') =>
    match r'.bits? 16 with
    | none => .error d.stopped
    | some (check, r') =>
      let d := d.takeTo r'
      if n + check = 0xFFFF then copyStored d r' n else .error d.broken

/-- The codes of blocks that do not bring their own. -/
def fixedCodes : BlockCodes where
  literals := .ofLengths
    (List.replicate 144 8 ++ List.replicate 112 9 ++ List.replicate 24 7 ++ List.replicate 8 8)
  distances := .ofLengths (List.replicate 32 5)

/-- The order in which the lengths of the codes for code lengths are written. -/
def lengthOrder : List Nat :=
  [16, 17, 18, 0, 8, 7, 9, 6, 10, 5, 11, 4, 12, 3, 13, 2, 14, 1, 15]

/-- Reads `n` numbers of three bits. -/
def readTriples? (r : BitReader) : Nat → Option (List Nat × BitReader)
  | 0 => some ([], r)
  | n + 1 => do
    let (low, r) ← r.bits? 3
    let (rest, r) ← readTriples? r n
    some (low :: rest, r)

/-- Why the codes of a block cannot be read. -/
inductive CodesError where
  | truncated
  /-- They break the format, which the bits up to here show. -/
  | corrupt (here : BitReader)

/-- What a symbol for code lengths adds to the lengths in `read`, which holds the last first. -/
def readRun (symbol : Nat) (read : List Nat) (r : BitReader) :
    Except CodesError (List Nat × BitReader) :=
  let run (length bits least : Nat) :=
    match r.bits? bits with
    | none => .error .truncated
    | some (more, r) => .ok (List.replicate (least + more) length, r)
  if symbol < 16 then .ok ([symbol], r)
  else if symbol = 16 then
    match read with
    | [] => .error (.corrupt r)
    | previous :: _ => run previous 2 3
  else if symbol = 17 then run 0 3 3
  else run 0 7 11

/-- Reads code lengths until there are `n`; `fuel` bounds the number of runs. -/
def readLengths (code : Huffman) (n : Nat) (read : List Nat) (r : BitReader) :
    Nat → Except CodesError (List Nat × BitReader)
  | 0 => .error (.corrupt r)
  | fuel + 1 =>
    if n = read.length then .ok (read.reverse, r)
    else
      match code.decode? r with
      | none => .error .truncated
      | some (none, r) => .error (.corrupt r)
      | some (some symbol, r) =>
        match readRun symbol read r with
        | .error e => .error e
        | .ok (run, r) =>
          if n < read.length + run.length then .error (.corrupt r)
          else readLengths code n (run ++ read) r fuel

/-- Reads the codes of a block that brings its own. -/
def readCodes (r : BitReader) : Except CodesError (BlockCodes × BitReader) := do
  let (hlit, r) ← (r.bits? 5).elim (.error .truncated) .ok
  let (hdist, r) ← (r.bits? 5).elim (.error .truncated) .ok
  let (hclen, r) ← (r.bits? 4).elim (.error .truncated) .ok
  if 286 < hlit + 257 ∨ 30 < hdist + 1 then .error (.corrupt r)
  let (triples, r) ← (readTriples? r (hclen + 4)).elim (.error .truncated) .ok
  let written := lengthOrder.zip triples
  let code := Huffman.ofLengths ((List.range 19).map fun s => (written.lookup s).getD 0)
  if !code.isComplete then .error (.corrupt r)
  let n := hlit + 257 + (hdist + 1)
  let (lengths, r) ← readLengths code n [] r (n + 1)
  let literals := Huffman.ofLengths (lengths.take (hlit + 257))
  let distances := Huffman.ofLengths (lengths.drop (hlit + 257))
  if literals.isUsable && distances.isUsable then .ok (⟨literals, distances⟩, r)
  else .error (.corrupt r)

/-- Decodes a block that brings its own codes. -/
def inflateDynamic (limit : Nat) (d : Decoded) (r : BitReader) : Inflated :=
  match readCodes r with
  | .error .truncated => .error d.stopped
  | .error (.corrupt r') => .error (d.takeTo r').broken
  | .ok (codes, r') => inflateItems limit codes (d.takeTo r') r'

/-- Decodes a block of the kind that its header says. -/
def inflateBlock (limit kind : Nat) (d : Decoded) (r : BitReader) : Inflated :=
  match kind with
  | 0 => inflateStored d r
  | 1 => inflateItems limit fixedCodes d r
  | 2 => inflateDynamic limit d r
  | _ => .error d.broken

/-- Decodes blocks up to the last one. Each takes three bits at least, which bounds their number by
`fuel`. -/
def inflateBlocks (limit : Nat) (d : Decoded) (r : BitReader) : Nat → ByteStream
  | 0 => d.stopped
  | fuel + 1 =>
    if d.isEnough limit then d.broken
    else
      match r.bits? 3 with
      | none => d.stopped
      | some (header, r') =>
        match inflateBlock limit (header / 2) (d.takeTo r') r' with
        | .error s => s
        | .ok (d, r) => if header % 2 = 1 then ⟨d.bytes, false⟩ else inflateBlocks limit d r fuel

/-- The bytes that deflated data stand for, as far as they are needed to read `limit` of them. -/
def inflate (limit : Nat) (data : ByteArray) : ByteStream :=
  inflateBlocks limit {} ⟨data, 0⟩ (8 * data.size + 1)

end EntityForge.Archive
