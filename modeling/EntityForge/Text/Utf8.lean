/-!
# UTF-8

`decodeLossy` reads bytes as UTF-8 and puts a replacement character for each part that is not: the
longest start of a character, or a single byte that starts none.
-/

namespace EntityForge.Text

/-- A character of which some bytes are read: the bits so far, the least and greatest byte that may
come next, and how many bytes are missing. -/
structure PartialChar where
  bits : Nat
  low : Nat
  high : Nat
  missing : Nat

/-- What a first byte of 128 or more announces. -/
def PartialChar.ofByte? (b : Nat) : Option PartialChar :=
  if 0xC2 ≤ b ∧ b ≤ 0xDF then some ⟨b - 0xC0, 0x80, 0xBF, 1⟩
  else if b = 0xE0 then some ⟨0, 0xA0, 0xBF, 2⟩
  else if b = 0xED then some ⟨0xD, 0x80, 0x9F, 2⟩
  else if 0xE1 ≤ b ∧ b ≤ 0xEF then some ⟨b - 0xE0, 0x80, 0xBF, 2⟩
  else if b = 0xF0 then some ⟨0, 0x90, 0xBF, 3⟩
  else if 0xF1 ≤ b ∧ b ≤ 0xF3 then some ⟨b - 0xF0, 0x80, 0xBF, 3⟩
  else if b = 0xF4 then some ⟨4, 0x80, 0x8F, 3⟩
  else none

/-- The replacement for bytes that are no character. -/
def replacementChar : Char := '\ufffd'

/-- Reads a byte where a character starts. -/
def decodeStart (b : Nat) : Option Char × Option PartialChar :=
  if b < 0x80 then (some (Char.ofNat b), none)
  else
    match PartialChar.ofByte? b with
    | some p => (none, some p)
    | none => (some replacementChar, none)

/-- Decodes bytes after a character that is being read, if there is one. -/
def decodeLossyAfter (pending : Option PartialChar) : List UInt8 → List Char
  | [] => if pending.isSome then [replacementChar] else []
  | byte :: rest =>
    let b := byte.toNat
    match pending with
    | none =>
      let (c, pending) := decodeStart b
      c.toList ++ decodeLossyAfter pending rest
    | some p =>
      if p.low ≤ b ∧ b ≤ p.high then
        let bits := p.bits * 64 + (b - 0x80)
        if p.missing = 1 then Char.ofNat bits :: decodeLossyAfter none rest
        else decodeLossyAfter (some ⟨bits, 0x80, 0xBF, p.missing - 1⟩) rest
      else
        let (c, pending) := decodeStart b
        replacementChar :: (c.toList ++ decodeLossyAfter pending rest)

/-- The text of bytes, with replacement characters for what is not UTF-8. -/
def decodeLossy (bytes : List UInt8) : String :=
  String.ofList (decodeLossyAfter none bytes)

end EntityForge.Text
