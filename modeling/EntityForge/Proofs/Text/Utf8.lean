import EntityForge.Text.Utf8
import Mathlib.Data.List.Basic

/-!
# Text and its UTF-8 bytes

The bytes of a text are those of its characters, one after the other (`toList_toUTF8`). Reading them
leniently gives the text back (`decodeLossy_toUTF8`), since the bytes of a character are read as
that character, whatever follows (`decodeLossyAfter_encode`); so does reading them strictly
(`fromUTF8?_toUTF8`).
-/

namespace EntityForge.Text

/-! ## Bytes as lists -/

theorem toList_loop (bytes : ByteArray) (i : Nat) (read : List UInt8) :
    ByteArray.toList.loop bytes i read = read.reverse ++ bytes.data.toList.drop i := by
  induction i, read using ByteArray.toList.loop.induct bytes with
  | case1 i read hlt ih =>
    have hi : i < bytes.data.toList.length := hlt
    have hget : bytes.get! i = bytes.data.toList[i] := getElem!_pos bytes.data i hlt
    rw [ByteArray.toList.loop, if_pos hlt, ih, List.drop_eq_getElem_cons hi, hget]
    simp
  | case2 i read hge =>
    have hi : bytes.data.toList.length ≤ i := Nat.le_of_not_lt hge
    rw [ByteArray.toList.loop, if_neg hge, List.drop_eq_nil_of_le hi, List.append_nil]

theorem toList_eq_data (bytes : ByteArray) : bytes.toList = bytes.data.toList := by
  rw [ByteArray.toList, toList_loop]
  rfl

/-- The bytes of a text are those of its characters. -/
theorem toList_toUTF8 (s : String) :
    s.toUTF8.toList = s.toList.flatMap String.utf8EncodeChar := by
  rw [toList_eq_data, String.toUTF8_eq_toByteArray, ← String.utf8Encode_toList, List.utf8Encode,
    List.data_toByteArray]

theorem fromUTF8?_toUTF8 (s : String) : String.fromUTF8? s.toUTF8 = some s := by
  rw [String.fromUTF8?, String.toUTF8_eq_toByteArray, dif_pos s.isValidUTF8]
  rfl

/-! ## Reading leniently -/

section
variable {byte : UInt8} {b : Nat} (hb : byte.toNat = b) {rest : List UInt8}
include hb

theorem decodeLossyAfter_ascii (h : b < 0x80) :
    decodeLossyAfter none (byte :: rest) = Char.ofNat b :: decodeLossyAfter none rest := by
  simp [decodeLossyAfter, decodeStart, hb, h]

theorem decodeLossyAfter_start {p : PartialChar} (h : 0x80 ≤ b)
    (hp : PartialChar.ofByte? b = some p) :
    decodeLossyAfter none (byte :: rest) = decodeLossyAfter (some p) rest := by
  simp [decodeLossyAfter, decodeStart, hb, Nat.not_lt.2 h, hp]

theorem decodeLossyAfter_more {bits low high missing : Nat} (h : low ≤ b ∧ b ≤ high)
    (hm : missing ≠ 0) :
    decodeLossyAfter (some ⟨bits, low, high, missing + 1⟩) (byte :: rest) =
      decodeLossyAfter (some ⟨bits * 64 + (b - 0x80), 0x80, 0xBF, missing⟩) rest := by
  simp [decodeLossyAfter, hb, h, hm]

theorem decodeLossyAfter_last {bits low high : Nat} (h : low ≤ b ∧ b ≤ high) :
    decodeLossyAfter (some ⟨bits, low, high, 1⟩) (byte :: rest) =
      Char.ofNat (bits * 64 + (b - 0x80)) :: decodeLossyAfter none rest := by
  simp [decodeLossyAfter, hb, h]

end

/-- What the first of two bytes announces. -/
theorem ofByte?_two {b : Nat} (hb : 0xC2 ≤ b ∧ b ≤ 0xDF) :
    PartialChar.ofByte? b = some ⟨b - 0xC0, 0x80, 0xBF, 1⟩ := by
  rw [PartialChar.ofByte?, if_pos hb]

/-- What the first of three bytes announces. -/
theorem ofByte?_three {b : Nat} (hb : 0xE0 ≤ b ∧ b ≤ 0xEF) : ∃ low high,
    PartialChar.ofByte? b = some ⟨b - 0xE0, low, high, 2⟩ ∧
      ∀ next, 0x80 ≤ next → next ≤ 0xBF → (b = 0xE0 → 0xA0 ≤ next) → (b = 0xED → next ≤ 0x9F) →
        low ≤ next ∧ next ≤ high := by
  unfold PartialChar.ofByte?
  rw [if_neg (by omega)]
  by_cases h0 : b = 0xE0
  · subst h0
    exact ⟨_, _, rfl, fun next _ h1 h2 _ => ⟨h2 rfl, h1⟩⟩
  · by_cases hd : b = 0xED
    · subst hd
      exact ⟨_, _, rfl, fun next h1 _ _ h2 => ⟨h1, h2 rfl⟩⟩
    · rw [if_neg h0, if_neg hd, if_pos (by omega)]
      exact ⟨_, _, rfl, fun next h1 h2 _ _ => ⟨h1, h2⟩⟩

/-- What the first of four bytes announces. -/
theorem ofByte?_four {b : Nat} (hb : 0xF0 ≤ b ∧ b ≤ 0xF4) : ∃ low high,
    PartialChar.ofByte? b = some ⟨b - 0xF0, low, high, 3⟩ ∧
      ∀ next, 0x80 ≤ next → next ≤ 0xBF → (b = 0xF0 → 0x90 ≤ next) → (b = 0xF4 → next ≤ 0x8F) →
        low ≤ next ∧ next ≤ high := by
  unfold PartialChar.ofByte?
  rw [if_neg (by omega), if_neg (by omega), if_neg (by omega), if_neg (by omega)]
  by_cases h0 : b = 0xF0
  · subst h0
    exact ⟨_, _, rfl, fun next _ h1 h2 _ => ⟨h2 rfl, h1⟩⟩
  · by_cases h4 : b = 0xF4
    · subst h4
      exact ⟨_, _, rfl, fun next h1 _ _ h2 => ⟨h1, h2 rfl⟩⟩
    · rw [if_neg h0, if_pos (by omega)]
      exact ⟨_, _, rfl, fun next h1 h2 _ _ => ⟨h1, h2⟩⟩

theorem toNat_ofNat_of_lt {n : Nat} (h : n < 256) : (UInt8.ofNat n).toNat = n := by
  rw [UInt8.toNat_ofNat', Nat.mod_eq_of_lt h]

section
variable {v : Nat} (rest : List UInt8)

theorem decodeLossyAfter_two (h : 0x80 ≤ v ∧ v ≤ 0x7FF) :
    decodeLossyAfter none (UInt8.ofNat (v / 64 % 32 + 192) :: UInt8.ofNat (v % 64 + 128) :: rest) =
      Char.ofNat v :: decodeLossyAfter none rest := by
  have hp := ofByte?_two (b := v / 64 % 32 + 192) (by omega)
  have hbits : (v / 64 % 32 + 192 - 0xC0) * 64 + (v % 64 + 128 - 0x80) = v := by omega
  rw [decodeLossyAfter_start (toNat_ofNat_of_lt (by omega)) (by omega) hp,
    decodeLossyAfter_last (toNat_ofNat_of_lt (by omega)) ⟨by omega, by omega⟩, hbits]

theorem decodeLossyAfter_three (h : 0x800 ≤ v ∧ v ≤ 0xFFFF) (hv : v < 0xD800 ∨ 0xDFFF < v) :
    decodeLossyAfter none (UInt8.ofNat (v / 4096 % 16 + 224) :: UInt8.ofNat (v / 64 % 64 + 128) ::
        UInt8.ofNat (v % 64 + 128) :: rest) =
      Char.ofNat v :: decodeLossyAfter none rest := by
  obtain ⟨low, high, hp, hnext⟩ := ofByte?_three (b := v / 4096 % 16 + 224) (by omega)
  -- the second byte tells a surrogate and a longer form than needed
  have hsecond := hnext (v / 64 % 64 + 128) (by omega) (by omega) (by omega) (by omega)
  have hbits : ((v / 4096 % 16 + 224 - 0xE0) * 64 + (v / 64 % 64 + 128 - 0x80)) * 64 +
      (v % 64 + 128 - 0x80) = v := by omega
  rw [decodeLossyAfter_start (toNat_ofNat_of_lt (by omega)) (by omega) hp,
    decodeLossyAfter_more (toNat_ofNat_of_lt (by omega)) hsecond (by decide),
    decodeLossyAfter_last (toNat_ofNat_of_lt (by omega)) ⟨by omega, by omega⟩, hbits]

theorem decodeLossyAfter_four (h : 0x10000 ≤ v ∧ v < 0x110000) :
    decodeLossyAfter none (UInt8.ofNat (v / 262144 % 8 + 240) ::
        UInt8.ofNat (v / 4096 % 64 + 128) :: UInt8.ofNat (v / 64 % 64 + 128) ::
        UInt8.ofNat (v % 64 + 128) :: rest) =
      Char.ofNat v :: decodeLossyAfter none rest := by
  obtain ⟨low, high, hp, hnext⟩ := ofByte?_four (b := v / 262144 % 8 + 240) (by omega)
  -- the second byte tells a code beyond the last one and a longer form than needed
  have hsecond := hnext (v / 4096 % 64 + 128) (by omega) (by omega) (by omega) (by omega)
  have hbits : (((v / 262144 % 8 + 240 - 0xF0) * 64 + (v / 4096 % 64 + 128 - 0x80)) * 64 +
      (v / 64 % 64 + 128 - 0x80)) * 64 + (v % 64 + 128 - 0x80) = v := by omega
  rw [decodeLossyAfter_start (toNat_ofNat_of_lt (by omega)) (by omega) hp,
    decodeLossyAfter_more (toNat_ofNat_of_lt (by omega)) hsecond (by decide),
    decodeLossyAfter_more (toNat_ofNat_of_lt (by omega)) ⟨by omega, by omega⟩ (by decide),
    decodeLossyAfter_last (toNat_ofNat_of_lt (by omega)) ⟨by omega, by omega⟩, hbits]

end

/-- The bytes of a character are read as that character, whatever follows. -/
theorem decodeLossyAfter_encode (c : Char) (rest : List UInt8) :
    decodeLossyAfter none (String.utf8EncodeChar c ++ rest) = c :: decodeLossyAfter none rest := by
  have hvalid : c.toNat < 0xD800 ∨ 0xDFFF < c.toNat ∧ c.toNat < 0x110000 := c.valid
  have hchar := Char.ofNat_toNat c
  have hval : c.val.toNat = c.toNat := rfl
  unfold String.utf8EncodeChar
  simp only [hval]
  split
  · rw [List.singleton_append, decodeLossyAfter_ascii (toNat_ofNat_of_lt (by omega)) (by omega),
      hchar]
  · split
    · exact (decodeLossyAfter_two rest (by omega)).trans (by rw [hchar])
    · split
      · exact (decodeLossyAfter_three rest (by omega) (by omega)).trans (by rw [hchar])
      · exact (decodeLossyAfter_four rest (by omega)).trans (by rw [hchar])

theorem decodeLossy_toUTF8 (s : String) : decodeLossy s.toUTF8.toList = s := by
  rw [decodeLossy, toList_toUTF8]
  refine String.toList_inj.1 ?_
  rw [String.toList_ofList]
  induction s.toList with
  | nil => rfl
  | cons c cs ih => rw [List.flatMap_cons, decodeLossyAfter_encode, ih]

end EntityForge.Text
