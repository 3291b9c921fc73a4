import EntityForge.Proofs.Text.Utf8

/-!
# The byte order of texts

Texts are ordered by their characters, and that is the order of their UTF-8 bytes
(`lt_iff_toUTF8_lt`): of two characters the greater one has the greater bytes
(`utf8EncodeChar_append_lt`), since a longer form starts with a greater byte and forms of one length
are numbers written with one base.
-/

namespace EntityForge.Text

theorem ofNat_cons_lt {a b : Nat} (ha : a < 256) (hb : b < 256) {xs ys : List UInt8} :
    UInt8.ofNat a :: xs < UInt8.ofNat b :: ys ↔ a < b ∨ a = b ∧ xs < ys := by
  rw [List.cons_lt_cons_iff, UInt8.lt_iff_toNat_lt, ← UInt8.toNat_inj, toNat_ofNat_of_lt ha,
    toNat_ofNat_of_lt hb]

/-- Lists of one length are compared without what follows them. -/
theorem append_lt_append {xs ys : List UInt8} (hl : xs.length = ys.length) (h : xs < ys)
    (r r' : List UInt8) : xs ++ r < ys ++ r' := by
  induction xs generalizing ys with
  | nil =>
    obtain rfl := List.length_eq_zero_iff.1 hl.symm
    exact absurd h (List.lt_irrefl [])
  | cons x xs ih =>
    obtain ⟨y, ys, rfl⟩ := List.exists_cons_of_length_eq_add_one hl.symm
    rw [List.cons_append, List.cons_append, List.cons_lt_cons_iff]
    rcases List.cons_lt_cons_iff.1 h with hxy | ⟨hxy, hlt⟩
    · exact .inl hxy
    · exact .inr ⟨hxy, ih (Nat.succ.inj hl) hlt⟩

/-- The bytes of a character, by their number. -/
theorem utf8EncodeChar_cases (c : Char) :
    (c.toNat < 0x80 ∧ String.utf8EncodeChar c = [UInt8.ofNat c.toNat]) ∨
    ((0x80 ≤ c.toNat ∧ c.toNat < 0x800) ∧ String.utf8EncodeChar c =
      [UInt8.ofNat (c.toNat / 64 + 192), UInt8.ofNat (c.toNat % 64 + 128)]) ∨
    ((0x800 ≤ c.toNat ∧ c.toNat < 0x10000) ∧ String.utf8EncodeChar c =
      [UInt8.ofNat (c.toNat / 4096 + 224), UInt8.ofNat (c.toNat / 64 % 64 + 128),
        UInt8.ofNat (c.toNat % 64 + 128)]) ∨
    ((0x10000 ≤ c.toNat ∧ c.toNat < 0x110000) ∧ String.utf8EncodeChar c =
      [UInt8.ofNat (c.toNat / 262144 + 240), UInt8.ofNat (c.toNat / 4096 % 64 + 128),
        UInt8.ofNat (c.toNat / 64 % 64 + 128), UInt8.ofNat (c.toNat % 64 + 128)]) := by
  have hvalid : c.toNat < 0xD800 ∨ 0xDFFF < c.toNat ∧ c.toNat < 0x110000 := c.valid
  unfold String.utf8EncodeChar
  simp only [Char.toNat_val]
  split
  · exact .inl ⟨by omega, rfl⟩
  split
  · rw [Nat.mod_eq_of_lt (show c.toNat / 64 < 32 by omega)]
    exact .inr (.inl ⟨by omega, rfl⟩)
  split
  · rw [Nat.mod_eq_of_lt (show c.toNat / 4096 < 16 by omega)]
    exact .inr (.inr (.inl ⟨by omega, rfl⟩))
  · rw [Nat.mod_eq_of_lt (show c.toNat / 262144 < 8 by omega)]
    exact .inr (.inr (.inr ⟨by omega, rfl⟩))

/-- A greater first byte decides. -/
theorem cons_append_lt {a b : Nat} (hab : a < b) (hb : b < 256) (xs ys r r' : List UInt8) :
    UInt8.ofNat a :: xs ++ r < UInt8.ofNat b :: ys ++ r' :=
  (ofNat_cons_lt (Nat.lt_trans hab hb) hb).2 (.inl hab)

/-- The greater of two characters has the greater bytes, whatever follows. -/
theorem utf8EncodeChar_append_lt {c d : Char} (h : c < d) (r r' : List UInt8) :
    String.utf8EncodeChar c ++ r < String.utf8EncodeChar d ++ r' := by
  have hlt : c.toNat < d.toNat := h
  rcases utf8EncodeChar_cases c with ⟨hc, hce⟩ | ⟨hc, hce⟩ | ⟨hc, hce⟩ | ⟨hc, hce⟩ <;>
    rcases utf8EncodeChar_cases d with ⟨hd, hde⟩ | ⟨hd, hde⟩ | ⟨hd, hde⟩ | ⟨hd, hde⟩ <;>
    rw [hce, hde]
  -- the shorter form belongs to the smaller character
  case inr.inl.inl | inr.inr.inl.inl | inr.inr.inl.inr.inl | inr.inr.inr.inl | inr.inr.inr.inr.inl |
      inr.inr.inr.inr.inr.inl => omega
  -- forms of one length
  case inr.inl.inr.inl | inr.inr.inl.inr.inr.inl | inr.inr.inr.inr.inr.inr =>
    refine append_lt_append (by rfl) ?_ r r'
    simp (disch := omega) only [ofNat_cons_lt, List.lt_irrefl]
    omega
  all_goals exact cons_append_lt (by omega) (by omega) ..

theorem flatMap_utf8EncodeChar_lt {cs ds : List Char} (h : cs < ds) :
    cs.flatMap String.utf8EncodeChar < ds.flatMap String.utf8EncodeChar := by
  induction cs generalizing ds with
  | nil =>
    cases ds with
    | nil => exact absurd h (List.lt_irrefl [])
    | cons d ds =>
      obtain ⟨b, bs, hd⟩ := List.exists_cons_of_ne_nil (String.utf8EncodeChar_ne_nil (c := d))
      rw [List.flatMap_cons, hd]
      exact List.nil_lt_cons b _
  | cons c cs ih =>
    cases ds with
    | nil => exact absurd h (List.not_lt_nil _)
    | cons d ds =>
      rw [List.flatMap_cons, List.flatMap_cons]
      rcases List.cons_lt_cons_iff.1 h with hcd | ⟨rfl, hlt⟩
      · exact utf8EncodeChar_append_lt hcd _ _
      · exact List.append_left_lt (ih hlt)

/-- Texts are ordered as their bytes are. -/
theorem lt_iff_toUTF8_lt (s t : String) : s < t ↔ s.toUTF8.toList < t.toUTF8.toList := by
  rw [String.lt_iff, toList_toUTF8, toList_toUTF8]
  refine ⟨flatMap_utf8EncodeChar_lt, fun h => ?_⟩
  by_contra hst
  rcases List.le_iff_lt_or_eq.1 (List.not_lt.1 hst) with hts | hts
  · exact List.lt_asymm h (flatMap_utf8EncodeChar_lt hts)
  · exact List.lt_irrefl _ (hts ▸ h)

end EntityForge.Text
