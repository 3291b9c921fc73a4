import EntityForge.Archive.Bytes
import EntityForge.Archive.Zip.Write
import EntityForge.Proofs.Text.Utf8

/-!
# What stands where

`hasAt bytes i pattern` says that a pattern stands at a place. What stands there is what the bytes
from the place on begin with (`hasAt_iff`), so patterns one after the other stand one after the
other (`hasAt_append`), and bytes that are added at the end stand there and move nothing
(`hasAt_append_left`, `hasAt_end`). A part that stands at a place is read back there
(`slice?_of_hasAt`).
-/

namespace EntityForge.Archive

theorem getElem?_eq_data (bytes : ByteArray) (i : Nat) : bytes[i]? = bytes.data.toList[i]? := by
  rw [Array.getElem?_toList]
  rfl

theorem hasAt_iff {bytes : ByteArray} {i : Nat} {pattern : List UInt8} :
    hasAt bytes i pattern = true ↔ pattern <+: bytes.data.toList.drop i := by
  induction pattern generalizing i with
  | nil => simp [hasAt]
  | cons b pattern ih =>
    rw [hasAt, Bool.and_eq_true, beq_iff_eq, ih, getElem?_eq_data]
    by_cases hi : i < bytes.data.toList.length
    · rw [List.drop_eq_getElem_cons hi, List.cons_prefix_cons, List.getElem?_eq_getElem hi,
        Option.some.injEq, eq_comm]
    · have hnone := List.getElem?_eq_none (Nat.le_of_not_lt hi)
      rw [List.drop_eq_nil_of_le (Nat.le_of_not_lt hi), hnone]
      simp

/-- Patterns one after the other. -/
theorem hasAt_append {bytes : ByteArray} {i : Nat} {p q : List UInt8} :
    hasAt bytes i (p ++ q) = (hasAt bytes i p && hasAt bytes (i + p.length) q) := by
  induction p generalizing i with
  | nil => simp [hasAt]
  | cons b p ih =>
    rw [List.cons_append, hasAt, hasAt, ih, Bool.and_assoc, List.length_cons, Nat.add_right_comm,
      Nat.add_assoc]

section
variable {a b : ByteArray} {i : Nat} {l : List UInt8}

@[simp] theorem size_ofBytes (l : List UInt8) : (Zip.ofBytes l).size = l.length := rfl

theorem ofBytes_toList_data (bytes : ByteArray) : Zip.ofBytes bytes.data.toList = bytes := rfl

/-- Bytes that are added at the end move nothing. -/
theorem hasAt_append_left (h : hasAt a i l = true) : hasAt (a ++ b) i l = true := by
  rw [hasAt_iff] at h ⊢
  rw [ByteArray.data_append, Array.toList_append, List.drop_append]
  exact h.trans (List.prefix_append _ _)

/-- Bytes that are added stand where the bytes before them end. -/
theorem hasAt_end (a : ByteArray) (l : List UInt8) :
    hasAt (a ++ Zip.ofBytes l) a.size l = true := by
  have hsize : a.data.toList.length = a.size := rfl
  rw [hasAt_iff, ByteArray.data_append, Array.toList_append, List.drop_left' hsize]
  exact List.prefix_refl l

theorem hasAt_length_le (h : hasAt a i l = true) : l.length ≤ a.size - i := by
  have hlength := (hasAt_iff.1 h).length_le
  rwa [List.length_drop] at hlength

/-- A part that stands at a place ends within the bytes. -/
theorem hasAt_le_size (h : hasAt a i l = true) (hl : l ≠ []) : i + l.length ≤ a.size := by
  have hlength := hasAt_length_le h
  have hpos := List.length_pos_iff.2 hl
  omega

/-- A part that stands at a place is read back there. -/
theorem extract_of_hasAt (h : hasAt a i l = true) :
    a.extract i (i + l.length) = Zip.ofBytes l := by
  refine ByteArray.ext (Array.toList_inj.1 ?_)
  rw [ByteArray.data_extract, Array.toList_extract, List.extract_eq_take_drop,
    Nat.add_sub_cancel_left]
  exact (List.prefix_iff_eq_take.1 (hasAt_iff.1 h)).symm

theorem slice?_of_hasAt (h : hasAt a i l = true) (hi : i ≤ a.size) :
    slice? a i l.length = some (Zip.ofBytes l) := by
  have hlength := hasAt_length_le h
  rw [slice?, if_pos (by omega), extract_of_hasAt h]

end

end EntityForge.Archive
