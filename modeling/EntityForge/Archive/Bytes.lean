/-!
# Numbers in bytes

Numbers in an archive are little-endian and have a fixed width. `littleEndian` writes one and
`natAt?` reads one back (`natAt?_littleEndian`).
-/

namespace EntityForge.Archive

/-- The lowest `width` bytes of a number, the lowest first. -/
def littleEndian : Nat → Nat → List UInt8
  | 0, _ => []
  | width + 1, n => UInt8.ofNat n :: littleEndian width (n / 256)

/-- The number in the `width` bytes from place `i` on, if there are so many. -/
def natAt? (bytes : ByteArray) (i : Nat) : Nat → Option Nat
  | 0 => some 0
  | width + 1 => do
    let low ← bytes[i]?
    let high ← natAt? bytes (i + 1) width
    some (low.toNat + 256 * high)

/-- The `n` bytes from place `i` on, if there are so many. -/
def slice? (bytes : ByteArray) (i n : Nat) : Option ByteArray :=
  if i + n ≤ bytes.size then some (bytes.extract i (i + n)) else none

/-- The bytes of `pattern` stand at place `i`. -/
def hasAt (bytes : ByteArray) (i : Nat) (pattern : List UInt8) : Bool :=
  match pattern with
  | [] => true
  | b :: rest => bytes[i]? == some b && hasAt bytes (i + 1) rest

theorem littleEndian_length (width n : Nat) : (littleEndian width n).length = width := by
  induction width generalizing n with
  | zero => rfl
  | succ width ih => simp [littleEndian, ih]

theorem natAt?_littleEndian {bytes : ByteArray} {i width n : Nat} (hn : n < Nat.pow 256 width)
    (h : hasAt bytes i (littleEndian width n) = true) : natAt? bytes i width = some n := by
  induction width generalizing i n with
  | zero => simp_all [natAt?]
  | succ width ih =>
    simp only [littleEndian, hasAt, Bool.and_eq_true, beq_iff_eq] at h
    have hd : n / 256 < Nat.pow 256 width := (Nat.div_lt_iff_lt_mul (by decide)).2 hn
    have := ih hd h.2
    simp only [natAt?, h.1, this, Option.bind_eq_bind, Option.bind_some, Option.some.injEq,
      UInt8.toNat_ofNat']
    omega

end EntityForge.Archive
