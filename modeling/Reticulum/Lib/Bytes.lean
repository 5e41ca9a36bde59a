import Mathlib.Data.List.Basic
import Mathlib.Tactic.Common

/-!
# Byte strings and big-endian fields

Byte strings are lists of `UInt8`. A 16-bit field is two bytes, the high byte
first. A block is a byte string of a fixed length; a byte string is read as a
row of 4-byte blocks, where a rest of up to three bytes is left over.
-/

abbrev Bytes := List UInt8

namespace Bytes

instance instLawfulBEq : LawfulBEq Bytes := inferInstance

/-- The two bytes of a 16-bit number, high byte first. -/
def ofU16 (n : Nat) : Bytes := [UInt8.ofNat (n / 256), UInt8.ofNat n]

/-- The 16-bit number that two bytes spell, high byte first. -/
def toU16 (high low : UInt8) : Nat := high.toNat * 256 + low.toNat

theorem toU16_ofNat {n : Nat} (h : n < 65536) :
    toU16 (UInt8.ofNat (n / 256)) (UInt8.ofNat n) = n := by
  simp only [toU16, UInt8.toNat_ofNat']
  omega

@[simp] theorem length_ofU16 (n : Nat) : (ofU16 n).length = 2 := rfl

/-- Byte strings of length `n`. -/
abbrev Block (n : Nat) := { b : Bytes // b.length = n }

/-- The first `n` bytes of a longer block. -/
def Block.take {m : Nat} (n : Nat) (h : n ≤ m) (b : Block m) : Block n :=
  ⟨b.1.take n, by rw [List.length_take, b.2, Nat.min_eq_left h]⟩

/-- The bytes of a row of blocks. -/
def ofBlocks {n : Nat} (blocks : List (Block n)) : Bytes :=
  blocks.flatMap Subtype.val

/-- The row of 4-byte blocks that a byte string starts with. -/
def blocks4 : Bytes → List (Block 4)
  | a :: b :: c :: d :: rest => ⟨[a, b, c, d], rfl⟩ :: blocks4 rest
  | _ => []

@[simp] theorem ofBlocks_nil {n : Nat} : ofBlocks ([] : List (Block n)) = [] := rfl

@[simp] theorem ofBlocks_cons {n : Nat} (b : Block n) (bs : List (Block n)) :
    ofBlocks (b :: bs) = b.1 ++ ofBlocks bs := rfl

/-- Every block takes four bytes. -/
theorem length_blocks4_le (b : Bytes) : (blocks4 b).length * 4 ≤ b.length := by
  fun_induction blocks4 b with
  | case1 a b c d rest ih =>
      simp only [List.length_cons]
      omega
  | case2 b => simp only [List.length_nil, Nat.zero_mul, Nat.zero_le]

theorem blocks4_append (b : Block 4) (rest : Bytes) :
    blocks4 (b.1 ++ rest) = b :: blocks4 rest := by
  match b with
  | ⟨[x, y, z, w], _⟩ => rfl

/-- Reading back the bytes of a row of blocks. -/
@[simp] theorem blocks4_ofBlocks (bs : List (Block 4)) : blocks4 (ofBlocks bs) = bs := by
  induction bs with
  | nil => rfl
  | cons b bs ih => rw [ofBlocks_cons, blocks4_append, ih]

end Bytes
