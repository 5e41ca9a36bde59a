import Reticulum.Lib.Fields

/-!
# MessagePack

The bytes of a number, a byte string, a short text and nothing, each in its smallest form, and how
many they are. A row of bytes can also be written as an array of numbers, which is something else
than a byte string, and is read back by `readArray`.
-/

namespace MessagePack

/-- An unsigned number below `2 ^ 64`. -/
def natural (n : Nat) : Bytes :=
  if n < 128 then [UInt8.ofNat n]
  else if n < 256 then 0xcc :: Fields.bigEndian 1 n
  else if n < 65536 then 0xcd :: Fields.bigEndian 2 n
  else if n < 4294967296 then 0xce :: Fields.bigEndian 4 n
  else 0xcf :: Fields.bigEndian 8 n

/-- The bytes of a number. -/
def naturalWidth (n : Nat) : Nat :=
  if n < 128 then 1 else if n < 256 then 2 else if n < 65536 then 3
  else if n < 4294967296 then 5 else 9

/-- What stands before a byte string of `n` bytes. -/
def binHeader (n : Nat) : Bytes :=
  if n < 256 then 0xc4 :: Fields.bigEndian 1 n
  else if n < 65536 then 0xc5 :: Fields.bigEndian 2 n
  else 0xc6 :: Fields.bigEndian 4 n

/-- The bytes before a byte string of `n` bytes. -/
def binWidth (n : Nat) : Nat := if n < 256 then 2 else if n < 65536 then 3 else 5

/-- A byte string shorter than `2 ^ 32`. -/
def bin (b : Bytes) : Bytes := binHeader b.length ++ b

/-- A text shorter than 32 bytes. -/
def fixstr (text : Bytes) : Bytes := UInt8.ofNat (0xa0 + text.length) :: text

/-- What stands before a map of less than 16 entries. -/
def fixmap (n : Nat) : Bytes := [UInt8.ofNat (0x80 + n)]

/-- Nothing. -/
def nil : Bytes := [0xc0]

@[simp] theorem length_natural (n : Nat) : (natural n).length = naturalWidth n := by
  unfold natural naturalWidth
  split_ifs <;> simp

@[simp] theorem length_binHeader (n : Nat) : (binHeader n).length = binWidth n := by
  unfold binHeader binWidth
  split_ifs <;> simp

@[simp] theorem length_bin (b : Bytes) : (bin b).length = binWidth b.length + b.length := by
  rw [bin, List.length_append, length_binHeader]

@[simp] theorem length_fixstr (text : Bytes) : (fixstr text).length = text.length + 1 := rfl

/-! ## Arrays of numbers -/

/-- What stands before an array of `n` entries. -/
def arrayHeader (n : Nat) : Bytes :=
  if n < 16 then [UInt8.ofNat (0x90 + n)]
  else if n < 65536 then 0xdc :: Fields.bigEndian 2 n
  else 0xdd :: Fields.bigEndian 4 n

/-- Less than `2 ^ 32` bytes as an array of numbers. -/
def array (b : Bytes) : Bytes := arrayHeader b.length ++ b.flatMap fun byte => natural byte.toNat

/-- A number of `w` bytes and what comes after it. -/
def readWord (w : Nat) (b : Bytes) : Option (Nat × Bytes) :=
  if w ≤ b.length then some (Fields.number (b.take w), b.drop w) else none

/-- The number of entries of an array, and what comes after its header. -/
def readArrayHeader : Bytes → Option (Nat × Bytes)
  | [] => none
  | marker :: rest =>
      if marker = 0xdc then readWord 2 rest
      else if marker = 0xdd then readWord 4 rest
      else if 0x90 ≤ marker.toNat ∧ marker.toNat < 0xa0 then some (marker.toNat - 0x90, rest)
      else none

/-- A number that is a byte, and what comes after it. -/
def readEntry : Bytes → Option (UInt8 × Bytes)
  | [] => none
  | [marker] => if marker.toNat < 128 then some (marker, []) else none
  | marker :: byte :: rest =>
      if marker.toNat < 128 then some (marker, byte :: rest)
      else if marker = 0xcc then some (byte, rest)
      else none

/-- So many numbers that are bytes. -/
def readEntries : Nat → Bytes → Option Bytes
  | 0, _ => some []
  | n + 1, b => (readEntry b).bind fun (byte, rest) => (readEntries n rest).map (byte :: ·)

/-- An array of numbers that are bytes. -/
def readArray (b : Bytes) : Option Bytes :=
  (readArrayHeader b).bind fun (n, rest) => readEntries n rest

theorem readWord_bigEndian {w n : Nat} (h : n < 256 ^ w) (rest : Bytes) :
    readWord w (Fields.bigEndian w n ++ rest) = some (n, rest) := by
  have hlength := Fields.length_bigEndian w n
  unfold readWord
  rw [List.length_append, hlength, if_pos (Nat.le_add_right w _), List.take_left' hlength,
    List.drop_left' hlength, Fields.number_bigEndian h]

theorem readArrayHeader_arrayHeader {n : Nat} (h : n < 4294967296) (rest : Bytes) :
    readArrayHeader (arrayHeader n ++ rest) = some (n, rest) := by
  unfold arrayHeader
  split
  · have hmarker : (UInt8.ofNat (0x90 + n)).toNat = 0x90 + n := by
      rw [UInt8.toNat_ofNat']
      omega
    have hne : ∀ marker : UInt8, 0xa0 ≤ marker.toNat → UInt8.ofNat (0x90 + n) ≠ marker := by
      rintro marker hle rfl
      omega
    rw [List.singleton_append, readArrayHeader, if_neg (hne 0xdc (by decide)),
      if_neg (hne 0xdd (by decide)), hmarker, if_pos (by omega), Nat.add_sub_cancel_left]
  · split
    · exact readWord_bigEndian (w := 2) (by omega) rest
    · exact readWord_bigEndian (w := 4) (by omega) rest

theorem readEntry_natural (byte : UInt8) (rest : Bytes) :
    readEntry (natural byte.toNat ++ rest) = some (byte, rest) := by
  have hbyte := byte.toNat_lt
  rw [natural]
  by_cases hsmall : byte.toNat < 128
  · rw [if_pos hsmall, List.singleton_append, UInt8.ofNat_toNat]
    cases rest with
    | nil => rw [readEntry, if_pos hsmall]
    | cons _ _ => rw [readEntry, if_pos hsmall]
  · have hword : Fields.bigEndian 1 byte.toNat = [byte] :=
      congrArg (fun low => [low]) UInt8.ofNat_toNat
    rw [if_neg hsmall, if_pos (by omega), hword, List.cons_append, List.singleton_append,
      readEntry, if_neg (by decide), if_pos rfl]

theorem readEntries_natural (b : Bytes) :
    readEntries b.length (b.flatMap fun byte => natural byte.toNat) = some b := by
  induction b with
  | nil => rfl
  | cons byte b ih =>
      rw [List.length_cons, List.flatMap_cons, readEntries, readEntry_natural, Option.bind_some]
      dsimp only
      rw [ih]
      rfl

/-- What is written as an array is read as one. -/
theorem readArray_array {b : Bytes} (h : b.length < 4294967296) : readArray (array b) = some b := by
  unfold readArray array
  rw [readArrayHeader_arrayHeader h]
  exact readEntries_natural b

end MessagePack
