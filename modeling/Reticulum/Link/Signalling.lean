import Mathlib.Data.UInt
import Mathlib.Data.Nat.Bitwise
import Reticulum.Link.Basic

/-!
# Signalling bytes

A link request and a link proof may end in three bytes: the mode in the three
high bits, the MTU in the other twenty-one. A request without them asks for the
default mode. The link id is a hash of the request with these bytes cut off, so
that a relay may change the MTU.
-/

namespace Reticulum.Link

def mtuBytemask : Nat := 0x1FFFFF

def modeBytemask : Nat := 0xE0

def signallingBytes (mtu : Nat) (mode : UInt8) : Except String Bytes :=
  if mode ≠ modeAes256Cbc ∧ mode ≠ modeAes128Cbc then
    .error ("Requested link mode " ++ toString mode.toNat ++ " not enabled")
  else
    let value := (mtu % 2 ^ 32 &&& mtuBytemask) + (((mode.toNat <<< 5) &&& modeBytemask) <<< 16)
    .ok [UInt8.ofNat (value >>> 16), UInt8.ofNat (value >>> 8), UInt8.ofNat value]

/-- The MTU that ends at byte `offset + LINK_MTU_SIZE`, if the data ends
there. -/
def mtuAt (offset : Nat) (data : Bytes) : Option Nat :=
  match data.drop offset with
  | [a, b, c] => some (((a.toNat <<< 16) + (b.toNat <<< 8) + c.toNat) &&& mtuBytemask)
  | _ => none

/-- `mtu_from_lr_packet`. -/
def mtuFromLrPacket : Bytes → Option Nat := mtuAt ecPubSize

/-- `mtu_from_lp_packet`. -/
def mtuFromLpPacket : Bytes → Option Nat := mtuAt (sigLength + ecPubSize / 2)

/-- `mode_from_lr_packet`. -/
def modeFromLrPacket (data : Bytes) : UInt8 :=
  match data.drop ecPubSize with
  | a :: _ => UInt8.ofNat ((a.toNat &&& modeBytemask) >>> 5)
  | [] => modeDefault

/-- `mode_from_lp_packet`. -/
def modeFromLpPacket (data : Bytes) : UInt8 :=
  match data.drop (sigLength + ecPubSize / 2) with
  | a :: _ => a >>> 5
  | [] => modeDefault

/-- What `link_id_from_lr_packet` hashes. -/
def linkIdPart (p : Packet) : Bytes :=
  if p.data.length > ecPubSize ∧ p.data.length - ecPubSize ≤ p.getHashablePart.length then
    p.getHashablePart.take (p.getHashablePart.length - (p.data.length - ecPubSize))
  else p.getHashablePart

/-- `link_id_from_lr_packet`. -/
def linkIdFromLrPacket (c : Crypto) (p : Packet) : Bytes.Block 16 :=
  c.truncatedHash (linkIdPart p)

/-! ## The three bytes carry the MTU and the mode -/

theorem and_mtuBytemask (n : Nat) : n &&& mtuBytemask = n % 2 ^ 21 :=
  Nat.and_two_pow_sub_one_eq_mod n 21

theorem shiftRight_five_toNat (a : UInt8) : (a >>> 5).toNat = a.toNat / 32 := by
  simp [UInt8.toNat_shiftRight, Nat.shiftRight_eq_div_pow]

variable {bytes : Bytes} {mtu : Nat} {mode : UInt8}

/-- Only two modes are enabled. -/
theorem mode_of_signallingBytes (h : signallingBytes mtu mode = .ok bytes) :
    mode = modeAes256Cbc ∨ mode = modeAes128Cbc := by
  by_contra hmode
  rw [not_or] at hmode
  simp [signallingBytes, hmode] at h

/-- The three bytes of an enabled mode. -/
theorem signallingBytes_eq (hmode : mode = modeAes256Cbc ∨ mode = modeAes128Cbc) :
    signallingBytes mtu mode =
      .ok [UInt8.ofNat (mtu % 2 ^ 21 / 65536 + mode.toNat * 32),
        UInt8.ofNat (mtu % 2 ^ 21 / 256), UInt8.ofNat (mtu % 2 ^ 21)] := by
  have hmask : mtu % 2 ^ 32 &&& mtuBytemask = mtu % 2 ^ 21 := by
    rw [and_mtuBytemask]
    omega
  have hif : ¬ (mode ≠ modeAes256Cbc ∧ mode ≠ modeAes128Cbc) := by
    rintro ⟨h256, h128⟩
    exact hmode.elim h256 h128
  simp only [signallingBytes, if_neg hif, hmask, Nat.shiftRight_eq_div_pow]
  rcases hmode with rfl | rfl
  · have hvalue : ((modeAes256Cbc.toNat <<< 5) &&& modeBytemask) <<< 16 = 32 * 65536 := by decide
    have hone : modeAes256Cbc.toNat = 1 := by decide
    rw [hvalue, hone]
    congr 1
    simp only [List.cons.injEq, and_true]
    refine ⟨?_, ?_, ?_⟩ <;> apply UInt8.toNat_inj.mp <;> simp only [UInt8.toNat_ofNat'] <;> omega
  · have hvalue : ((modeAes128Cbc.toNat <<< 5) &&& modeBytemask) <<< 16 = 0 := by decide
    have hzero : modeAes128Cbc.toNat = 0 := by decide
    rw [hvalue, hzero]
    congr 1

theorem length_signallingBytes (h : signallingBytes mtu mode = .ok bytes) : bytes.length = 3 := by
  rw [signallingBytes_eq (mode_of_signallingBytes h)] at h
  obtain rfl := Except.ok.inj h
  rfl

/-- Reading three bytes and writing them again changes nothing. -/
theorem signallingBytes_reencode {a b c : UInt8}
    (hmode : a >>> 5 = modeAes256Cbc ∨ a >>> 5 = modeAes128Cbc) :
    signallingBytes (((a.toNat <<< 16) + (b.toNat <<< 8) + c.toNat) &&& mtuBytemask) (a >>> 5) =
      .ok [a, b, c] := by
  have ha := a.toNat_lt
  have hb := b.toNat_lt
  have hc := c.toNat_lt
  rw [signallingBytes_eq hmode, and_mtuBytemask, shiftRight_five_toNat]
  congr 1
  simp only [Nat.shiftLeft_eq, List.cons.injEq, and_true]
  refine ⟨?_, ?_, ?_⟩ <;> apply UInt8.toNat_inj.mp <;> simp only [UInt8.toNat_ofNat'] <;> omega

/-- Equal bytes mean equal modes, and equal MTUs up to twenty-one bits. -/
theorem signallingBytes_inj {mtu mtu' : Nat} {mode mode' : UInt8}
    (h : signallingBytes mtu mode = .ok bytes) (h' : signallingBytes mtu' mode' = .ok bytes) :
    mode = mode' ∧ mtu % 2 ^ 21 = mtu' % 2 ^ 21 := by
  have hmode := mode_of_signallingBytes h
  have hmode' := mode_of_signallingBytes h'
  rw [signallingBytes_eq hmode] at h
  rw [signallingBytes_eq hmode', ← h] at h'
  simp only [Except.ok.injEq, List.cons.injEq, and_true, ← UInt8.toNat_inj,
    UInt8.toNat_ofNat'] at h'
  obtain ⟨hhigh, hmid, hlow⟩ := h'
  have hle : mode.toNat ≤ 1 := by rcases hmode with rfl | rfl <;> decide
  have hle' : mode'.toNat ≤ 1 := by rcases hmode' with rfl | rfl <;> decide
  constructor
  · apply UInt8.toNat_inj.mp
    omega
  · omega

/-- The three bytes at the end are read as the MTU that was written, up to twenty-one bits. -/
theorem mtuAt_signallingBytes (h : signallingBytes mtu mode = .ok bytes) (front : Bytes) :
    mtuAt front.length (front ++ bytes) = some (mtu % 2 ^ 21) := by
  have hmode := mode_of_signallingBytes h
  have hle : mode.toNat ≤ 1 := by rcases hmode with rfl | rfl <;> decide
  rw [signallingBytes_eq hmode] at h
  obtain rfl := Except.ok.inj h
  unfold mtuAt
  rw [List.drop_left]
  simp only [and_mtuBytemask, Nat.shiftLeft_eq, UInt8.toNat_ofNat', Option.some.injEq]
  omega

/-- The mode of a request is in the three high bits of the first byte after its keys. -/
theorem modeFromLrPacket_append {front rest : Bytes} {a : UInt8}
    (hfront : front.length = ecPubSize) :
    modeFromLrPacket (front ++ a :: rest) = a >>> 5 := by
  have hall : ∀ n : Fin 256, (n.1 &&& modeBytemask) >>> 5 = n.1 / 32 := by decide +kernel
  have hbits : (a.toNat &&& modeBytemask) >>> 5 = a.toNat / 32 := hall ⟨a.toNat, a.toNat_lt⟩
  unfold modeFromLrPacket
  rw [← hfront, List.drop_left]
  dsimp only
  rw [hbits]
  apply UInt8.toNat_inj.mp
  rw [shiftRight_five_toNat, UInt8.toNat_ofNat']
  have := a.toNat_lt
  omega

theorem modeFromLrPacket_signallingBytes {bytes front : Bytes}
    (h : signallingBytes mtu mode = .ok bytes) (hfront : front.length = ecPubSize) :
    modeFromLrPacket (front ++ bytes) = mode := by
  have hmode := mode_of_signallingBytes h
  have hle : mode.toNat ≤ 1 := by rcases hmode with rfl | rfl <;> decide
  rw [signallingBytes_eq hmode] at h
  obtain rfl := Except.ok.inj h
  rw [modeFromLrPacket_append hfront]
  apply UInt8.toNat_inj.mp
  rw [shiftRight_five_toNat, UInt8.toNat_ofNat']
  omega

/-- An MTU that was read has at most twenty-one bits. -/
theorem mtuAt_lt {offset mtu : Nat} {data : Bytes} (h : mtuAt offset data = some mtu) :
    mtu < 2 ^ 21 := by
  unfold mtuAt at h
  split at h
  · rw [and_mtuBytemask] at h
    obtain rfl := Option.some.inj h
    exact Nat.mod_lt _ (by decide)
  · cases h

end Reticulum.Link
