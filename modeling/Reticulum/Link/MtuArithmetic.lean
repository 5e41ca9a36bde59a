import Reticulum.Lib.Results
import Reticulum.Link.Agreement
import Reticulum.Resource.Segments

/-!
# The sizes that follow from an MTU

A link takes its MTU from the three signalling bytes of a request or of a proof, and computes its
MDU and the SDU of its resources from it (`update_mdu`, `new_internal`). The arithmetic is sound
exactly from 84 bytes on: below, a subtraction of `update_mdu` underflows (`mtu_sound_iff`). A
destination is never that low, as its proof of 118 bytes would not go out; an initiator can be.

## Implementation notes

`HEADER_MINSIZE` is 19, `HEADER_MAXSIZE` 35, `IFAC_MIN_SIZE` 1 and `TOKEN_OVERHEAD` 48. A link is
activated by a proof also when the LRRTT packet after it cannot be encrypted. A signature has 64
bytes.
-/

namespace Reticulum.Link

/-- No subtraction of `update_mdu` underflows, from the first to the last. -/
structure UpdateMduFits (mtu : Nat) : Prop where
  ifac : 1 ≤ mtu
  header : 19 ≤ mtu - 1
  token : 48 ≤ mtu - 1 - 19
  last : 1 ≤ (mtu - 1 - 19 - 48) / 16 * 16

/-- The `sdu` that `new_internal` takes from the MTU of the link, with a saturating subtraction. -/
def resourceSdu (mtu : Nat) : Nat := mtu - (35 + 1)

/-- The arithmetic on the MTU of a link is sound. -/
structure MtuSound (c : Crypto) (l : Link) : Prop where
  fits : UpdateMduFits l.mtu
  smaller : l.mdu < l.mtu
  framed : ∀ vector plaintext token, plaintext.length = l.mdu →
    l.encrypt c vector plaintext = .ok token → 19 + token.length ≤ l.mtu
  sdu : 1 ≤ resourceSdu l.mtu

/-- The sizes of a link that nothing was signalled to. -/
structure DefaultSizes (l : Link) : Prop where
  mtu : l.mtu = defaultMtu
  mdu : l.mdu = 431

/-- A link that has accepted a request or a proof, and the MTU that was signalled with it. -/
inductive MtuAccepted (c : Crypto) : Link → Option Nat → Prop
  | request {owner : DestinationKey} {sign : Bytes → Bytes} {packet : Packet}
      {prv : Bytes.Block 32} {placeholder : Bytes} {now : Nat} {l : Link} {proof : Bytes}
      (signs : ∀ message, (sign message).length = 64)
      (accepted : validateRequest c owner sign packet prv placeholder now = .ok (l, proof)) :
      MtuAccepted c l (mtuFromLrPacket packet.data)
  | proof {l : Link} {packet : Packet} {r : Readings} (sizes : DefaultSizes l)
      (waiting : l.state = .pending)
      (accepted : (handleProofPacket c l packet r).2.state = .active) :
      MtuAccepted c (handleProofPacket c l packet r).2 (mtuFromLpPacket packet.data)

/-! ## The arithmetic -/

theorem updateMduFits_iff (mtu : Nat) : UpdateMduFits mtu ↔ 84 ≤ mtu := by
  constructor
  · rintro ⟨hifac, hheader, htoken, hlast⟩
    omega
  · intro h
    constructor <;> omega

/-- What `update_mdu` computes, with subtractions that wrap. -/
def wrappedMdu (mtu : Nat) : Nat :=
  ((mtu + 2 ^ 64 - (1 + 19 + 48)) % 2 ^ 64 / 16 * 16 + 2 ^ 64 - 1) % 2 ^ 64

theorem mdu_updateMdu (l : Link) : (updateMdu l).mdu = wrappedMdu l.mtu := rfl

/-- The MDU is one byte short of a number of blocks. -/
theorem wrappedMdu_eq {mtu : Nat} (hlow : 84 ≤ mtu) (hhigh : mtu < 2 ^ 64) :
    wrappedMdu mtu = (mtu - 68) / 16 * 16 - 1 := by
  have hroom : (mtu + 2 ^ 64 - (1 + 19 + 48)) % 2 ^ 64 = mtu - 68 := by omega
  rw [wrappedMdu, hroom]
  omega

variable {sign : Bytes → Bytes} {c : Crypto} {l : Link} {signalled : Option Nat} {packet : Packet}

/-- A vector, the padded plaintext and an HMAC. -/
theorem length_encrypt (hpads : c.Pads) {vector : Bytes.Block 16} {plaintext token : Bytes}
    (h : l.encrypt c vector plaintext = .ok token) :
    token.length = 48 + 16 * (plaintext.length / 16 + 1) := by
  obtain ⟨keys, rfl⟩ := token_of_encrypt h
  rw [List.length_append, List.length_append, hpads, vector.2, (c.hmac keys.signingKey _).2]
  omega

/-- A link with an MDU that `update_mdu` has set is sound from 84 bytes on. -/
theorem mtuSound_of_mdu (hpads : c.Pads) (hlow : 84 ≤ l.mtu)
    (hmdu : l.mdu = (l.mtu - 68) / 16 * 16 - 1) : MtuSound c l where
  fits := (updateMduFits_iff l.mtu).mpr hlow
  smaller := by
    rw [hmdu]
    omega
  framed := by
    intro vector plaintext token hplaintext htoken
    rw [length_encrypt hpads htoken, hplaintext, hmdu]
    omega
  sdu := by
    unfold resourceSdu
    omega

/-! ## The links that are accepted -/

theorem defaultSizes_new (initiator : Bool) (destination : DestinationKey) (mode : UInt8)
    (placeholder : Bytes) (now : Nat) :
    DefaultSizes (new initiator destination mode placeholder now) := ⟨rfl, rfl⟩

/-- Sending the request leaves the sizes as they are. -/
theorem DefaultSizes.initiatePrepare (h : DefaultSizes l) (c : Crypto) (prv sigPub : Bytes.Block 32)
    (destType : UInt8) (destHash : Bytes.Block 16) :
    DefaultSizes (initiatePrepare c l prv sigPub destType destHash).2 := by
  unfold Link.initiatePrepare
  split
  · exact h
  · dsimp only
    split <;> exact ⟨h.mtu, h.mdu⟩

/-- The MTU of a link is the signalled one, or the default, and its MDU follows from it. -/
structure SizesOf (l : Link) (signalled : Option Nat) : Prop where
  mtu : l.mtu = signalled.getD defaultMtu
  mdu : l.mdu = wrappedMdu l.mtu

theorem DefaultSizes.sizesOf (h : DefaultSizes l) : SizesOf l none where
  mtu := h.mtu
  mdu := by
    rw [h.mdu, h.mtu]
    decide

theorem SizesOf.updateKeepalive (h : SizesOf l signalled) (r : Readings) :
    SizesOf (updateKeepalive l r) signalled := by
  unfold Link.updateKeepalive
  split
  · exact ⟨h.mtu, h.mdu⟩
  · exact h

theorem DefaultSizes.activate (h : DefaultSizes l) (data : Bytes) (r : Readings) :
    SizesOf (activate l data r) (mtuFromLpPacket data) := by
  apply SizesOf.updateKeepalive
  split
  · rename_i mtu hmtu
    rw [hmtu]
    exact ⟨rfl, mdu_updateMdu _⟩
  · rename_i hnone
    rw [hnone]
    exact DefaultSizes.sizesOf ⟨h.mtu, h.mdu⟩

theorem sizesOf_sendRtt (h : SizesOf l signalled) (r : Readings) :
    SizesOf (sendRtt c l r).2 signalled := by
  unfold sendRtt
  split
  · split <;> exact ⟨h.mtu, h.mdu⟩
  · exact h

theorem sizesOf_validateRequest {owner : DestinationKey} {prv : Bytes.Block 32}
    {placeholder proof : Bytes} {now : Nat}
    (h : validateRequest c owner sign packet prv placeholder now = .ok (l, proof)) :
    SizesOf l (mtuFromLrPacket packet.data) := by
  cases owner with
  | key publicKey =>
      obtain ⟨-, -, length, -, -, rfl⟩ := validateRequest_eq h
      exact ⟨rfl, mdu_updateMdu _⟩
  | _ =>
      unfold validateRequest at h
      split at h <;> cases h

/-- A link that a proof activates is an initiator's. -/
theorem initiator_of_activated {r : Readings} (hstate : l.state = .pending)
    (hactive : (handleProofPacket c l packet r).2.state = .active) :
    packet.context ≠ Packet.resourcePrf ∧ l.initiator = true := by
  have hpending : l.state ≠ .active := by
    rw [hstate]
    decide
  have hcontext : packet.context ≠ Packet.resourcePrf := by
    intro hcontext
    unfold handleProofPacket at hactive
    rw [if_pos hcontext] at hactive
    exact hpending hactive
  refine ⟨hcontext, ?_⟩
  by_contra hnot
  unfold handleProofPacket at hactive
  rw [if_neg hcontext, if_pos (.inl hnot)] at hactive
  exact hpending hactive

theorem sizesOf_handleProofPacket {r : Readings} (hsizes : DefaultSizes l)
    (hstate : l.state = .pending) (hactive : (handleProofPacket c l packet r).2.state = .active) :
    SizesOf (handleProofPacket c l packet r).2 (mtuFromLpPacket packet.data) := by
  have hpending : l.state ≠ .active := by
    rw [hstate]
    decide
  obtain ⟨hcontext, hinitiator⟩ := initiator_of_activated hstate hactive
  rcases handleProofPacket_cases (c := c) (r := r) hinitiator hstate hcontext with
    ⟨-, e, he⟩ | ⟨publicKey, -, -, ⟨-, e, he⟩ | ⟨e, l', he, hl', -⟩ |
      ⟨prv, length, signed, -, -, -, -, -, he⟩⟩
  · rw [he] at hactive
    exact absurd hactive hpending
  · rw [he] at hactive
    exact absurd hactive hpending
  · rw [he] at hactive
    exact absurd (hl'.symm.trans hactive) (by decide)
  · rw [he]
    apply sizesOf_sendRtt
    apply DefaultSizes.activate
    exact ⟨hsizes.mtu, hsizes.mdu⟩

theorem MtuAccepted.sizes (h : MtuAccepted c l signalled) : SizesOf l signalled := by
  cases h with
  | request signs accepted => exact sizesOf_validateRequest accepted
  | proof sizes waiting accepted => exact sizesOf_handleProofPacket sizes waiting accepted

theorem MtuAccepted.signalled_lt (h : MtuAccepted c l signalled) {mtu : Nat}
    (hmtu : signalled = some mtu) : mtu < 2 ^ 21 := by
  cases h with
  | request => exact mtuAt_lt hmtu
  | proof => exact mtuAt_lt hmtu

/-- A proof goes out on a link whose MTU holds it. -/
theorem le_mtu_of_prove {pub proof : Bytes} (hsigns : ∀ message, (sign message).length = 64)
    (hid : l.linkId.length = 16) (hpub : l.pubBytes = some pub) (hlength : pub.length = 32)
    (h : proveWithIdentity sign l = .ok proof) : 118 ≤ l.mtu := by
  obtain ⟨signed, -, h⟩ := Results.bind_eq_ok.mp h
  obtain ⟨bytes, hbytes, h⟩ := Results.bind_eq_ok.mp h
  unfold packProof at h
  dsimp only at h
  split at h
  · cases h
  · rename_i hfits
    simp only [List.length_append, hsigns, hid, hpub, Option.getD_some, hlength,
      length_signallingBytes hbytes] at hfits
    omega

/-- A destination that accepts a request has sent a proof of 118 bytes. -/
theorem le_mtu_of_validateRequest {owner : DestinationKey} {prv : Bytes.Block 32}
    {placeholder proof : Bytes} {now : Nat} (hsigns : ∀ message, (sign message).length = 64)
    (h : validateRequest c owner sign packet prv placeholder now = .ok (l, proof)) :
    118 ≤ l.mtu := by
  cases owner with
  | key publicKey =>
      obtain ⟨-, -, length, -, hprove, rfl⟩ := validateRequest_eq h
      exact le_mtu_of_prove hsigns (linkIdFromLrPacket c packet).2 rfl (c.publicKey prv.1).2 hprove
  | _ =>
      unfold validateRequest at h
      split at h <;> cases h

/-- What `mtu_sound_iff` says of a link that has accepted a request or a proof. -/
theorem mtuSound_iff_le (hpads : c.Pads) (hsizes : SizesOf l signalled)
    (hsmall : ∀ mtu, signalled = some mtu → mtu < 2 ^ 21) :
    MtuSound c l ↔ ∀ mtu, signalled = some mtu → 84 ≤ mtu := by
  constructor
  · rintro hsound mtu rfl
    have hfits := hsound.fits
    rw [hsizes.mtu] at hfits
    exact (updateMduFits_iff mtu).mp hfits
  · intro hlow
    have hrange : 84 ≤ l.mtu ∧ l.mtu < 2 ^ 64 := by
      rw [hsizes.mtu]
      cases signalled with
      | none => decide
      | some mtu =>
          have hlt := hsmall mtu rfl
          rw [Option.getD_some]
          exact ⟨hlow mtu rfl, by omega⟩
    apply mtuSound_of_mdu hpads hrange.1
    rw [hsizes.mdu]
    exact wrappedMdu_eq hrange.1 hrange.2

/-- For every link that has accepted a request or a proof, the arithmetic on its MTU is sound if
and only if the MTU that was signalled, if any, is at least 84; at a destination it always is. -/
theorem mtu_sound_iff (c : Crypto) (hpads : c.Pads) {l : Link} {signalled : Option Nat}
    (h : MtuAccepted c l signalled) :
    (MtuSound c l ↔ ∀ mtu, signalled = some mtu → 84 ≤ mtu) ∧
      (l.initiator = false → MtuSound c l) := by
  have hiff := mtuSound_iff_le hpads h.sizes fun _ => h.signalled_lt
  refine ⟨hiff, fun hdestination => hiff.mpr ?_⟩
  cases h with
  | request signs accepted =>
      intro mtu hmtu
      have hle := le_mtu_of_validateRequest signs accepted
      rw [(sizesOf_validateRequest accepted).mtu, hmtu, Option.getD_some] at hle
      omega
  | proof sizes waiting accepted =>
      rw [frame_handleProofPacket.initiator, (initiator_of_activated waiting accepted).2]
        at hdestination
      cases hdestination

/-! ## A proof that signals an MTU -/

/-- What the destination of the sample signs with the signalled MTU. -/
def mtuSigned (high low : UInt8) : Bytes :=
  (sampleInitiator []).linkId ++ (pad 32 [4]).1 ++ List.replicate 32 7 ++ [0x20, high, low]

/-- The signature of the sample is valid for it alone. -/
def mtuCrypto (high low : UInt8) : Crypto :=
  { Resource.paddingCrypto with verify := (sampleCrypto [mtuSigned high low]).verify }

/-- The proof with the signalled MTU. -/
def mtuProof (high low : UInt8) : Packet :=
  { sampleProof (pad 64 []) with
    data := List.replicate 64 1 ++ (pad 32 [4]).1 ++ [0x20, high, low] }

theorem mtuAccepted_proof {high low : UInt8}
    (haccepted : (handleProofPacket (mtuCrypto high low) (sampleInitiator [])
      (mtuProof high low) sampleReadings).2.state = .active) :
    MtuAccepted (mtuCrypto high low) (handleProofPacket (mtuCrypto high low) (sampleInitiator [])
      (mtuProof high low) sampleReadings).2 (mtuFromLpPacket (mtuProof high low).data) :=
  .proof ((defaultSizes_new _ _ _ _ _).initiatePrepare _ _ _ _ _) rfl haccepted

/-- A proof that signals 500 bytes. -/
theorem mtu_sound_iff_proof : MtuSound (mtuCrypto 0x01 0xF4)
    (handleProofPacket (mtuCrypto 0x01 0xF4) (sampleInitiator []) (mtuProof 0x01 0xF4)
      sampleReadings).2 := by
  have hpads : (mtuCrypto 0x01 0xF4).Pads := Resource.paddingCrypto_pads
  refine (mtu_sound_iff _ hpads (mtuAccepted_proof (by decide))).1.mpr ?_
  intro mtu hsignalled
  obtain rfl : 500 = mtu := Option.some.inj hsignalled
  decide

/-- A proof that signals an MTU of zero is accepted. -/
theorem mtu_sound_false : ¬∀ (c : Crypto), c.Pads → ∀ (l : Link) (signalled : Option Nat),
    MtuAccepted c l signalled → MtuSound c l := by
  intro h
  have hsound := h (mtuCrypto 0 0) Resource.paddingCrypto_pads _ _ (mtuAccepted_proof (by decide))
  exact absurd hsound.fits.ifac (by decide)

end Reticulum.Link
