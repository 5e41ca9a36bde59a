import Reticulum.Link.Rejection
import Reticulum.Transport.Inbound

/-!
# Only valid announces change the routes

An announce that `Identity::validate_announce` refuses should leave no trace in
the routing tables. It leaves none when it is validated at all: announces with
less than a public key of data, and those whose hash was validated before, are
taken as valid without it.
-/

namespace Reticulum.Transport

/-- The tables that routing rests on, and what is known of one destination, are
the same. -/
structure SameRouting (destinationHash : Bytes) (s s' : TransportState) : Prop where
  pathTable : s'.pathTable = s.pathTable
  pathRandomBlobs : s'.pathRandomBlobs = s.pathRandomBlobs
  announceTable : s'.announceTable = s.announceTable
  tunnels : s'.tunnels = s.tunnels
  discoveryPathRequests : s'.discoveryPathRequests = s.discoveryPathRequests
  pathVerified : s'.pathVerifiedThisSession = s.pathVerifiedThisSession
  known : s'.knownDestinations destinationHash = s.knownDestinations destinationHash
  ratchet : s'.knownRatchets destinationHash = s.knownRatchets destinationHash

/-- No announce handler runs and no frame is sent. The handlers of the two control
destinations may do either. -/
def Silent : Outcome → Prop
  | .dropped => True
  | .control aspects _ => aspects ≠ ["path", "request"] ∧ aspects ≠ ["tunnel", "synthesize"]
  | .cached _ => False
  | .processed effects =>
      effects.outbound = [] ∧ effects.announceCallbacks = [] ∧ effects.interfaceAnnounce = none

/-- The frame leaves the routing alone. -/
def Untouched (c : Crypto) (s : TransportState) (r : Reading) (raw : Bytes)
    (receivingInterface : Option String) (destinationHash : Bytes) : Prop :=
  Silent (inbound c s r raw receivingInterface).1 ∧
    SameRouting destinationHash s (inbound c s r raw receivingInterface).2

/-- The announce has the interface-access flag, is ignored, refused by the filter,
for a control destination without a handler, or it is validated: it has a public key
of data and its hash was not validated before. -/
def Guarded (c : Crypto) (s : TransportState) (r : Reading) (p : Wire.Packet) : Prop :=
  p.flags &&& 0x80 = 0x80 ∨ ignoredAnnounce s p = true ∨ (admitPacket s r p).1 = false ∨
    match controlAspects s p with
    | some aspects => aspects ≠ ["path", "request"] ∧ aspects ≠ ["tunnel", "synthesize"]
    | none => cachedPacket c s p = none ∧ keyLen ≤ p.data.length ∧ alreadyValidated s p = false

namespace SameRouting

variable {destinationHash : Bytes} {s s' s'' : TransportState} {r : Reading} {p : Wire.Packet}

theorem trans (h : SameRouting destinationHash s s') (h' : SameRouting destinationHash s' s'') :
    SameRouting destinationHash s s'' where
  pathTable := h'.pathTable.trans h.pathTable
  pathRandomBlobs := h'.pathRandomBlobs.trans h.pathRandomBlobs
  announceTable := h'.announceTable.trans h.announceTable
  tunnels := h'.tunnels.trans h.tunnels
  discoveryPathRequests := h'.discoveryPathRequests.trans h.discoveryPathRequests
  pathVerified := h'.pathVerified.trans h.pathVerified
  known := h'.known.trans h.known
  ratchet := h'.ratchet.trans h.ratchet

theorem refl : SameRouting destinationHash s s := by
  constructor <;> rfl

theorem noteInbound (receivingInterface : Option String) :
    SameRouting destinationHash s (noteInbound s r receivingInterface) := by
  constructor <;> rfl

theorem admitPacket : SameRouting destinationHash s (admitPacket s r p).2 := by
  unfold Transport.admitPacket limitAnnounces
  split
  · split
    · split
      · exact refl
      · constructor <;> rfl
    · exact refl
  · exact refl

theorem rememberPacketHash : SameRouting destinationHash s (rememberPacketHash s p) := by
  obtain ⟨hashlist, heq⟩ := rememberPacketHash_eq s p
  rw [heq]
  constructor <;> rfl

end SameRouting

section Invalid

variable {c : Crypto} {s : TransportState} {r : Reading} {p : Wire.Packet}
  {destinationHash : Bytes}

theorem sameRouting_admitted : SameRouting destinationHash s (admitted s r p) :=
  (SameRouting.noteInbound p.receivingInterface).trans SameRouting.admitPacket

/-- An announce that fails its validation ends there. -/
theorem inboundAnnounce_of_validated (hinvalid : validAnnounce c p = false)
    (hlength : keyLen ≤ p.data.length) (hfresh : alreadyValidated s p = false) :
    inboundAnnounce c s r p = (Effects.none, rememberPacketHash s p) := by
  simp [inboundAnnounce, announceShouldAdd, noteValidated, hinvalid, hlength, hfresh]

/-- A frame under guard leaves the routing alone. -/
theorem untouched_of_guarded {raw : Bytes} {receivingInterface : Option String}
    (hframe : (Wire.Packet.holding raw receivingInterface).unpack c = some p)
    (htype : p.packetType = Wire.announce) (hinvalid : validAnnounce c p = false)
    (hguarded : Guarded c s r p) :
    Untouched c s r raw receivingInterface destinationHash := by
  obtain ⟨table, hadmitted⟩ := admitted_eq s r p
  have hread := readFrame_of_unpack hframe
  unfold Untouched
  by_cases hflag : p.flags &&& 0x80 = 0x80
  · rw [if_pos hflag] at hread
    unfold inbound
    rw [hread]
    exact ⟨trivial, SameRouting.refl⟩
  rw [if_neg hflag] at hread
  rw [inbound_eq hread]
  by_cases hignored : ignoredAnnounce s p = true
  · rw [if_pos hignored]
    exact ⟨trivial, SameRouting.noteInbound _⟩
  rw [if_neg hignored]
  by_cases hrefused : (admitPacket s r p).1 = false
  · rw [if_pos hrefused]
    exact ⟨trivial, sameRouting_admitted⟩
  rw [if_neg hrefused]
  have hrest := ((hguarded.resolve_left hflag).resolve_left hignored).resolve_left hrefused
  cases hcontrol : controlAspects s p with
  | some aspects =>
      rw [hcontrol] at hrest
      exact ⟨hrest, sameRouting_admitted⟩
  | none =>
      rw [hcontrol] at hrest
      obtain ⟨hcached, hlength, hfresh⟩ := hrest
      have hfresh' : alreadyValidated (admitted s r p) (hopped p) = false := by
        rw [hadmitted]
        exact hfresh
      simp only [hcached, if_pos htype]
      rw [inboundAnnounce_of_validated (p := hopped p) hinvalid hlength hfresh']
      exact ⟨⟨rfl, rfl, rfl⟩, sameRouting_admitted.trans SameRouting.rememberPacketHash⟩

/-- Processing an announce marks the destination as verified, unless it is a
destination of this node. -/
theorem mem_verified_of_processAnnounce (hdest : p.destinationHash = some destinationHash)
    (hremote : destinationHash ∉ s.destinations) :
    destinationHash ∈ (processAnnounce s r p).1.pathVerifiedThisSession := by
  obtain ⟨table, ⟨hlocal, -⟩ | ⟨hash, requests, pacing, pending, hhash, heq⟩⟩ :=
    processAnnounce_cases s r p
  · exact absurd (hlocal destinationHash hdest) hremote
  · obtain rfl : destinationHash = hash := Option.some.inj (hdest.symm.trans hhash)
    rw [heq]
    exact List.mem_insert_self

theorem destinations_before_processing :
    (rememberPacketHash (rememberAnnounce c (noteValidated c s p) r p) p).destinations =
      s.destinations := by
  have hnote : (noteValidated c s p).destinations = s.destinations := by
    unfold noteValidated
    split <;> rfl
  obtain ⟨known, ratchets, hremember⟩ := rememberAnnounce_eq c (noteValidated c s p) r p
  obtain ⟨hashlist, hhash⟩ :=
    rememberPacketHash_eq (rememberAnnounce c (noteValidated c s p) r p) p
  rw [hhash, hremember]
  exact hnote

/-- A frame without guard is processed as if it were valid. -/
theorem not_untouched_of_not_guarded {raw : Bytes} {receivingInterface : Option String}
    (hframe : (Wire.Packet.holding raw receivingInterface).unpack c = some p)
    (htype : p.packetType = Wire.announce) (hdest : p.destinationHash = some destinationHash)
    (hcontrol : controlAspects s p = none) (hcached : cachedPacket c s p = none)
    (hremote : destinationHash ∉ s.destinations)
    (hunknown : destinationHash ∉ s.pathVerifiedThisSession) (hguarded : ¬ Guarded c s r p) :
    ¬ Untouched c s r raw receivingInterface destinationHash := by
  obtain ⟨table, hadmitted⟩ := admitted_eq s r p
  have hflag : ¬ p.flags &&& 0x80 = 0x80 := fun h => hguarded (.inl h)
  have hignored : ¬ ignoredAnnounce s p = true := fun h => hguarded (.inr (.inl h))
  have hpass : ¬ (admitPacket s r p).1 = false := fun h => hguarded (.inr (.inr (.inl h)))
  have hread := readFrame_of_unpack hframe
  rw [if_neg hflag] at hread
  have htaken : announceShouldAdd c (admitted s r p) (hopped p) = true := by
    have hvalidated : alreadyValidated (admitted s r p) (hopped p) = alreadyValidated s p := by
      rw [hadmitted]
      rfl
    have hskipped : keyLen ≤ p.data.length → alreadyValidated s p = true := by
      intro hlength
      by_contra hfresh
      refine hguarded (.inr (.inr (.inr ?_)))
      rw [hcontrol]
      exact ⟨hcached, hlength, Bool.eq_false_iff.mpr hfresh⟩
    unfold announceShouldAdd
    rw [hvalidated]
    split
    · rename_i hlength
      rw [hskipped hlength, Bool.true_or]
    · rfl
  have hremote' : destinationHash ∉ (admitted s r p).destinations := by
    rw [hadmitted]
    exact hremote
  rintro ⟨-, hsame⟩
  have hverified := hsame.pathVerified
  rw [inbound_eq hread, if_neg hignored, if_neg hpass] at hverified
  simp only [hcontrol, hcached, if_pos htype, inboundAnnounce, htaken, if_true] at hverified
  apply hunknown
  rw [← hverified]
  apply mem_verified_of_processAnnounce (p := hopped p) hdest
  rw [destinations_before_processing]
  exact hremote'

/-- An announce that is not valid leaves the routing alone when it is under guard.
When it is not, and is neither for a control destination nor a cache request, it
changes what is known of a destination of another node that was not verified in this
session. -/
theorem invalid_announce_untouched {raw : Bytes} {receivingInterface : Option String}
    (hframe : (Wire.Packet.holding raw receivingInterface).unpack c = some p)
    (htype : p.packetType = Wire.announce) (hdest : p.destinationHash = some destinationHash)
    (hinvalid : validAnnounce c p = false) :
    (Guarded c s r p → Untouched c s r raw receivingInterface destinationHash) ∧
      (¬ Guarded c s r p → controlAspects s p = none → cachedPacket c s p = none →
        destinationHash ∉ s.destinations → destinationHash ∉ s.pathVerifiedThisSession →
        ¬ Untouched c s r raw receivingInterface destinationHash) := by
  constructor
  · intro hguarded
    exact untouched_of_guarded hframe htype hinvalid hguarded
  · intro hguarded hcontrol hcached hremote hunknown
    exact not_untouched_of_not_guarded hframe htype hdest hcontrol hcached hremote hunknown
      hguarded

end Invalid

/-- An announce frame for the destination of sixteen zeros, with data of this
length. -/
def zeroAnnounce (length : Nat) : Bytes :=
  [0x01, 0x00] ++ List.replicate 16 0 ++ [0x00] ++ List.replicate length 7

/-- The packet of that frame. -/
def zeroPacket (length : Nat) : Wire.Packet :=
  let p := Wire.Packet.holding (zeroAnnounce length) none
  (p.unpack (Link.sampleCrypto [])).getD p

/-- An announce of 64 bytes is validated, and leaves the routing alone. -/
theorem invalid_announce_untouched_long :
    Untouched (Link.sampleCrypto []) .start .zero (zeroAnnounce 64) none
      (List.replicate 16 0) := by
  have hframe : (Wire.Packet.holding (zeroAnnounce 64) none).unpack (Link.sampleCrypto []) =
      some (zeroPacket 64) := rfl
  have hguarded : Guarded (Link.sampleCrypto []) .start .zero (zeroPacket 64) :=
    .inr (.inr (.inr ⟨rfl, by decide, rfl⟩))
  exact (invalid_announce_untouched hframe (by decide) rfl (by decide)).1 hguarded

/-- An announce of one byte is not validated, and its destination is taken as
verified. -/
theorem invalid_announce_untouched_false :
    ¬ ∀ (c : Crypto) (s : TransportState) (r : Reading) (p : Wire.Packet) (raw : Bytes)
        (receivingInterface : Option String) (destinationHash : Bytes),
      (Wire.Packet.holding raw receivingInterface).unpack c = some p → p.packetType = Wire.announce →
      p.destinationHash = some destinationHash → validAnnounce c p = false →
      Untouched c s r raw receivingInterface destinationHash := by
  intro hall
  have hframe : (Wire.Packet.holding (zeroAnnounce 1) none).unpack (Link.sampleCrypto []) =
      some (zeroPacket 1) := rfl
  have hguarded : ¬ Guarded (Link.sampleCrypto []) .start .zero (zeroPacket 1) := by
    rintro (hflag | hignored | hrefused | ⟨-, hlength, -⟩)
    · exact absurd hflag (by decide)
    · exact absurd hignored (by decide)
    · exact absurd hrefused (by decide +kernel)
    · exact absurd hlength (by decide)
  have hdest : (zeroPacket 1).destinationHash = some (List.replicate 16 0) := rfl
  have huntouched := hall _ .start .zero _ _ _ _ hframe (by decide) hdest (by decide)
  have hempty : List.replicate 16 0 ∉ ([] : List Bytes) := by simp
  exact not_untouched_of_not_guarded hframe (by decide) hdest rfl rfl hempty hempty hguarded
    huntouched

end Reticulum.Transport
