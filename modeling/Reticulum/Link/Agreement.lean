import Reticulum.Lib.Runs
import Reticulum.Link.Rejection

/-!
# Agreement of the two ends of a link

When a proof moves the initiator to ACTIVE, the responder that signed it holds
the same link id, mode, MTU and key, whatever the request and the proof went
through on their way. The link id ties the proof to the initiator's key, the
signature ties it to the responder's key and to the signalling bytes.

## Implementation notes

What is assumed of the cryptography: Diffie-Hellman commutes, a signature that
validates was made over exactly that message, and the link ids of different
requests differ. The identity signs other things than link proofs; their
lengths tell them apart, except a LINKIDENTIFY, which a holder of the identity
signs on links of its own.
-/

namespace Reticulum.Link

open Runs

/-- What the identity of a destination signs. -/
inductive Signing
  /-- `prove_with_identity` of a responder's link, made from a request -/
  | linkProof (request : Packet) (responder : Link)
  /-- `identify` on an outbound link that is ACTIVE -/
  | identify (linkId : Bytes.Block 16) (publicKey : Bytes.Block 64)
  /-- packet hashes, announces, ratchets -/
  | other (message : Bytes)

/-- The message that a signing puts under a signature. -/
def Signing.Signs : Signing → Bytes → Prop
  | .linkProof _ responder, message => proofSignedData responder = .ok message
  | .identify linkId publicKey, message => message = linkId.1 ++ publicKey.1
  | .other signed, message => message = signed

/-- A responder's link: the identity with `publicKey` made it from a packet
that came in. -/
def Responds (c : Crypto) (publicKey : Bytes) (packet : Packet) (responder : Link) : Prop :=
  ∃ raw sign prv placeholder now proof, Packet.unpack raw = some packet ∧
    validateRequest c (.key publicKey) sign packet prv placeholder now = .ok (responder, proof)

/-- What is known of the signatures of an identity, for an initiator that sent
`request`. -/
structure Honest (c : Crypto) (publicKey : Bytes) (request : Packet) (signings : Set Signing) :
    Prop where
  /-- a valid signature was made over exactly that message -/
  made : ∀ signature message, validate c publicKey signature message = true →
    ∃ s ∈ signings, s.Signs message
  /-- link proofs that go out are signed by responders -/
  responds : ∀ packet responder, .linkProof packet responder ∈ signings →
    Responds c publicKey packet responder
  /-- a request that has the initiator's link id is the initiator's -/
  noCollision : ∀ packet responder, .linkProof packet responder ∈ signings →
    linkIdFromLrPacket c packet = linkIdFromLrPacket c request →
    linkIdPart packet = linkIdPart request
  /-- nobody identifies on a link that is not active yet -/
  identify : ∀ linkId key, .identify linkId key ∈ signings →
    linkId ≠ linkIdFromLrPacket c request
  /-- other messages are no link proofs -/
  other : ∀ message, .other message ∈ signings → message.length ≠ 80 ∧ message.length ≠ 83

/-! ## The request -/

variable {c : Crypto} {m : Msgpack} {l : Link} {r : Readings} {packet request : Packet}

/-- The data of a packet is the end of its hashable part. -/
def Framed (p : Packet) : Prop := ∃ header, p.getHashablePart = header ++ p.data

theorem framed_of_unpack {raw : Bytes} (h : Packet.unpack raw = some packet) : Framed packet := by
  unfold Packet.unpack at h
  split at h
  swap
  · cases h
  rename_i flags hops rest
  split at h
  · cases h
  dsimp only at h
  split at h
  · cases h
  split at h
  · cases h
  · cases h
  rename_i context data _ hdata
  obtain rfl := Option.some.inj h
  by_cases hheader : flags.toNat / 64 % 2 = 1
  · rw [if_pos hheader] at hdata
    refine ⟨(flags &&& 0x0F) :: (rest.drop 16).take 16 ++ [context], ?_⟩
    have hsplit := List.take_append_drop 16 (rest.drop 16)
    simp only [Packet.hashLength] at hdata
    rw [hdata] at hsplit
    simp only [Packet.getHashablePart, hheader, decide_true, if_true, Packet.hashLength,
      List.drop_succ_cons]
    simp [hsplit]
  · rw [if_neg hheader] at hdata
    refine ⟨(flags &&& 0x0F) :: rest.take 16 ++ [context], ?_⟩
    have hsplit := List.take_append_drop 16 rest
    simp only [Packet.hashLength] at hdata
    rw [hdata] at hsplit
    simp only [Packet.getHashablePart, hheader, decide_false, List.drop_succ_cons]
    simp [hsplit]

/-- The link id covers the two keys of a request and no signalling bytes. -/
theorem linkIdPart_of_framed {header : Bytes}
    (hframed : packet.getHashablePart = header ++ packet.data) :
    linkIdPart packet = header ++ packet.data.take ecPubSize := by
  unfold linkIdPart
  rw [hframed]
  split
  · have hle : (header ++ packet.data).length - (packet.data.length - ecPubSize) =
        header.length + ecPubSize := by
      rw [List.length_append]
      omega
    rw [hle, List.take_length_add_append]
  · rename_i hshort
    have heq : packet.data.length ≤ ecPubSize := by
      simp only [List.length_append] at hshort
      omega
    rw [List.take_of_length_le heq]

/-- Requests with the same hashed part carry the same keys. -/
theorem keys_of_linkIdPart (hpacket : Framed packet) (hrequest : Framed request)
    (hlength : ecPubSize ≤ packet.data.length) (hlength' : ecPubSize ≤ request.data.length)
    (h : linkIdPart packet = linkIdPart request) :
    packet.data.take ecPubSize = request.data.take ecPubSize := by
  obtain ⟨header, hheader⟩ := hpacket
  obtain ⟨header', hheader'⟩ := hrequest
  rw [linkIdPart_of_framed hheader, linkIdPart_of_framed hheader'] at h
  apply List.append_inj_right' h
  simp only [List.length_take]
  omega

/-! ## The responder -/

variable {publicKey : Bytes} {prv : Bytes.Block 32} {responder : Link}

/-- The link of a request is the requested one after the key exchange. -/
theorem validateRequest_eq {publicKey placeholder proof : Bytes}
    {sign : Bytes → Bytes} {now : Nat}
    (h : validateRequest c (.key publicKey) sign packet prv placeholder now =
      .ok (responder, proof)) :
    ecPubSize ≤ packet.data.length ∧ publicKey.length = 64 ∧
    ∃ length, derivedKeyLength (modeFromLrPacket packet.data) = some length ∧
      proveWithIdentity sign (exchanged c (requestedLink c publicKey packet prv placeholder now)
        prv.1 (packet.data.take 32) length) = .ok proof ∧
      responder = { exchanged c (requestedLink c publicKey packet prv placeholder now) prv.1
        (packet.data.take 32) length with lastProof := now, lastInbound := now } := by
  unfold validateRequest at h
  split at h
  · cases h
  rename_i hlength
  have hle : ecPubSize ≤ packet.data.length := by
    simp only [ecPubSize, linkMtuSize] at hlength ⊢
    omega
  dsimp only at h
  split at h
  · cases h
  rename_i hkey
  have hpeer : (packet.data.take 32).length = 32 := by
    simp only [ecPubSize] at hle
    rw [List.length_take]
    omega
  rcases handshake_cases (c := c) (l := requestedLink c publicKey packet prv placeholder now)
      rfl rfl hpeer with ⟨hnone, -⟩ | ⟨e, l', he, -⟩ | ⟨prv', length, hprv, -, hmode, he⟩
  · cases hnone
  · rw [he] at h
    cases h
  · obtain rfl := Option.some.inj hprv
    rw [he] at h
    dsimp only at h
    cases hproof : proveWithIdentity sign (exchanged c
        (requestedLink c publicKey packet prv placeholder now) prv.1 (packet.data.take 32)
        length) with
    | error e =>
        rw [hproof] at h
        cases h
    | ok proof' =>
        rw [hproof] at h
        obtain ⟨rfl, rfl⟩ := Prod.mk.inj (Except.ok.inj h)
        exact ⟨hle, not_not.mp hkey, length, hmode, hproof, rfl⟩

/-- What the link of a request holds. -/
abbrev HoldsKeys (c : Crypto) (publicKey : Bytes) (packet : Packet) (prv : Bytes.Block 32)
    (responder : Link) : Prop :=
  ∃ length,
    responder.linkId = (linkIdFromLrPacket c packet).1 ∧ responder.mtu < 2 ^ 21 ∧
    responder.pubBytes = some (c.publicKey prv.1).1 ∧
    responder.sigPubBytes = some (publicKey.drop 32) ∧
    derivedKeyLength responder.mode = some length ∧
    responder.derivedKey = some (c.hkdf responder.linkId
      (c.diffieHellman prv.1 (packet.data.take 32)).1 length).1

theorem validateRequest_fields {publicKey placeholder proof : Bytes}
    {sign : Bytes → Bytes} {now : Nat}
    (h : validateRequest c (.key publicKey) sign packet prv placeholder now =
      .ok (responder, proof)) :
    ecPubSize ≤ packet.data.length ∧ publicKey.length = 64 ∧
      HoldsKeys c publicKey packet prv responder := by
  obtain ⟨hle, hkey, length, hmode, -, rfl⟩ := validateRequest_eq h
  have hmtu : (requestedLink c publicKey packet prv placeholder now).mtu < 2 ^ 21 := by
    show (mtuFromLrPacket packet.data).getD defaultMtu < 2 ^ 21
    cases hread : mtuFromLrPacket packet.data with
    | none => decide
    | some mtu => exact mtuAt_lt hread
  exact ⟨hle, hkey, length, rfl, hmtu, rfl, rfl, hmode, rfl⟩

theorem responds_fields (h : Responds c publicKey packet responder) :
    Framed packet ∧ ecPubSize ≤ packet.data.length ∧ publicKey.length = 64 ∧
      ∃ prv, HoldsKeys c publicKey packet prv responder := by
  obtain ⟨raw, sign, prv, placeholder, now, proof, hunpack, h⟩ := h
  obtain ⟨hlength, hkey, hfields⟩ := validateRequest_fields h
  exact ⟨framed_of_unpack hunpack, hlength, hkey, prv, hfields⟩

/-! ## The initiator -/

/-- A link that has sent `request`, until it is closed. -/
structure Requested (c : Crypto) (publicKey : Bytes) (prv : Bytes.Block 32) (request : Packet)
    (l : Link) : Prop where
  initiator : l.initiator = true
  linkId : l.linkId = (linkIdFromLrPacket c request).1
  destination : l.destination = .key publicKey
  keys : l.state = .closed ∨ l.prvBytes = some prv.1

/-- The request carries the initiator's key. -/
theorem initiatePrepare_requested {publicKey placeholder : Bytes} {mode destType : UInt8}
    {now : Nat} {prv sigPub : Bytes.Block 32} {destHash : Bytes.Block 16}
    (h : initiatePrepare c (new true (.key publicKey) mode placeholder now) prv sigPub destType
      destHash = (.ok request, l)) :
    Requested c publicKey prv request l ∧ Framed request ∧ ecPubSize ≤ request.data.length ∧
      request.data.take 32 = (c.publicKey prv.1).1 := by
  unfold initiatePrepare at h
  rw [if_neg (by simp [new])] at h
  dsimp only at h
  split at h
  · cases h
  · rename_i bytes hbytes
    obtain ⟨hrequest, rfl⟩ := Prod.mk.inj h
    obtain rfl := Except.ok.inj hrequest
    refine ⟨⟨rfl, rfl, rfl, .inr rfl⟩, ⟨(((destType <<< 2) ||| 2) &&& 0x0F) :: destHash.1 ++ [0], ?_⟩, ?_, ?_⟩
    · simp [Packet.getHashablePart]
    · simp [ecPubSize, (c.publicKey prv.1).2, sigPub.2]
      omega
    · simp [(c.publicKey prv.1).2]

/-- A packet changes neither the link id nor the keys of a link that it leaves
open. -/
theorem requested_receive {result : LinkResult} (h : Requested c publicKey prv request l)
    (hreceive : receive c m l packet r = some result) :
    Requested c publicKey prv request result.2 := by
  unfold receive at hreceive
  by_cases hclosed : l.state = .closed
  · rw [if_pos hclosed] at hreceive
    obtain rfl := Option.some.inj hreceive
    exact ⟨h.initiator, h.linkId, h.destination, .inl hclosed⟩
  · rw [if_neg hclosed] at hreceive
    obtain ⟨handled, hdispatch, rfl⟩ := Option.map_eq_some_iff.mp hreceive
    have hframe := frame_dispatch hdispatch
    obtain ⟨hlinkId, -, hinitiator, hdestination, -, hprv⟩ := frame_heard (l := l) r.now
    have hhandled : Requested c publicKey prv request handled.2 := by
      refine ⟨?_, ?_, ?_, ?_⟩
      · rw [hframe.initiator, hinitiator]
        exact h.initiator
      · rw [hframe.linkId, hlinkId]
        exact h.linkId
      · rw [hframe.destination, hdestination]
        exact h.destination
      · refine hframe.keys.imp id fun hkeys => ?_
        rw [hkeys, hprv]
        exact h.keys.resolve_left hclosed
    match handled, hhandled with
    | (.ok (), l'), hhandled =>
        exact ⟨hhandled.initiator, hhandled.linkId, hhandled.destination, hhandled.keys⟩
    | (.error e, l'), hhandled => exact hhandled

/-- The packets that reach the initiator, one after the other. -/
def receiveStep (c : Crypto) (m : Msgpack) (l : Link) (packet : Packet × Readings) : Option Link :=
  (receive c m l packet.1 packet.2).map Prod.snd

theorem requested_run {l' : Link} {packets : List (Packet × Readings)}
    (h : Requested c publicKey prv request l) (hrun : exec (receiveStep c m) l packets = some l') :
    Requested c publicKey prv request l' := by
  refine invariant_of_step ?_ h hrun
  intro s packet s' hs hstep
  obtain ⟨result, hreceive, rfl⟩ := Option.map_eq_some_iff.mp hstep
  exact requested_receive hs hreceive

/-- What the initiator expects to be signed, by the length of the proof. -/
theorem expectedSignedData_cases {data sigPub signed : Bytes} (hproof : proofLength data = true)
    (h : expectedSignedData l data sigPub = .ok signed) :
    (mtuFromLpPacket data = none ∧ signed = l.linkId ++ proofPub data ++ sigPub) ∨
    (∃ mtu bytes, mtuFromLpPacket data = some mtu ∧ mtu < 2 ^ 21 ∧
      data.drop (sigLength + ecPubSize / 2) = bytes ∧
      signallingBytes mtu (modeFromLpPacket data) = .ok bytes ∧
      signed = l.linkId ++ proofPub data ++ sigPub ++ bytes) := by
  unfold expectedSignedData at h
  have hlength := of_decide_eq_true hproof
  by_cases hlong : data.length = sigLength + ecPubSize / 2 + linkMtuSize
  · rw [if_pos hlong] at h
    obtain ⟨x, y, z, hdrop⟩ : ∃ x y z, data.drop (sigLength + ecPubSize / 2) = [x, y, z] := by
      apply List.length_eq_three.mp
      rw [List.length_drop, hlong]
      rfl
    have hmtu : mtuFromLpPacket data =
        some (((x.toNat <<< 16) + (y.toNat <<< 8) + z.toNat) &&& mtuBytemask) := by
      simp only [mtuFromLpPacket, mtuAt, hdrop]
    have hmode : modeFromLpPacket data = x >>> 5 := by
      simp only [modeFromLpPacket, hdrop]
    rw [hmtu, Option.getD_some] at h
    right
    cases hbytes : signallingBytes (((x.toNat <<< 16) + (y.toNat <<< 8) + z.toNat) &&& mtuBytemask)
        (modeFromLpPacket data) with
    | error e =>
        rw [hbytes] at h
        cases h
    | ok bytes =>
        rw [hbytes] at h
        obtain rfl := Except.ok.inj h
        have hsame : bytes = [x, y, z] := by
          have hmodes := mode_of_signallingBytes hbytes
          rw [hmode] at hbytes hmodes
          rw [signallingBytes_reencode hmodes] at hbytes
          exact (Except.ok.inj hbytes).symm
        refine ⟨_, bytes, hmtu, mtuAt_lt hmtu, hsame ▸ hdrop, hbytes, rfl⟩
  · rw [if_neg hlong] at h
    obtain rfl := Except.ok.inj h
    left
    refine ⟨?_, rfl⟩
    have hdrop : data.drop (sigLength + ecPubSize / 2) = [] := by
      apply List.drop_eq_nil_of_le
      exact (hlength.resolve_right hlong).le
    simp only [mtuFromLpPacket, mtuAt, hdrop]

theorem activate_fields {data : Bytes} {mtu : Nat} (hmtu : mtuFromLpPacket data = some mtu) :
    (activate l data r).linkId = l.linkId ∧ (activate l data r).mode = l.mode ∧
    (activate l data r).mtu = mtu ∧ (activate l data r).derivedKey = l.derivedKey := by
  unfold activate updateKeepalive
  simp only [hmtu]
  split <;> exact ⟨rfl, rfl, rfl, rfl⟩

theorem sendRtt_fields : (release (sendRtt c l r)).2.linkId = l.linkId ∧
    (release (sendRtt c l r)).2.mode = l.mode ∧ (release (sendRtt c l r)).2.mtu = l.mtu ∧
    (release (sendRtt c l r)).2.derivedKey = l.derivedKey := by
  unfold sendRtt
  split
  · split <;> exact ⟨rfl, rfl, rfl, rfl⟩
  · exact ⟨rfl, rfl, rfl, rfl⟩

/-- A proof that activates a waiting initiator was signed over the link id,
the key in it and its signalling bytes. -/
theorem activated_cases {result : LinkResult} (h : Requested c publicKey prv request l)
    (hstate : l.state = .pending) (htype : packet.packetType = .proof)
    (hreceive : receive c m l packet r = some result) (hactive : result.2.state = .active) :
    publicKey.length = 64 ∧ proofLength packet.data = true ∧
    modeFromLpPacket packet.data = l.mode ∧ (proofPub packet.data).length = 32 ∧
    ∃ length signed, derivedKeyLength l.mode = some length ∧
      expectedSignedData l packet.data (publicKey.drop 32) = .ok signed ∧
      validate c publicKey (packet.data.take sigLength) signed = true ∧
      ∀ mtu, mtuFromLpPacket packet.data = some mtu →
        result.2.linkId = l.linkId ∧ result.2.mode = l.mode ∧ result.2.mtu = mtu ∧
        result.2.derivedKey = some (c.hkdf l.linkId
          (c.diffieHellman prv.1 (proofPub packet.data)).1 length).1 := by
  have hclosed : l.state ≠ .closed := by
    rw [hstate]
    decide
  unfold receive dispatch at hreceive
  rw [if_neg hclosed, htype, heard_pending hstate] at hreceive
  obtain ⟨handled, hhandled, rfl⟩ := Option.map_eq_some_iff.mp hreceive
  obtain rfl := Option.some.inj hhandled
  rw [state_release] at hactive
  have hcontext : packet.context ≠ Packet.resourcePrf := by
    intro hcontext
    simp [handleProofPacket, hcontext, hstate] at hactive
  rcases handleProofPacket_cases (c := c) (r := r) (l := { l with
      watchdogLock := true, lastInbound := r.now }) h.initiator hstate hcontext with
    ⟨-, e, he⟩ | ⟨publicKey', hnot, hkey, ⟨-, e, he⟩ | ⟨e, l', he, hl', -⟩ |
      ⟨prv', length, signed, hprv, -, hlength, hsigned, hvalid, he⟩⟩
  · rw [he] at hactive
    exact absurd (hstate.symm.trans hactive) (by decide)
  · rw [he] at hactive
    exact absurd (hstate.symm.trans hactive) (by decide)
  · rw [he] at hactive
    exact absurd (hl'.symm.trans hactive) (by decide)
  · have hkeyLength := length_of_destinationKey hkey
    obtain rfl : publicKey = publicKey' := by
      unfold destinationKey at hkey
      simp only [h.destination] at hkey
      split at hkey
      · cases hkey
      · exact Except.ok.inj hkey
    obtain rfl : prv.1 = prv' :=
      Option.some.inj ((h.keys.resolve_left hclosed).symm.trans hprv)
    have hproof : proofLength packet.data = true := by
      by_contra hproof
      exact hnot (.inl (by simpa using hproof))
    have hmode : modeFromLpPacket packet.data = l.mode := by
      by_contra hmode
      exact hnot (.inr (.inl hmode))
    refine ⟨hkeyLength, hproof, hmode, length_proofPub hproof, length, signed, hlength, hsigned,
      hvalid, ?_⟩
    intro mtu hmtu
    rw [he]
    obtain ⟨hlinkId₁, hmode₁, hmtu₁, hkey₁⟩ := sendRtt_fields (c := c) (r := r)
      (l := activate (exchanged c (withPeer { l with watchdogLock := true, lastInbound := r.now }
        (proofPub packet.data) (publicKey.drop 32)) prv.1 (proofPub packet.data) length)
        packet.data r)
    obtain ⟨hlinkId₂, hmode₂, hmtu₂, hkey₂⟩ := activate_fields (r := r) (l := exchanged c
      (withPeer { l with watchdogLock := true, lastInbound := r.now } (proofPub packet.data)
        (publicKey.drop 32)) prv.1 (proofPub packet.data) length) hmtu
    exact ⟨hlinkId₁.trans hlinkId₂, hmode₁.trans hmode₂, hmtu₁.trans hmtu₂, hkey₁.trans hkey₂⟩

/-! ## Agreement -/

/-- A link id, a key, a signing key and a tail are told apart in their
concatenation. -/
theorem signedData_inj {linkId linkId' pub pub' sigPub sigPub' tail tail' : Bytes}
    (hlinkId : linkId.length = linkId'.length) (hpub : pub.length = pub'.length)
    (hsigPub : sigPub.length = sigPub'.length)
    (h : linkId ++ pub ++ sigPub ++ tail = linkId' ++ pub' ++ sigPub' ++ tail') :
    linkId = linkId' ∧ pub = pub' ∧ tail = tail' := by
  obtain ⟨hkeys, htail⟩ := List.append_inj h (by simp only [List.length_append]; omega)
  obtain ⟨hkeys, -⟩ := List.append_inj hkeys (by simp only [List.length_append]; omega)
  obtain ⟨hlinkIds, hpubs⟩ := List.append_inj hkeys hlinkId
  exact ⟨hlinkIds, hpubs, htail⟩

/-- What a responder signs. -/
theorem proofSignedData_eq {pub sigPub signed : Bytes} (hpub : responder.pubBytes = some pub)
    (hsigPub : responder.sigPubBytes = some sigPub) (h : proofSignedData responder = .ok signed) :
    ∃ bytes, signallingBytes responder.mtu responder.mode = .ok bytes ∧
      signed = responder.linkId ++ pub ++ sigPub ++ bytes := by
  unfold proofSignedData at h
  cases hbytes : signallingBytes responder.mtu responder.mode with
  | error e =>
      rw [hbytes] at h
      cases h
  | ok bytes =>
      rw [hbytes] at h
      simp only [Except.bind, hpub, hsigPub] at h
      exact ⟨bytes, rfl, (Except.ok.inj h).symm⟩

/-- The signature of an accepted proof was made by a responder, over the
signalling bytes that the proof carries. -/
theorem signer_of_accepted {publicKey signed : Bytes} {signings : Set Signing}
    (hhonest : Honest c publicKey request signings) (h : Requested c publicKey prv request l)
    (hkey : publicKey.length = 64) (hproof : proofLength packet.data = true)
    (hpub : (proofPub packet.data).length = 32)
    (hsigned : expectedSignedData l packet.data (publicKey.drop 32) = .ok signed)
    (hvalid : validate c publicKey (packet.data.take sigLength) signed = true) :
    ∃ responder request' mtu, .linkProof request' responder ∈ signings ∧
      Responds c publicKey request' responder ∧ responder.linkId = l.linkId ∧
      responder.pubBytes = some (proofPub packet.data) ∧
      mtuFromLpPacket packet.data = some mtu ∧ responder.mtu = mtu ∧
      responder.mode = modeFromLpPacket packet.data ∧
      signallingBytes responder.mtu responder.mode =
        .ok (packet.data.drop (sigLength + ecPubSize / 2)) := by
  have hlinkId : l.linkId.length = 16 := by
    rw [h.linkId]
    exact (linkIdFromLrPacket c request).2
  have hsigPub : (publicKey.drop 32).length = 32 := by rw [List.length_drop, hkey]
  have hshort : (l.linkId ++ proofPub packet.data ++ publicKey.drop 32).length = 80 := by
    simp only [List.length_append, hlinkId, hpub, hsigPub]
  have hcases := expectedSignedData_cases hproof hsigned
  obtain ⟨s, hs, hsigns⟩ := hhonest.made _ _ hvalid
  cases s with
  | linkProof request' responder =>
      have hresponds := hhonest.responds request' responder hs
      obtain ⟨-, -, -, prv', length, hid, hmtu, hpub', hsigPub', -⟩ := responds_fields hresponds
      obtain ⟨bytes, hbytes, rfl⟩ := proofSignedData_eq hpub' hsigPub' hsigns
      have hlen := length_signallingBytes hbytes
      have hid' : responder.linkId.length = 16 := by
        rw [hid]
        exact (linkIdFromLrPacket c request').2
      rcases hcases with ⟨-, hsame⟩ | ⟨mtu, bytes', hmtu', hlt, hdrop, hbytes', hsame⟩
      · have hlong := congrArg List.length hsame
        rw [hshort] at hlong
        simp only [List.length_append, hid', (c.publicKey prv'.1).2, hsigPub, hlen] at hlong
        omega
      · obtain ⟨hids, hpubs, hbytess⟩ := signedData_inj (hid'.trans hlinkId.symm)
          ((c.publicKey prv'.1).2.trans hpub.symm) rfl hsame
        rw [← hbytess] at hbytes' hdrop
        obtain ⟨hmode, hmtus⟩ := signallingBytes_inj hbytes hbytes'
        rw [Nat.mod_eq_of_lt hmtu, Nat.mod_eq_of_lt hlt] at hmtus
        exact ⟨responder, request', mtu, hs, hresponds, hids, hpubs ▸ hpub', hmtu', hmtus, hmode,
          hdrop ▸ hbytes⟩
  | identify linkId key =>
      obtain rfl : signed = linkId.1 ++ key.1 := hsigns
      rcases hcases with ⟨-, hsame⟩ | ⟨mtu, bytes', -, -, -, hbytes', hsame⟩
      · rw [List.append_assoc] at hsame
        obtain ⟨hids, -⟩ := List.append_inj hsame (linkId.2.trans hlinkId.symm)
        rw [h.linkId] at hids
        exact (hhonest.identify linkId key hs (Subtype.ext hids)).elim
      · have hlong := congrArg List.length hsame
        rw [List.length_append, List.length_append, hshort, linkId.2, key.2,
          length_signallingBytes hbytes'] at hlong
        omega
  | other message =>
      obtain rfl : signed = message := hsigns
      obtain ⟨h80, h83⟩ := hhonest.other signed hs
      rcases hcases with ⟨-, rfl⟩ | ⟨mtu, bytes', -, -, -, hbytes', rfl⟩
      · exact (h80 hshort).elim
      · refine (h83 ?_).elim
        rw [List.length_append, hshort, length_signallingBytes hbytes']

/-- When a proof moves the initiator to ACTIVE, a responder that signed it
holds the same link id, mode, MTU and derived key, and the proof carries
exactly the key and the signalling bytes of that responder. -/
theorem handshake_agreement {publicKey placeholder : Bytes} {mode destType : UInt8} {now : Nat}
    {prv sigPub : Bytes.Block 32} {destHash : Bytes.Block 16} {initiator : Link}
    {signings : Set Signing} {earlier : List (Packet × Readings)} {result : LinkResult}
    (hdh : ∀ a b, c.diffieHellman a (c.publicKey b).1 = c.diffieHellman b (c.publicKey a).1)
    (hprepare : initiatePrepare c (new true (.key publicKey) mode placeholder now) prv sigPub
      destType destHash = (.ok request, initiator))
    (hhonest : Honest c publicKey request signings)
    (hrun : exec (receiveStep c m) initiator earlier = some l) (hstate : l.state = .pending)
    (htype : packet.packetType = .proof) (hreceive : receive c m l packet r = some result)
    (hactive : result.2.state = .active) :
    ∃ request' responder, .linkProof request' responder ∈ signings ∧
      responder.linkId = result.2.linkId ∧
      responder.mode = result.2.mode ∧ responder.mtu = result.2.mtu ∧
      responder.derivedKey = result.2.derivedKey ∧ result.2.derivedKey ≠ none ∧
      responder.pubBytes = some (proofPub packet.data) ∧
      signallingBytes responder.mtu responder.mode =
        .ok (packet.data.drop (sigLength + ecPubSize / 2)) := by
  obtain ⟨hrequested, hframed, hlength, hkey⟩ := initiatePrepare_requested hprepare
  have hl := requested_run hrequested hrun
  obtain ⟨hpublic, hproof, hmode, hpub, length, signed, hkeyLength, hsigned, hvalid, hfields⟩ :=
    activated_cases hl hstate htype hreceive hactive
  obtain ⟨responder, request', mtu, hmem, hresponds, hids, hpubs, hmtu, hmtus, hmodes, hbytes⟩ :=
    signer_of_accepted hhonest hl hpublic hproof hpub hsigned hvalid
  obtain ⟨hlinkId', hmode', hmtu', hderived⟩ := hfields mtu hmtu
  obtain ⟨hframed', hlength', -, prv', length', hid, -, hpub', -, hkeyLength', hderived'⟩ :=
    responds_fields hresponds
  have hmodes' : responder.mode = l.mode := hmodes.trans hmode
  refine ⟨request', responder, hmem, hids.trans hlinkId'.symm, hmodes'.trans hmode'.symm,
    hmtus.trans hmtu'.symm, ?_, by simp [hderived], hpubs, hbytes⟩
  have hrequest : linkIdFromLrPacket c request' = linkIdFromLrPacket c request := by
    apply Subtype.ext
    rw [← hid, hids, hl.linkId]
  have hkeys := keys_of_linkIdPart hframed' hframed hlength' hlength
    (hhonest.noCollision request' responder hmem hrequest)
  have hpeer : request'.data.take 32 = (c.publicKey prv.1).1 := by
    rw [← hkey]
    have htake := congrArg (List.take 32) hkeys
    simpa [List.take_take, ecPubSize] using htake
  have hown : proofPub packet.data = (c.publicKey prv'.1).1 :=
    Option.some.inj (hpubs.symm.trans hpub')
  obtain rfl : length' = length := by
    rw [hmodes', hkeyLength] at hkeyLength'
    exact (Option.some.inj hkeyLength').symm
  rw [hderived, hderived', hids, hpeer, hown, hdh prv'.1 prv.1]

theorem pad_pad (n : Nat) (b : Bytes) : pad n (pad n b).1 = pad n b := by
  apply Subtype.ext
  exact List.take_left' (pad n b).2

/-- The request of the sample initiator. -/
def sampleRequest (signed : List Bytes) : Packet :=
  ((initiatePrepare (sampleCrypto signed)
    (new true (.key (List.replicate 64 7)) modeDefault [] 0) (pad 32 [1]) (pad 32 [2]) 0
    (pad 16 [3])).1.toOption).getD (sampleProof (pad 64 []))

/-- The responder of the sample request, with the ephemeral key 4. -/
def sampleAnswer : Link :=
  exchanged (sampleCrypto [sampleSigned])
    (requestedLink (sampleCrypto [sampleSigned]) (List.replicate 64 7)
      (sampleRequest [sampleSigned]) (pad 32 [4]) [] 0) (pad 32 [4]).1 (pad 32 [1]).1 64

/-- The initiator of the sample accepts the genuine proof, and agrees with the
responder that signed it. -/
theorem handshake_agreement_genuine : ∃ result,
    receive (sampleCrypto [sampleSigned]) sampleMsgpack (sampleInitiator [sampleSigned])
      (sampleProof (pad 64 (List.replicate 64 1))) sampleReadings = some result ∧
    result.2.state = .active ∧
    ∃ request' responder, Signing.linkProof request' responder ∈
        ({.linkProof (sampleRequest [sampleSigned]) sampleAnswer} : Set Signing) ∧
      responder.linkId = result.2.linkId ∧ responder.mode = result.2.mode ∧
      responder.mtu = result.2.mtu ∧ responder.derivedKey = result.2.derivedKey := by
  have hhonest : Honest (sampleCrypto [sampleSigned]) (List.replicate 64 7)
      (sampleRequest [sampleSigned])
      {.linkProof (sampleRequest [sampleSigned]) sampleAnswer} := by
    constructor
    · intro signature message hvalid
      obtain rfl : message = sampleSigned := by
        simp only [validate, sampleCrypto, List.mem_singleton, decide_eq_true_eq] at hvalid
        exact hvalid.2.2
      exact ⟨_, rfl, rfl⟩
    · rintro packet responder ⟨⟩
      exact ⟨(sampleRequest [sampleSigned]).raw, fun _ => List.replicate 64 1, pad 32 [4], [], 0,
        _, rfl, rfl⟩
    · rintro packet responder ⟨⟩ _
      rfl
    · rintro linkId key ⟨⟩
    · rintro message ⟨⟩
  have hdh : ∀ a b, (sampleCrypto [sampleSigned]).diffieHellman a
      ((sampleCrypto [sampleSigned]).publicKey b).1 =
      (sampleCrypto [sampleSigned]).diffieHellman b
        ((sampleCrypto [sampleSigned]).publicKey a).1 := by
    intro a b
    show pad 32 (List.zipWith (· + ·) (pad 32 a).1 (pad 32 (pad 32 b).1).1) =
      pad 32 (List.zipWith (· + ·) (pad 32 b).1 (pad 32 (pad 32 a).1).1)
    rw [pad_pad, pad_pad, List.zipWith_comm]
    simp only [UInt8.add_comm]
  have hprepare : initiatePrepare (sampleCrypto [sampleSigned])
      (new true (.key (List.replicate 64 7)) modeDefault [] 0) (pad 32 [1]) (pad 32 [2]) 0
      (pad 16 [3]) = (.ok (sampleRequest [sampleSigned]), sampleInitiator [sampleSigned]) := rfl
  have hrun : exec (receiveStep (sampleCrypto [sampleSigned]) sampleMsgpack)
      (sampleInitiator [sampleSigned]) [] = some (sampleInitiator [sampleSigned]) := rfl
  obtain ⟨result, hreceive, hactive⟩ : ∃ result,
      receive (sampleCrypto [sampleSigned]) sampleMsgpack (sampleInitiator [sampleSigned])
        (sampleProof (pad 64 (List.replicate 64 1))) sampleReadings = some result ∧
      result.2.state = .active := ⟨_, rfl, rfl⟩
  refine ⟨result, hreceive, hactive, ?_⟩
  obtain ⟨request', responder, hmem, hid, hmode, hmtu, hkey, -⟩ :=
    handshake_agreement hdh hprepare hhonest hrun rfl rfl hreceive hactive
  exact ⟨request', responder, hmem, hid, hmode, hmtu, hkey⟩

end Reticulum.Link
