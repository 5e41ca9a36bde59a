import Reticulum.Link.Establish

/-!
# Receiving packets on a link

`Link::receive` takes the watchdog lock, dispatches the packet on its type and
context, and releases the lock. A handler that fails leaves the lock taken.
`receive_ok_iff` says for which packets no handler fails.

## Implementation notes

The handlers of resources, requests, responses and application packets change
none of the modelled fields; of them only the poisoned locks matter, which are
their one way to fail.
-/

namespace Reticulum.Link

/-- `link_closed`: the keys are dropped, and the application is told. -/
def linkClosed (l : Link) : Link :=
  { l with
    prvBytes := none, pubBytes := none, sigPubBytes := none, sharedKey := none
    derivedKey := none, closings := l.closings + 1 }

def teardown (l : Link) (now : Nat) : Link :=
  let l := if l.state ≠ .closed ∧ l.state ≠ .pending then hadOutbound l now false else l
  linkClosed { l with
    state := .closed, status := .closed
    teardownReason :=
      if l.teardownReason ≠ .timeout then
        if l.initiator then .initiatorClosed else .destinationClosed
      else l.teardownReason }

def teardownPacket (l : Link) (plaintext : Bytes) : Link :=
  if plaintext ≠ l.linkId then l
  else if l.state = .closed then l
  else linkClosed { l with
    state := .closed, status := .closed
    teardownReason := if l.initiator then .destinationClosed else .initiatorClosed }

def handleLrrttPacket (m : Msgpack) (l : Link) (plaintext : Bytes) (r : Readings) : LinkResult :=
  if l.initiator then (.ok (), l)
  else if ¬ m.isFloat plaintext then (.error "Invalid LRRTT payload", l)
  else
    (.ok (), updateKeepalive { l with
      rttKnown := true, status := .active, state := .active, activatedAt := some r.now } r)

/-- A LINKIDENTIFY plaintext holds a public key and its signature of the link
id and the key. -/
def identifies (c : Crypto) (linkId plaintext : Bytes) : Bool :=
  plaintext.length = 128 ∧ c.isVerifyingKey ((plaintext.take 64).drop 32) ∧
    validate c (plaintext.take 64) (plaintext.drop 64) (linkId ++ plaintext.take 64)

def handleLinkidentifyPacket (c : Crypto) (l : Link) (plaintext : Bytes) : LinkResult :=
  if plaintext.length ≠ 128 then (.error "Invalid LINKIDENTIFY packet length", l)
  else if ¬ c.isVerifyingKey ((plaintext.take 64).drop 32) then
    (.error "Failed to create identity from public key: Invalid Ed25519 public key", l)
  else if validate c (plaintext.take 64) (plaintext.drop 64) (l.linkId ++ plaintext.take 64) then
    (.ok (), if l.remoteIdentity.isSome then l
      else { l with remoteIdentity := some (plaintext.take 64) })
  else (.error "LINKIDENTIFY signature validation failed", l)

def handleRequestPacket (m : Msgpack) (l : Link) (plaintext : Bytes) : LinkResult :=
  if m.isRequest plaintext ∧ l.destination = .poisoned then
    (.error "Destination lock poisoned", l)
  else (.ok (), l)

def handleResponsePacket (m : Msgpack) (l : Link) (plaintext : Bytes) : LinkResult :=
  if m.isResponse plaintext ∧ l.pendingRequestsPoisoned then
    (.error "Pending request lock poisoned", l)
  else (.ok (), l)

/-- The pong to a keepalive. -/
def pong (l : Link) (packet : Packet) (r : Readings) : Link :=
  if ¬ l.initiator ∧ packet.data = [0xFF] ∧ l.lastOutbound + r.pongPeriod ≤ r.now ∧
      l.destination ≠ .poisoned then
    hadOutbound l r.now true
  else l

/-- `handle_data_packet` after the packet was decrypted. -/
def handlePlaintext (c : Crypto) (m : Msgpack) (l : Link) (context : UInt8) (plaintext : Bytes)
    (r : Readings) : LinkResult :=
  if context = Packet.resourceAdv then
    (.ok (), if m.isAdvertisement plaintext then l else teardown l r.now)
  else if context = Packet.lrrtt then handleLrrttPacket m l plaintext r
  else if context = Packet.request then handleRequestPacket m l plaintext
  else if context = Packet.response then handleResponsePacket m l plaintext
  else if context = Packet.linkIdentify then handleLinkidentifyPacket c l plaintext
  else if context = Packet.linkClose then (.ok (), teardownPacket l plaintext)
  else (.ok (), l)

/-- `handle_data_packet`. A packet that does not decrypt is dropped. -/
def handleDataPacket (c : Crypto) (m : Msgpack) (l : Link) (packet : Packet) (r : Readings) :
    Option LinkResult :=
  if packet.context = Packet.resource then some (.ok (), l)
  else if packet.context = Packet.keepalive then some (.ok (), pong l packet r)
  else
    match decrypt c l packet.data with
    | none => none
    | some (.error _) => some (.ok (), l)
    | some (.ok plaintext) => some (handlePlaintext c m l packet.context plaintext r)

/-- A stale link that hears from its peer is active again. -/
def revive (l : Link) : Link :=
  if l.state = .stale then { l with state := .active, status := .active, staleSince := none }
  else l

/-- The handler of a packet's type. -/
def dispatch (c : Crypto) (m : Msgpack) (l : Link) (packet : Packet) (r : Readings) :
    Option LinkResult :=
  match packet.packetType with
  | .data => handleDataPacket c m l packet r
  | .proof => some (handleProofPacket c l packet r)
  | _ => some (.ok (), l)

/-- The watchdog lock is released after a handler that succeeded. -/
def release : LinkResult → LinkResult
  | (.ok (), l) => (.ok (), { l with watchdogLock := false })
  | (.error e, l) => (.error e, l)

/-- The link that the handlers see: locked, and heard from its peer. -/
def heard (l : Link) (now : Nat) : Link :=
  revive (hadInbound { l with watchdogLock := true } now)

def receive (c : Crypto) (m : Msgpack) (l : Link) (packet : Packet) (r : Readings) :
    Option LinkResult :=
  if l.state = .closed then some (release (.ok (), { l with watchdogLock := true }))
  else (dispatch c m (heard l r.now) packet r).map release

/-! ## Where a handler fails -/

/-- A link proof that the initiator accepts, and whose LRRTT it can encrypt. -/
def ProofAccepted (c : Crypto) (l : Link) (data : Bytes) : Prop :=
  proofLength data ∧ modeFromLpPacket data = l.mode ∧
    (∃ prv, l.prvBytes = some prv ∧ prv.length = 32) ∧
    (l.mode = modeAes256Cbc ∨
      l.mode = modeAes128Cbc ∧ l.rttKnown = false ∧ l.requestTimeKnown = false) ∧
    ∃ publicKey signed, destinationKey l = .ok publicKey ∧
      expectedSignedData l data (publicKey.drop 32) = .ok signed ∧
      validate c publicKey (data.take sigLength) signed

/-- A plaintext that its handler accepts. -/
def PlaintextAccepted (c : Crypto) (m : Msgpack) (l : Link) (context : UInt8)
    (plaintext : Bytes) : Prop :=
  (context = Packet.lrrtt → l.initiator = true ∨ m.isFloat plaintext = true) ∧
  (context = Packet.linkIdentify → identifies c l.linkId plaintext = true) ∧
  (context = Packet.request → ¬ (m.isRequest plaintext = true ∧ l.destination = .poisoned)) ∧
  (context = Packet.response →
    ¬ (m.isResponse plaintext = true ∧ l.pendingRequestsPoisoned = true))

/-- A packet that leaves through no error return. -/
def Accepted (c : Crypto) (m : Msgpack) (l : Link) (packet : Packet) : Prop :=
  l.state = .closed ∨
    match packet.packetType with
    | .data => ∀ plaintext, decrypt c l packet.data = some (.ok plaintext) →
        PlaintextAccepted c m l packet.context plaintext
    | .proof => packet.context = Packet.resourcePrf ∨ l.initiator = false ∨ l.state ≠ .pending ∨
        ProofAccepted c l packet.data
    | _ => True

/-! ## The link proof, case by case -/

variable {c : Crypto} {m : Msgpack} {l : Link} {r : Readings} {packet : Packet} {data : Bytes}

theorem length_proofPub (h : proofLength data = true) : (proofPub data).length = 32 := by
  have hlength := of_decide_eq_true h
  simp only [sigLength, ecPubSize, linkMtuSize] at hlength
  simp only [proofPub, sigLength, ecPubSize, List.length_take, List.length_drop]
  omega

theorem length_of_destinationKey {publicKey : Bytes} (h : destinationKey l = .ok publicKey) :
    publicKey.length = 64 := by
  unfold destinationKey at h
  split at h
  · cases h
  · cases h
  · cases h
  · split at h
    · cases h
    · rename_i key hlength
      obtain rfl := Except.ok.inj h
      exact not_not.mp hlength

/-- The link with the keys of its peer. -/
def withPeer (l : Link) (peerPub peerSigPub : Bytes) : Link :=
  { l with peerPubBytes := some peerPub, peerSigPubBytes := some peerSigPub }

/-- The link after its key exchange. -/
def exchanged (c : Crypto) (l : Link) (prv peerPub : Bytes) (length : Nat) : Link :=
  { l with
    state := .handshake
    sharedKey := some (c.diffieHellman prv peerPub).1
    derivedKey := some (c.hkdf l.linkId (c.diffieHellman prv peerPub).1 length).1 }

/-- A key exchange that fails has moved the link to HANDSHAKE, or found no
keys. -/
theorem handshake_cases {peerPub : Bytes} (hstate : l.state = .pending)
    (hpeer : l.peerPubBytes = some peerPub) (hlength : peerPub.length = 32) :
    (l.prvBytes = none ∧ ∃ e, handshake c l = (.error e, l)) ∨
    (∃ e l', handshake c l = (.error e, l') ∧ l'.state = .handshake ∧ l.prvBytes ≠ none ∧
      ¬ ((∃ prv, l.prvBytes = some prv ∧ prv.length = 32) ∧ derivedKeyLength l.mode ≠ none)) ∨
    (∃ prv length, l.prvBytes = some prv ∧ prv.length = 32 ∧
      derivedKeyLength l.mode = some length ∧
      handshake c l = (.ok (), exchanged c l prv peerPub length)) := by
  unfold handshake
  rw [if_neg (not_not.mpr hstate)]
  split
  · rename_i prv peerPub' hprv hpeer'
    obtain rfl : peerPub = peerPub' := Option.some.inj (hpeer.symm.trans hpeer')
    right
    unfold keyExchange
    by_cases hlen : prv.length = 32
    · rw [if_neg (not_not.mpr hlen), if_neg (not_not.mpr hlength)]
      dsimp only
      split
      · rename_i hmode
        exact .inl ⟨_, _, rfl, rfl, by simp [hprv], fun h => h.2 hmode⟩
      · rename_i length hmode
        exact .inr ⟨prv, length, hprv, hlen, hmode, rfl⟩
    · rw [if_pos hlen]
      left
      refine ⟨_, _, rfl, rfl, by simp [hprv], ?_⟩
      rintro ⟨⟨prv', hprv', hlen'⟩, -⟩
      obtain rfl : prv = prv' := Option.some.inj (hprv.symm.trans hprv')
      exact hlen hlen'
  · rename_i hnone
    left
    refine ⟨?_, _, rfl⟩
    cases hprv : l.prvBytes with
    | none => rfl
    | some prv => exact (hnone prv peerPub hprv hpeer).elim

/-- The proof is refused before the link is touched. -/
def Refused (l : Link) (data : Bytes) : Prop :=
  proofLength data = false ∨ modeFromLpPacket data ≠ l.mode ∨
    ∀ publicKey, destinationKey l ≠ .ok publicKey

/-- What a link proof does to the link of an initiator that waits for one. -/
theorem handleProofPacket_cases (hinitiator : l.initiator = true) (hstate : l.state = .pending)
    (hcontext : packet.context ≠ Packet.resourcePrf) :
    (Refused l packet.data ∧ ∃ e, handleProofPacket c l packet r = (.error e, l)) ∨
    (∃ publicKey, ¬ Refused l packet.data ∧ destinationKey l = .ok publicKey ∧
      ((l.prvBytes = none ∧ ∃ e, handleProofPacket c l packet r =
          (.error e, withPeer l (proofPub packet.data) (publicKey.drop 32))) ∨
        (∃ e l', handleProofPacket c l packet r = (.error e, l') ∧ l'.state = .handshake ∧
          l.prvBytes ≠ none ∧ ¬ ((∃ prv, l.prvBytes = some prv ∧ prv.length = 32) ∧ derivedKeyLength l.mode ≠ none ∧
            ∃ signed, expectedSignedData l packet.data (publicKey.drop 32) = .ok signed ∧
              validate c publicKey (packet.data.take sigLength) signed = true)) ∨
        (∃ prv length signed, l.prvBytes = some prv ∧ prv.length = 32 ∧
          derivedKeyLength l.mode = some length ∧
          expectedSignedData l packet.data (publicKey.drop 32) = .ok signed ∧
          validate c publicKey (packet.data.take sigLength) signed = true ∧
          handleProofPacket c l packet r =
            sendRtt c (activate (exchanged c
              (withPeer l (proofPub packet.data) (publicKey.drop 32)) prv
              (proofPub packet.data) length) packet.data r) r))) := by
  unfold handleProofPacket
  rw [if_neg hcontext, if_neg (by simp [hinitiator, hstate])]
  by_cases hproof : proofLength packet.data = true
  swap
  · left
    rw [if_pos hproof]
    exact ⟨.inl (by simpa using hproof), _, rfl⟩
  rw [if_neg (not_not.mpr hproof)]
  by_cases hmode : modeFromLpPacket packet.data = l.mode
  swap
  · left
    rw [if_pos hmode]
    exact ⟨.inr (.inl hmode), _, rfl⟩
  rw [if_neg (not_not.mpr hmode)]
  cases hkey : destinationKey l with
  | error e => exact .inl ⟨.inr (.inr fun pk hpk => by simp [hkey] at hpk), e, rfl⟩
  | ok publicKey =>
      right
      have hpub := length_proofPub hproof
      have hsig : (publicKey.drop 32).length = 32 := by
        rw [List.length_drop, length_of_destinationKey hkey]
      have hload : loadPeer l (proofPub packet.data) (publicKey.drop 32) =
          (.ok (), withPeer l (proofPub packet.data) (publicKey.drop 32)) := by
        simp [loadPeer, hpub, hsig, withPeer]
      refine ⟨publicKey, ?_, rfl, ?_⟩
      · rintro (hrefused | hrefused | hrefused)
        · rw [hproof] at hrefused
          cases hrefused
        · exact hrefused hmode
        · exact hrefused publicKey hkey
      simp only [hload, LinkResult.andThen]
      rcases handshake_cases (c := c)
          (l := withPeer l (proofPub packet.data) (publicKey.drop 32)) hstate rfl hpub with
        ⟨hprv, e, he⟩ | ⟨e, l', he, hl', hsome, hnot⟩ | ⟨prv, length, hprv, hlen, hlength, he⟩
      · left
        rw [he]
        exact ⟨hprv, e, rfl⟩
      · right
        left
        rw [he]
        exact ⟨e, l', rfl, hl', hsome, fun h => hnot ⟨h.1, h.2.1⟩⟩
      · have hsome : l.prvBytes ≠ none := by
          intro hnone
          exact nomatch hnone.symm.trans hprv
        rw [he]
        simp only [checkSignature]
        have hexpected : expectedSignedData (exchanged c
            (withPeer l (proofPub packet.data) (publicKey.drop 32)) prv
              (proofPub packet.data) length) packet.data (publicKey.drop 32) =
            expectedSignedData l packet.data (publicKey.drop 32) := rfl
        rw [hexpected]
        cases hsigned : expectedSignedData l packet.data (publicKey.drop 32) with
        | error e =>
            right
            left
            refine ⟨e, _, rfl, rfl, hsome, ?_⟩
            rintro ⟨-, -, signed, h, -⟩
            cases h
        | ok signed =>
            by_cases hvalid : validate c publicKey (packet.data.take sigLength) signed = true
            · right
              right
              exact ⟨prv, length, signed, hprv, hlen, hlength, rfl, hvalid, by simp only [if_pos hvalid]⟩
            · right
              left
              simp only [if_neg hvalid]
              refine ⟨_, _, rfl, rfl, hsome, ?_⟩
              rintro ⟨-, -, signed', h, hvalid'⟩
              obtain rfl := Except.ok.inj h
              exact hvalid hvalid'

/-! ## What no handler changes -/

/-- A handler keeps the link's identity and the watchdog lock, and drops the
keys only when it closes the link. -/
structure Frame (l l' : Link) : Prop where
  linkId : l'.linkId = l.linkId
  mode : l'.mode = l.mode
  initiator : l'.initiator = l.initiator
  destination : l'.destination = l.destination
  watchdogLock : l'.watchdogLock = l.watchdogLock
  keys : l'.state = .closed ∨ l'.prvBytes = l.prvBytes

theorem Frame.refl (l : Link) : Frame l l := ⟨rfl, rfl, rfl, rfl, rfl, .inr rfl⟩

variable (now : Nat) {result : LinkResult}

theorem frame_hadOutbound (isKeepalive : Bool) :
    Frame l (hadOutbound l now isKeepalive) := ⟨rfl, rfl, rfl, rfl, rfl, .inr rfl⟩

theorem frame_updateKeepalive {l' : Link} (h : Frame l l') : Frame l (updateKeepalive l' r) := by
  unfold updateKeepalive
  split
  · exact ⟨h.linkId, h.mode, h.initiator, h.destination, h.watchdogLock, h.keys⟩
  · exact h

theorem frame_teardown : Frame l (teardown l now) := by
  unfold teardown
  split <;> exact ⟨rfl, rfl, rfl, rfl, rfl, .inl rfl⟩

theorem frame_teardownPacket (plaintext : Bytes) : Frame l (teardownPacket l plaintext) := by
  unfold teardownPacket
  split
  · exact .refl l
  · split
    · exact .refl l
    · exact ⟨rfl, rfl, rfl, rfl, rfl, .inl rfl⟩

theorem frame_handlePlaintext (context : UInt8) (plaintext : Bytes) :
    Frame l (handlePlaintext c m l context plaintext r).2 := by
  unfold handlePlaintext
  split
  · dsimp only
    split
    · exact .refl l
    · exact frame_teardown r.now
  split
  · unfold handleLrrttPacket
    split
    · exact .refl l
    · split
      · exact .refl l
      · dsimp only
        apply frame_updateKeepalive
        exact ⟨rfl, rfl, rfl, rfl, rfl, .inr rfl⟩
  split
  · unfold handleRequestPacket
    split <;> exact .refl l
  split
  · unfold handleResponsePacket
    split <;> exact .refl l
  split
  · unfold handleLinkidentifyPacket
    split
    · exact .refl l
    split
    · exact .refl l
    split
    · dsimp only
      split
      · exact .refl l
      · exact ⟨rfl, rfl, rfl, rfl, rfl, .inr rfl⟩
    · exact .refl l
  split
  · exact frame_teardownPacket plaintext
  · exact .refl l

theorem frame_activate {l' : Link} (h : Frame l l') (hkeys : l'.prvBytes = l.prvBytes) :
    Frame l (activate l' data r) := by
  unfold activate
  apply frame_updateKeepalive
  dsimp only
  split <;> exact ⟨h.linkId, h.mode, h.initiator, h.destination, h.watchdogLock, .inr hkeys⟩

theorem frame_sendRtt {l' : Link} (h : Frame l l') : Frame l (sendRtt c l' r).2 := by
  unfold sendRtt
  split
  · split
    · exact h
    · exact ⟨h.linkId, h.mode, h.initiator, h.destination, h.watchdogLock, h.keys⟩
  · exact h

theorem frame_handshake {l' : Link} (h : Frame l l') (hkeys : l'.prvBytes = l.prvBytes) :
    Frame l (handshake c l').2 ∧ (handshake c l').2.prvBytes = l.prvBytes := by
  unfold handshake
  split
  · exact ⟨h, hkeys⟩
  split
  · unfold keyExchange
    split
    · exact ⟨⟨h.linkId, h.mode, h.initiator, h.destination, h.watchdogLock, .inr hkeys⟩, hkeys⟩
    split
    · exact ⟨⟨h.linkId, h.mode, h.initiator, h.destination, h.watchdogLock, .inr hkeys⟩, hkeys⟩
    dsimp only
    split <;>
      exact ⟨⟨h.linkId, h.mode, h.initiator, h.destination, h.watchdogLock, .inr hkeys⟩, hkeys⟩
  · exact ⟨h, hkeys⟩

theorem frame_andThen {next : Link → LinkResult} (h : Frame l result.2)
    (hnext : ∀ l', result = (.ok (), l') → Frame l (next l').2) :
    Frame l (result.andThen next).2 := by
  match result with
  | (.ok (), l') => exact hnext l' rfl
  | (.error e, l') => exact h

theorem frame_handleProofPacket : Frame l (handleProofPacket c l packet r).2 := by
  unfold handleProofPacket
  split
  · exact .refl l
  split
  · exact .refl l
  split
  · exact .refl l
  split
  · exact .refl l
  split
  · exact .refl l
  rename_i publicKey _
  have hload : Frame l (loadPeer l (proofPub packet.data) (publicKey.drop 32)).2 ∧
      (loadPeer l (proofPub packet.data) (publicKey.drop 32)).2.prvBytes = l.prvBytes := by
    unfold loadPeer
    split
    · exact ⟨.refl l, rfl⟩
    split
    · exact ⟨.refl l, rfl⟩
    · exact ⟨⟨rfl, rfl, rfl, rfl, rfl, .inr rfl⟩, rfl⟩
  apply frame_andThen hload.1
  intro l₁ hl₁
  rw [hl₁] at hload
  have hhandshake := frame_handshake (c := c) hload.1 hload.2
  apply frame_andThen hhandshake.1
  intro l₂ hl₂
  rw [hl₂] at hhandshake
  unfold checkSignature
  split
  · exact hhandshake.1
  · split
    · exact frame_sendRtt (frame_activate hhandshake.1 hhandshake.2)
    · exact hhandshake.1

theorem frame_dispatch (h : dispatch c m l packet r = some result) : Frame l result.2 := by
  unfold dispatch at h
  split at h
  · unfold handleDataPacket at h
    split at h
    · obtain rfl := Option.some.inj h
      exact .refl l
    split at h
    · obtain rfl := Option.some.inj h
      unfold pong
      dsimp only
      split
      · exact frame_hadOutbound r.now true
      · exact .refl l
    split at h
    · cases h
    · obtain rfl := Option.some.inj h
      exact .refl l
    · obtain rfl := Option.some.inj h
      exact frame_handlePlaintext packet.context _
  · obtain rfl := Option.some.inj h
    exact frame_handleProofPacket
  · obtain rfl := Option.some.inj h
    exact .refl l

/-! ## Which packets leave through an error -/

theorem derivedKeyLength_eq_none_iff {mode : UInt8} :
    derivedKeyLength mode = none ↔ mode ≠ modeAes256Cbc ∧ mode ≠ modeAes128Cbc := by
  unfold derivedKeyLength
  by_cases h128 : mode = modeAes128Cbc
  · simp [h128]
  · by_cases h256 : mode = modeAes256Cbc
    · simp [h256, modeAes256Cbc, modeAes128Cbc]
    · simp [h128, h256]

/-- The LRRTT of a freshly exchanged key is encrypted in the 256-bit mode
only: the other key is too short for the cipher. -/
theorem encrypt_ok_iff {length : Nat} {key : Bytes.Block length} (vector : Bytes.Block 16)
    (plaintext : Bytes) (hlength : derivedKeyLength l.mode = some length)
    (hkey : l.derivedKey = some key.1) :
    (∃ ciphertext, encrypt c l vector plaintext = .ok ciphertext) ↔ l.mode = modeAes256Cbc := by
  unfold derivedKeyLength at hlength
  have hkeyLength := key.2
  simp only [encrypt, hkey, Token.new]
  split at hlength
  · rename_i hmode
    obtain rfl := Option.some.inj hlength
    have hne : l.mode ≠ modeAes256Cbc := by
      rw [hmode]
      decide
    simp [hkeyLength, Except.bind, Token.encrypt, hne]
  · split at hlength
    · rename_i hmode
      obtain rfl := Option.some.inj hlength
      simp [hkeyLength, Except.bind, Token.encrypt, hmode]
    · cases hlength

theorem sendRtt_ok_iff {length : Nat} {key : Bytes.Block length}
    (hlength : derivedKeyLength l.mode = some length) (hkey : l.derivedKey = some key.1) :
    (sendRtt c l r).1 = .ok () ↔ l.mode = modeAes256Cbc ∨ l.rttKnown = false := by
  have hencrypt := encrypt_ok_iff (c := c) r.vector r.rttData hlength hkey
  unfold sendRtt
  by_cases hrtt : l.rttKnown = true
  · rw [if_pos hrtt]
    cases h : encrypt c l r.vector r.rttData with
    | error e =>
        have hmode : l.mode ≠ modeAes256Cbc := by
          intro hmode
          obtain ⟨ciphertext, hok⟩ := hencrypt.mpr hmode
          rw [h] at hok
          cases hok
        simp [hmode, hrtt]
    | ok ciphertext => simp [hencrypt.mp ⟨ciphertext, h⟩]
  · rw [if_neg hrtt]
    simp [hrtt]

theorem mode_activate (l : Link) (data : Bytes) (r : Readings) : (activate l data r).mode = l.mode ∧
    (activate l data r).derivedKey = l.derivedKey ∧
    (activate l data r).rttKnown = (l.rttKnown || l.requestTimeKnown) := by
  unfold activate updateKeepalive
  dsimp only
  split <;> split <;> exact ⟨rfl, rfl, rfl⟩

/-- A link proof leaves through no error exactly when it is accepted. -/
theorem handleProofPacket_ok_iff (hinitiator : l.initiator = true) (hstate : l.state = .pending)
    (hcontext : packet.context ≠ Packet.resourcePrf) :
    (handleProofPacket c l packet r).1 = .ok () ↔ ProofAccepted c l packet.data := by
  rcases handleProofPacket_cases (c := c) (r := r) hinitiator hstate hcontext with
    ⟨hrefused, e, he⟩ | ⟨publicKey, hnot, hkey, ⟨hprv, e, he⟩ | ⟨e, l', he, -, -, hfail⟩ |
      ⟨prv, length, signed, hprv, hlen, hlength, hsigned, hvalid, he⟩⟩
  · rw [he]
    refine ⟨fun h => (nomatch h), ?_⟩
    rintro ⟨hproof, hmode, -, -, publicKey, -, hkey, -⟩
    rcases hrefused with hrefused | hrefused | hrefused
    · rw [hproof] at hrefused
      cases hrefused
    · exact (hrefused hmode).elim
    · exact (hrefused publicKey hkey).elim
  · rw [he]
    refine ⟨fun h => (nomatch h), ?_⟩
    rintro ⟨-, -, ⟨prv, hprv', -⟩, -⟩
    rw [hprv] at hprv'
    cases hprv'
  · rw [he]
    refine ⟨fun h => (nomatch h), ?_⟩
    rintro ⟨-, -, hprv, hmode, publicKey', signed, hkey', hsigned, hvalid⟩
    obtain rfl := Except.ok.inj (hkey.symm.trans hkey')
    refine (hfail ⟨hprv, ?_, signed, hsigned, hvalid⟩).elim
    rw [Ne, derivedKeyLength_eq_none_iff, not_and_or, not_not, not_not]
    exact hmode.imp id And.left
  · rw [he]
    obtain ⟨hmode, hderived, hrtt⟩ := mode_activate (exchanged c
      (withPeer l (proofPub packet.data) (publicKey.drop 32)) prv (proofPub packet.data) length)
      packet.data r
    rw [sendRtt_ok_iff (hmode ▸ hlength) hderived, hmode, hrtt]
    have hnot' : proofLength packet.data = true ∧ modeFromLpPacket packet.data = l.mode := by
      constructor
      · by_contra h
        exact hnot (.inl (by simpa using h))
      · by_contra h
        exact hnot (.inr (.inl h))
    have hmodes : l.mode = modeAes256Cbc ∨ l.mode = modeAes128Cbc := by
      by_contra h
      rw [not_or, ← derivedKeyLength_eq_none_iff, hlength] at h
      cases h
    constructor
    · intro h
      refine ⟨hnot'.1, hnot'.2, ⟨prv, hprv, hlen⟩, ?_, publicKey, signed, hkey, hsigned, hvalid⟩
      rcases h with h | h
      · exact .inl h
      · simp only [Bool.or_eq_false_iff] at h
        exact hmodes.imp id fun h128 => ⟨h128, h⟩
    · rintro ⟨-, -, -, h | ⟨-, h, h'⟩, -⟩
      · exact .inl h
      · exact .inr (by simpa [exchanged, withPeer] using And.intro h h')

/-- A plaintext leaves through no error exactly when its handler accepts
it. -/
theorem handlePlaintext_ok_iff {context : UInt8} {plaintext : Bytes} :
    (handlePlaintext c m l context plaintext r).1 = .ok () ↔
      PlaintextAccepted c m l context plaintext := by
  unfold handlePlaintext PlaintextAccepted
  by_cases hadv : context = Packet.resourceAdv
  · subst hadv
    simp [Packet.resourceAdv, Packet.lrrtt, Packet.linkIdentify, Packet.request, Packet.response]
  rw [if_neg hadv]
  by_cases hlrrtt : context = Packet.lrrtt
  · subst hlrrtt
    rw [if_pos rfl]
    unfold handleLrrttPacket
    split
    · rename_i hinitiator
      simp [hinitiator, Packet.lrrtt, Packet.linkIdentify, Packet.request, Packet.response]
    · rename_i hinitiator
      split
      · rename_i hfloat
        simp [hinitiator, hfloat]
      · rename_i hfloat
        simp only [not_not] at hfloat
        simp [hfloat, Packet.lrrtt, Packet.linkIdentify, Packet.request, Packet.response]
  rw [if_neg hlrrtt]
  by_cases hrequest : context = Packet.request
  · subst hrequest
    rw [if_pos rfl]
    unfold handleRequestPacket
    split
    · rename_i h
      simp [h]
    · rename_i h
      simpa [Packet.lrrtt, Packet.linkIdentify, Packet.request, Packet.response] using h
  rw [if_neg hrequest]
  by_cases hresponse : context = Packet.response
  · subst hresponse
    rw [if_pos rfl]
    unfold handleResponsePacket
    split
    · rename_i h
      simp [h]
    · rename_i h
      simpa [Packet.lrrtt, Packet.linkIdentify, Packet.request, Packet.response] using h
  rw [if_neg hresponse]
  by_cases hidentify : context = Packet.linkIdentify
  · subst hidentify
    rw [if_pos rfl]
    unfold handleLinkidentifyPacket identifies
    by_cases hlength : plaintext.length = 128
    · by_cases hverifying : c.isVerifyingKey ((plaintext.take 64).drop 32) = true
      · by_cases hvalid : validate c (plaintext.take 64) (plaintext.drop 64)
            (l.linkId ++ plaintext.take 64) = true
        · simp [hlength, hverifying, hvalid, Packet.lrrtt, Packet.linkIdentify, Packet.request,
            Packet.response]
        · simp [hlength, hverifying, hvalid]
      · simp [hlength, hverifying]
    · simp [hlength]
  rw [if_neg hidentify]
  split <;> simp [hlrrtt, hidentify, hrequest, hresponse]

/-! ## The watchdog lock after a packet -/

theorem heard_pending (hstate : l.state = .pending) :
    heard l r.now = { l with watchdogLock := true, lastInbound := r.now } := by
  unfold heard revive hadInbound
  rw [if_neg (by rw [hstate]; decide)]

theorem heard_cases :
    heard l now = { l with watchdogLock := true, lastInbound := now } ∨
    (l.state = .stale ∧ heard l now = { l with
      watchdogLock := true, lastInbound := now, state := .active, status := .active
      staleSince := none }) := by
  unfold heard revive hadInbound
  split
  · rename_i hstale
    exact .inr ⟨hstale, rfl⟩
  · exact .inl rfl

theorem frame_heard : (heard l now).linkId = l.linkId ∧
    (heard l now).mode = l.mode ∧ (heard l now).initiator = l.initiator ∧
    (heard l now).destination = l.destination ∧ (heard l now).watchdogLock = true ∧
    (heard l now).prvBytes = l.prvBytes := by
  rcases heard_cases (l := l) now with h | ⟨-, h⟩ <;> rw [h] <;> exact ⟨rfl, rfl, rfl, rfl, rfl, rfl⟩

/-- What is accepted does not depend on the fields that hearing from the peer
changes. -/
theorem accepted_heard (hopen : l.state ≠ .closed) :
    Accepted c m (heard l now) packet ↔ Accepted c m l packet := by
  rcases heard_cases (l := l) now with h | ⟨hstale, h⟩
  · rw [h]
    rfl
  · rw [h]
    unfold Accepted
    rw [or_iff_right hopen, or_iff_right (by simp)]
    cases packet.packetType with
    | data => rfl
    | proof => simp [hstale]
    | announce => rfl
    | linkRequest => rfl

theorem dispatch_ok_iff (hopen : l.state ≠ .closed) (h : dispatch c m l packet r = some result) :
    result.1 = .ok () ↔ Accepted c m l packet := by
  unfold dispatch at h
  unfold Accepted
  rw [or_iff_right hopen]
  split at h
  · unfold handleDataPacket at h
    split at h
    · rename_i hcontext
      obtain rfl := Option.some.inj h
      simp [PlaintextAccepted, hcontext, Packet.resource, Packet.lrrtt, Packet.linkIdentify,
        Packet.request, Packet.response]
    split at h
    · rename_i hcontext
      obtain rfl := Option.some.inj h
      simp [PlaintextAccepted, hcontext, Packet.keepalive, Packet.lrrtt, Packet.linkIdentify,
        Packet.request, Packet.response]
    split at h
    · cases h
    · rename_i hdecrypt
      obtain rfl := Option.some.inj h
      simp [hdecrypt]
    · rename_i plaintext hdecrypt
      obtain rfl := Option.some.inj h
      rw [handlePlaintext_ok_iff, hdecrypt]
      simp
  · obtain rfl := Option.some.inj h
    by_cases hcontext : packet.context = Packet.resourcePrf
    · simp [handleProofPacket, hcontext]
    by_cases hinitiator : l.initiator = true
    · by_cases hstate : l.state = .pending
      · rw [handleProofPacket_ok_iff hinitiator hstate hcontext]
        simp [hcontext, hinitiator, hstate]
      · simp [handleProofPacket, hstate]
    · simp [handleProofPacket, hinitiator]
  · rename_i htype htype'
    obtain rfl := Option.some.inj h
    cases hpacket : packet.packetType with
    | data => exact (htype hpacket).elim
    | proof => exact (htype' hpacket).elim
    | announce => simp
    | linkRequest => simp

/-- The lock is released exactly by the packets that no handler refuses. -/
theorem watchdogLock_receive_iff (h : receive c m l packet r = some result) :
    result.2.watchdogLock = false ↔ Accepted c m l packet := by
  unfold receive at h
  by_cases hclosed : l.state = .closed
  · rw [if_pos hclosed] at h
    obtain rfl := Option.some.inj h
    simp [release, Accepted, hclosed]
  · rw [if_neg hclosed] at h
    obtain ⟨handled, hdispatch, rfl⟩ := Option.map_eq_some_iff.mp h
    have hopen : (heard l r.now).state ≠ .closed := by
      rcases heard_cases (l := l) r.now with h | ⟨-, h⟩ <;> rw [h]
      · exact hclosed
      · simp
    have hlock := (frame_dispatch hdispatch).watchdogLock
    rw [(frame_heard r.now).2.2.2.2.1] at hlock
    rw [← accepted_heard r.now hclosed, ← dispatch_ok_iff hopen hdispatch]
    match handled, hlock with
    | (.ok (), l'), _ => simp [release]
    | (.error e, l'), hlock => simpa [release] using hlock

end Reticulum.Link
