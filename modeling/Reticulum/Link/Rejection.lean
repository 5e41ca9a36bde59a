import Reticulum.Link.Receive

/-!
# A rejected link proof

The proof of an initiator's link is checked after the peer's key was loaded and
the key exchange was run, and an error return skips the release of the
watchdog lock. `unchanged_iff_refused` says which rejected proofs leave the
link as it was.
-/

namespace Reticulum.Link

variable {c : Crypto} {m : Msgpack} {l l' : Link} {r : Readings} {packet : Packet}

/-- The state, the keys, the status and the watchdog lock are what they
were. -/
def Unchanged (l l' : Link) : Prop :=
  l'.state = l.state ∧ l'.status = l.status ∧ l'.peerPubBytes = l.peerPubBytes ∧
    l'.sharedKey = l.sharedKey ∧ l'.derivedKey = l.derivedKey ∧ l'.watchdogLock = l.watchdogLock

theorem state_sendRtt : (sendRtt c l r).2.state = l.state := by
  unfold sendRtt
  split
  · split <;> rfl
  · rfl

theorem state_activate {data : Bytes} : (activate l data r).state = .active := by
  unfold activate updateKeepalive
  dsimp only
  split <;> split <;> rfl

theorem state_release {result : LinkResult} : (release result).2.state = result.2.state := by
  match result with
  | (.ok (), _) => rfl
  | (.error _, _) => rfl

/-- A proof that is rejected leaves the link unchanged exactly when the lock
was taken already and the proof is refused before the link is touched, or the
link has no key of its own and has loaded the same peer before. -/
theorem unchanged_iff_refused {e : String} (hinitiator : l.initiator = true)
    (hstate : l.state = .pending) (htype : packet.packetType = .proof)
    (h : receive c m l packet r = some (.error e, l')) :
    Unchanged l l' ↔ l.watchdogLock = true ∧
      (Refused l packet.data ∨
        l.prvBytes = none ∧ l.peerPubBytes = some (proofPub packet.data)) := by
  have hclosed : l.state ≠ .closed := by
    rw [hstate]
    decide
  unfold receive dispatch at h
  rw [if_neg hclosed, htype, heard_pending hstate] at h
  obtain ⟨handled, hhandled, hrelease⟩ := Option.map_eq_some_iff.mp h
  obtain rfl := Option.some.inj hhandled
  have hcontext : packet.context ≠ Packet.resourcePrf := by
    intro hcontext
    simp [handleProofPacket, hcontext, release] at hrelease
  have herror : ∀ {e' l₁}, handleProofPacket c { l with
      watchdogLock := true, lastInbound := r.now } packet r = (.error e', l₁) → l' = l₁ := by
    intro e' l₁ he
    rw [he] at hrelease
    exact (congrArg Prod.snd hrelease).symm
  have hrefused : Refused { l with watchdogLock := true, lastInbound := r.now } packet.data ↔
      Refused l packet.data := Iff.rfl
  rcases handleProofPacket_cases (c := c) (r := r) (l := { l with
      watchdogLock := true, lastInbound := r.now }) hinitiator hstate hcontext with
    ⟨hearly, e', he⟩ | ⟨publicKey, hlate, -, ⟨hprv, e', he⟩ | ⟨e', l₁, he, hl₁, hsome, -⟩ |
      ⟨prv, length, signed, hprv, -, -, -, -, he⟩⟩
  · obtain rfl := herror he
    constructor
    · rintro ⟨-, -, -, -, -, hlock⟩
      exact ⟨hlock.symm, .inl (hrefused.mp hearly)⟩
    · rintro ⟨hlock, -⟩
      exact ⟨rfl, rfl, rfl, rfl, rfl, hlock.symm⟩
  · obtain rfl := herror he
    constructor
    · rintro ⟨-, -, hpeer, -, -, hlock⟩
      exact ⟨hlock.symm, .inr ⟨hprv, hpeer.symm⟩⟩
    · rintro ⟨hlock, hrefused' | ⟨-, hpeer⟩⟩
      · exact (hlate (hrefused.mpr hrefused')).elim
      · exact ⟨rfl, rfl, hpeer.symm, rfl, rfl, hlock.symm⟩
  · obtain rfl := herror he
    constructor
    · rintro ⟨hstate', -⟩
      rw [hl₁, hstate] at hstate'
      cases hstate'
    · rintro ⟨-, hrefused' | ⟨hnone, -⟩⟩
      · exact (hlate (hrefused.mpr hrefused')).elim
      · exact (hsome hnone).elim
  · have hactive : l'.state = .active := by
      have hstate' := congrArg (fun result : LinkResult => result.2.state) hrelease
      rw [he] at hstate'
      dsimp only at hstate'
      rw [← hstate', state_release, state_sendRtt, state_activate]
    constructor
    · rintro ⟨hstate', -⟩
      rw [hactive, hstate] at hstate'
      cases hstate'
    · rintro ⟨-, hrefused' | ⟨hnone, -⟩⟩
      · exact (hlate (hrefused.mpr hrefused')).elim
      · exact absurd (hnone.symm.trans hprv) (Option.some_ne_none _).symm

/-! ## A forged proof -/

/-- The first `n` bytes of a string, filled up with zeros. -/
def pad (n : Nat) (b : Bytes) : Bytes.Block n :=
  ⟨(b ++ List.replicate n 0).take n, by simp⟩

/-- A stand-in for the cryptographic crates, in which one signature is valid
for the messages `signed`. -/
def sampleCrypto (signed : List Bytes) : Crypto where
  publicKey := pad 32
  diffieHellman a b := pad 32 (List.zipWith (· + ·) (pad 32 a).1 (pad 32 b).1)
  hkdf salt key n := pad n (salt ++ key)
  fullHash data := pad 32 data
  verify _ signature data := signature = List.replicate 64 1 ∧ data ∈ signed
  isVerifyingKey _ := true
  hmac key data := pad 32 (key ++ data)
  aesEncrypt _ _ plaintext := plaintext
  aesDecrypt _ _ ciphertext := some ciphertext

/-- Nothing is well-formed msgpack. -/
def sampleMsgpack : Msgpack where
  isFloat _ := false
  isRequest _ := false
  isResponse _ := false
  isAdvertisement _ := false

def sampleReadings : Readings where
  now := 10
  establishmentOver := false
  keepalive := 5
  staleTime := 10
  staleGrace := 5
  pongPeriod := 5
  rttData := []
  vector := pad 16 []

/-- A link that has sent its request and waits for the proof. -/
def sampleInitiator (signed : List Bytes) : Link :=
  (initiatePrepare (sampleCrypto signed)
    (new true (.key (List.replicate 64 7)) modeDefault [] 0) (pad 32 [1]) (pad 32 [2]) 0
    (pad 16 [3])).2

/-- What the destination signs when its ephemeral key is 4. -/
def sampleSigned : Bytes :=
  (sampleInitiator []).linkId ++ (pad 32 [4]).1 ++ List.replicate 32 7 ++ [0x20, 0x01, 0xF4]

/-- A link proof with the ephemeral key 4 and a signature. -/
def sampleProof (signature : Bytes.Block 64) : Packet where
  raw := []
  header2 := false
  packetType := .proof
  context := 0xFF
  data := signature.1 ++ (pad 32 [4]).1 ++ [0x20, 0x01, 0xF4]

/-- On a link whose lock is taken already, a proof of a wrong length leaves
everything as it was. -/
theorem unchanged_short_proof : ∃ l', receive (sampleCrypto []) sampleMsgpack
      { sampleInitiator [] with watchdogLock := true } { sampleProof (pad 64 []) with data := [] }
      sampleReadings = some (.error "Invalid link proof packet length", l') ∧
    Unchanged { sampleInitiator [] with watchdogLock := true } l' := by
  obtain ⟨l', h⟩ : ∃ l', receive (sampleCrypto []) sampleMsgpack
      { sampleInitiator [] with watchdogLock := true } { sampleProof (pad 64 []) with data := [] }
      sampleReadings = some (.error "Invalid link proof packet length", l') := ⟨_, rfl⟩
  exact ⟨l', h, (unchanged_iff_refused rfl rfl rfl h).mpr ⟨rfl, .inl (.inl rfl)⟩⟩

/-- A forged proof moves the link to HANDSHAKE, loads the forged key and leaves
the lock taken; the genuine proof, which would have activated the link, is then
ignored. -/
theorem unchanged_false_at_forged_proof :
    (receive (sampleCrypto [sampleSigned]) sampleMsgpack (sampleInitiator [sampleSigned])
      (sampleProof (pad 64 (List.replicate 64 1))) sampleReadings).map
        (fun result => (result.1.toBool, result.2.state)) = some (true, .active) ∧
    ∃ l', receive (sampleCrypto [sampleSigned]) sampleMsgpack (sampleInitiator [sampleSigned])
        (sampleProof (pad 64 [])) sampleReadings =
          some (.error "Invalid link proof signature", l') ∧
      ¬ Unchanged (sampleInitiator [sampleSigned]) l' ∧
      l'.state = .handshake ∧ l'.peerPubBytes = some (pad 32 [4]).1 ∧ l'.watchdogLock = true ∧
      (receive (sampleCrypto [sampleSigned]) sampleMsgpack l'
        (sampleProof (pad 64 (List.replicate 64 1))) sampleReadings).map
          (fun result => (result.1.toBool, result.2.state)) = some (true, .handshake) := by
  refine ⟨rfl, _, rfl, ?_, rfl, rfl, rfl, rfl⟩
  rintro ⟨hstate, -⟩
  cases hstate

end Reticulum.Link
