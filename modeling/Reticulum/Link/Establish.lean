import Reticulum.Link.Signalling

/-!
# Establishing a link

The initiator sends a link request with an ephemeral key (`initiatePrepare`).
The responder makes a link from it, runs the key exchange and answers with a
proof signed by the destination's identity (`validateRequest`). The proof moves
the initiator's link to ACTIVE (`handleProofPacket`).

## Implementation notes

A method that mutates the link and fails leaves the link as it was at the point
of failure, so it returns both. `decrypt` slices its argument after the HMAC
matched and panics when it is shorter than a vector and an HMAC; a panic is
`none`. Frames handed to an interface are left out.
-/

namespace Reticulum

/-- `Token`: the keys of `encrypt` and `decrypt`. -/
structure Token where
  signingKey : Bytes
  encryptionKey : Bytes

def Token.new (key : Bytes) : Except String Token :=
  if key.length = 32 then .ok { signingKey := key.take 16, encryptionKey := key.drop 16 }
  else if key.length = 64 then .ok { signingKey := key.take 32, encryptionKey := key.drop 32 }
  else .error ("Token key must be 32 or 64 bytes, not " ++ toString key.length)

def Token.encrypt (c : Crypto) (token : Token) (vector : Bytes.Block 16) (plaintext : Bytes) :
    Except String Bytes :=
  if token.encryptionKey.length ≠ 32 then .error "Failed to create cipher: Invalid Length"
  else
    let signedParts := vector.1 ++ c.aesEncrypt token.encryptionKey vector plaintext
    .ok (signedParts ++ (c.hmac token.signingKey signedParts).1)

def Token.decrypt (c : Crypto) (token : Token) (data : Bytes) : Option (Except String Bytes) :=
  if data.length ≤ 32 then
    some (.error ("Cannot verify HMAC on token of only " ++ toString data.length ++ " bytes"))
  else
    let signedParts := data.take (data.length - 32)
    if (c.hmac token.signingKey signedParts).1 ≠ data.drop (data.length - 32) then
      some (.error "Token HMAC was invalid")
    else if signedParts.length < 16 then none
    else if token.encryptionKey.length ≠ 32 then
      some (.error "Failed to create cipher: Invalid Length")
    else
      match c.aesDecrypt token.encryptionKey (data.take 16) (signedParts.drop 16) with
      | none => some (.error "Decryption failed: Unpad Error")
      | some plaintext => some (.ok plaintext)

namespace Link

def encrypt (c : Crypto) (l : Link) (vector : Bytes.Block 16) (plaintext : Bytes) :
    Except String Bytes :=
  match l.derivedKey with
  | none => .error "Link not properly established for encryption"
  | some key => (Token.new key).bind fun token => token.encrypt c vector plaintext

/-- A token is the vector, the ciphertext and the HMAC of both. -/
theorem token_of_encrypt {c : Crypto} {l : Link} {vector : Bytes.Block 16} {plaintext token : Bytes}
    (h : l.encrypt c vector plaintext = .ok token) : ∃ keys : Token,
      let signedParts := vector.1 ++ c.aesEncrypt keys.encryptionKey vector plaintext
      token = signedParts ++ (c.hmac keys.signingKey signedParts).1 := by
  unfold encrypt at h
  split at h
  · cases h
  rename_i key hkey
  cases hnew : Token.new key with
  | error e =>
      rw [hnew] at h
      cases h
  | ok keys =>
      rw [hnew] at h
      change keys.encrypt c vector plaintext = .ok token at h
      unfold Token.encrypt at h
      split at h
      · cases h
      · exact ⟨keys, (Except.ok.inj h).symm⟩

def decrypt (c : Crypto) (l : Link) (ciphertext : Bytes) : Option (Except String Bytes) :=
  match l.derivedKey with
  | none => some (.error "Link not properly established for decryption")
  | some key =>
      match Token.new key with
      | .error e => some (.error e)
      | .ok token => token.decrypt c ciphertext

/-- `Identity::validate` of the identity with a public key. -/
def validate (c : Crypto) (publicKey signature data : Bytes) : Bool :=
  signature.length = 64 ∧ c.verify (publicKey.drop 32) signature data

def hadInbound (l : Link) (now : Nat) : Link := { l with lastInbound := now }

def hadOutbound (l : Link) (now : Nat) (isKeepalive : Bool) : Link :=
  { l with
    lastOutbound := now
    lastKeepalive := if isKeepalive then now else l.lastKeepalive }

/-- `update_mdu`, with `IFAC_MIN_SIZE` 1, `HEADER_MINSIZE` 19 and
`TOKEN_OVERHEAD` 48; the subtractions wrap. -/
def updateMdu (l : Link) : Link :=
  let room := (l.mtu + 2 ^ 64 - (1 + 19 + 48)) % 2 ^ 64
  { l with mdu := (room / 16 * 16 + 2 ^ 64 - 1) % 2 ^ 64 }

def updateKeepalive (l : Link) (r : Readings) : Link :=
  if l.rttKnown then { l with keepalive := r.keepalive, staleTime := r.staleTime } else l

def loadPeer (l : Link) (peerPub peerSigPub : Bytes) : LinkResult :=
  if peerPub.length ≠ 32 then (.error "Invalid peer public key length", l)
  else if peerSigPub.length ≠ 32 then (.error "Invalid peer signing public key length", l)
  else (.ok (), { l with peerPubBytes := some peerPub, peerSigPubBytes := some peerSigPub })

/-- The length of the derived key. -/
def derivedKeyLength (mode : UInt8) : Option Nat :=
  if mode = modeAes128Cbc then some 32
  else if mode = modeAes256Cbc then some 64
  else none

/-- The part of `handshake` after the link has moved to HANDSHAKE. -/
def keyExchange (c : Crypto) (prv peerPub : Bytes) (l : Link) : LinkResult :=
  if prv.length ≠ 32 then (.error "Invalid private key length", l)
  else if peerPub.length ≠ 32 then (.error "Invalid peer public key length", l)
  else
    let shared := (c.diffieHellman prv peerPub).1
    match derivedKeyLength l.mode with
    | none =>
        (.error ("Invalid link mode " ++ toString l.mode.toNat), { l with sharedKey := some shared })
    | some length =>
        (.ok (), { l with
          sharedKey := some shared
          derivedKey := some (c.hkdf l.linkId shared length).1 })

def handshake (c : Crypto) (l : Link) : LinkResult :=
  if l.state ≠ .pending then (.error "Invalid link state for handshake", l)
  else
    match l.prvBytes, l.peerPubBytes with
    | some prv, some peerPub => keyExchange c prv peerPub { l with state := .handshake }
    | _, _ => (.error "Missing keys for handshake", l)

/-- `new_outbound` and `new_inbound`: a link that has no keys yet. -/
def new (initiator : Bool) (destination : DestinationKey) (mode : UInt8) (placeholder : Bytes)
    (now : Nat) : Link :=
  { linkId := placeholder, destination := destination, pendingRequestsPoisoned := false
    state := .pending, status := .pending, teardownReason := .unset
    mode := mode, initiator := initiator, mtu := defaultMtu, mdu := 431
    rttKnown := false, requestTimeKnown := true, activatedAt := none
    lastInbound := now, lastOutbound := now, lastKeepalive := 0, lastProof := 0
    prvBytes := none, pubBytes := none, sigPubBytes := none
    peerPubBytes := none, peerSigPubBytes := none, sharedKey := none, derivedKey := none
    remoteIdentity := none, keepalive := 360, staleTime := 720
    staleSince := none, staleGrace := 5, watchdogLock := false
    closings := 0 }

/-- `initiate_prepare`: the keys and the link request, and the link id that
follows from it. -/
def initiatePrepare (c : Crypto) (l : Link) (prv : Bytes.Block 32) (sigPub : Bytes.Block 32)
    (destType : UInt8) (destHash : Bytes.Block 16) : Except String Packet × Link :=
  if ¬ l.initiator then (.error "Cannot initiate inbound link", l)
  else
    let l := { l with
      prvBytes := some prv.1, pubBytes := some (c.publicKey prv.1).1
      sigPubBytes := some sigPub.1 }
    match signallingBytes defaultMtu l.mode with
    | .error e => (.error e, l)
    | .ok bytes =>
        let data := (c.publicKey prv.1).1 ++ sigPub.1 ++ bytes
        let packet : Packet :=
          { raw := [(destType <<< 2) ||| 2, 0] ++ destHash.1 ++ [0] ++ data
            header2 := false, packetType := .linkRequest, context := 0, data := data }
        (.ok packet, { l with
          linkId := (linkIdFromLrPacket c packet).1, requestTimeKnown := true })

/-- What `prove_with_identity` signs. -/
def proofSignedData (l : Link) : Except String Bytes :=
  (signallingBytes l.mtu l.mode).bind fun bytes =>
    match l.pubBytes with
    | none => .error "Own public key not available for proof"
    | some pub =>
        match l.sigPubBytes with
        | none => .error "Own signing public key not available for proof"
        | some sigPub => .ok (l.linkId ++ pub ++ sigPub ++ bytes)

/-- `Packet::pack` of a proof, to the MTU of the link: flags, hops, link id, context and data.
Nothing else makes its `send` fail; that no interface takes it does not. -/
def packProof (l : Link) (proofData : Bytes) : Except String Bytes :=
  let size := 2 + l.linkId.length + 1 + proofData.length
  if l.mtu < size then
    .error ("Packet size of " ++ toString size ++ " exceeds MTU of " ++ toString l.mtu ++ " bytes")
  else .ok proofData

/-- `prove_with_identity`: the data of the proof packet that is sent, with the signature
function of the identity. -/
def proveWithIdentity (sign : Bytes → Bytes) (l : Link) : Except String Bytes :=
  (proofSignedData l).bind fun signed =>
    (signallingBytes l.mtu l.mode).bind fun bytes =>
      packProof l (sign signed ++ l.pubBytes.getD [] ++ bytes)

/-- The link of `validate_request` before the key exchange. -/
def requestedLink (c : Crypto) (publicKey : Bytes) (packet : Packet) (prv : Bytes.Block 32)
    (placeholder : Bytes) (now : Nat) : Link :=
  let l := new false (.key publicKey) modeDefault placeholder now
  updateMdu { l with
    peerPubBytes := some (packet.data.take 32)
    peerSigPubBytes := some ((packet.data.drop 32).take 32)
    linkId := (linkIdFromLrPacket c packet).1
    mtu := (mtuFromLrPacket packet.data).getD l.mtu
    mode := modeFromLrPacket packet.data
    prvBytes := some prv.1
    pubBytes := some (c.publicKey prv.1).1
    sigPubBytes := some (publicKey.drop 32) }

/-- `validate_request`: the responder's link and the data of its proof. -/
def validateRequest (c : Crypto) (owner : DestinationKey) (sign : Bytes → Bytes)
    (packet : Packet) (prv : Bytes.Block 32) (placeholder : Bytes) (now : Nat) :
    Except String (Link × Bytes) :=
  if packet.data.length ≠ ecPubSize ∧ packet.data.length ≠ ecPubSize + linkMtuSize then
    .error ("Invalid link request data length: " ++ toString packet.data.length ++
      " (expected 64 or 67)")
  else
    match owner with
    | .key publicKey =>
        if publicKey.length ≠ 64 then .error "Invalid destination public key length"
        else
          match handshake c (requestedLink c publicKey packet prv placeholder now) with
          | (.error e, _) => .error e
          | (.ok (), l) =>
              (proveWithIdentity sign l).map fun proof =>
                ({ l with lastProof := now, lastInbound := now }, proof)
    | .noKey => .error "Identity has no public key"
    | _ => .error "Destination has no identity for link proof"

/-! ## The proof at the initiator -/

/-- The lengths of a link proof without and with signalling bytes. -/
def proofLength (data : Bytes) : Bool :=
  data.length = sigLength + ecPubSize / 2 ∨ data.length = sigLength + ecPubSize / 2 + linkMtuSize

/-- The ephemeral key in a link proof. -/
def proofPub (data : Bytes) : Bytes := (data.drop sigLength).take (ecPubSize / 2)

/-- The public key of the destination's identity. -/
def destinationKey (l : Link) : Except String Bytes :=
  match l.destination with
  | .poisoned => .error "Destination lock poisoned"
  | .noIdentity => .error "Missing destination identity on link"
  | .noKey => .error "Identity has no public key"
  | .key publicKey =>
      if publicKey.length ≠ 64 then .error "Invalid destination public key length"
      else .ok publicKey

/-- What the initiator expects to be signed. -/
def expectedSignedData (l : Link) (data peerSigPub : Bytes) : Except String Bytes :=
  let signed := l.linkId ++ proofPub data ++ peerSigPub
  if data.length = sigLength + ecPubSize / 2 + linkMtuSize then
    (signallingBytes ((mtuFromLpPacket data).getD defaultMtu) (modeFromLpPacket data)).map
      fun bytes => signed ++ bytes
  else .ok signed

/-- The link is activated: times, MTU and keepalive. -/
def activate (l : Link) (data : Bytes) (r : Readings) : Link :=
  let l := { l with
    rttKnown := l.rttKnown || l.requestTimeKnown
    state := .active, status := .active, activatedAt := some r.now
    lastProof := r.now, lastInbound := r.now, lastOutbound := r.now }
  let l :=
    match mtuFromLpPacket data with
    | some mtu => updateMdu { l with mtu := mtu }
    | none => l
  updateKeepalive l r

/-- The LRRTT packet that follows the activation. -/
def sendRtt (c : Crypto) (l : Link) (r : Readings) : LinkResult :=
  if l.rttKnown then
    match encrypt c l r.vector r.rttData with
    | .error e => (.error e, l)
    | .ok _ => (.ok (), hadOutbound l r.now false)
  else (.ok (), l)

/-- The signature of the proof is checked, and the link is activated. -/
def checkSignature (c : Crypto) (data publicKey : Bytes) (r : Readings) (l : Link) : LinkResult :=
  match expectedSignedData l data (publicKey.drop 32) with
  | .error e => (.error e, l)
  | .ok signed =>
      if validate c publicKey (data.take sigLength) signed then sendRtt c (activate l data r) r
      else (.error "Invalid link proof signature", l)

/-- `handle_proof_packet`. The proof of a resource is checked on a thread of
its own. -/
def handleProofPacket (c : Crypto) (l : Link) (packet : Packet) (r : Readings) : LinkResult :=
  if packet.context = Packet.resourcePrf then (.ok (), l)
  else if ¬ l.initiator ∨ l.state ≠ .pending then (.ok (), l)
  else if ¬ proofLength packet.data then (.error "Invalid link proof packet length", l)
  else if modeFromLpPacket packet.data ≠ l.mode then
    (.error "Invalid link mode in proof packet", l)
  else
    match destinationKey l with
    | .error e => (.error e, l)
    | .ok publicKey =>
        (loadPeer l (proofPub packet.data) (publicKey.drop 32)).andThen fun l =>
          (handshake c l).andThen (checkSignature c packet.data publicKey r)

end Link

end Reticulum
