import Reticulum.Lib.Bytes

/-!
# Links

The data of `src/link.rs` that establishing, receiving and closing a link read
and write, and the packets a link handles.

## Implementation notes

The cryptographic crates are the parameter `Crypto`, `rmp_serde` and `rmpv` are
the parameter `Msgpack`. Times that the source keeps in whole seconds are
natural numbers. Of the `f64` values only what the watchdog compares is kept:
`keepalive`, `stale_time` and `stale_grace` as the `u64` they are cast to; what
an operation reads from the clock or computes in `f64` comes in `Readings`.
Statistics, interfaces' names, resources, channels and pending requests have no
part in these operations and are left out here.
-/

namespace Reticulum

/-- `STATE_PENDING` to `STATE_CLOSED`. -/
inductive LinkState
  | pending
  | handshake
  | active
  | stale
  | closed
  deriving DecidableEq, Repr

inductive TeardownReason
  | unset
  | timeout
  | initiatorClosed
  | destinationClosed
  deriving DecidableEq, Repr

/-- `DATA`, `ANNOUNCE`, `LINKREQUEST` and `PROOF`: the low bits of the flags. -/
inductive PacketType
  | data
  | announce
  | linkRequest
  | proof
  deriving DecidableEq, Repr

/-- `self.flags & 0b0000_0011`. -/
def PacketType.ofFlags (flags : UInt8) : PacketType :=
  if flags.toNat % 4 = 0 then .data
  else if flags.toNat % 4 = 1 then .announce
  else if flags.toNat % 4 = 2 then .linkRequest
  else .proof

/-- A packet as `Packet::unpack` leaves it. `header2` says that it carries a
transport id. -/
structure Packet where
  raw : Bytes
  header2 : Bool
  packetType : PacketType
  context : UInt8
  data : Bytes
  deriving DecidableEq, Repr

namespace Packet

/-- `TRUNCATED_HASHLENGTH / 8`. -/
def hashLength : Nat := 16

def resource : UInt8 := 0x01

def resourceAdv : UInt8 := 0x02

def resourcePrf : UInt8 := 0x05

def request : UInt8 := 0x09

def response : UInt8 := 0x0A

def keepalive : UInt8 := 0xFA

def linkIdentify : UInt8 := 0xFB

def linkClose : UInt8 := 0xFC

def lrrtt : UInt8 := 0xFE

/-- `Packet::unpack`: the header of one or two addresses, the context and the
data. -/
def unpack (raw : Bytes) : Option Packet :=
  match raw with
  | flags :: hops :: rest =>
      if 128 ≤ hops.toNat then none
      else
        let header2 := flags.toNat / 64 % 2 = 1
        let rest := if header2 then rest.drop hashLength else rest
        if header2 ∧ raw.length < 2 + hashLength * 2 + 1 then none
        else
          match rest.drop hashLength with
          | [] => none
          | _ :: [] => none
          | context :: data =>
              some { raw := raw, header2 := header2, packetType := .ofFlags flags
                     context := context, data := data }
  | _ => none

/-- `Packet::get_hashable_part`: the packet without its hops and transport
id. -/
def getHashablePart (p : Packet) : Bytes :=
  match p.raw with
  | [] => []
  | flags :: _ =>
      (flags &&& 0x0F) :: if p.header2 then p.raw.drop (hashLength + 2) else p.raw.drop 2

end Packet

/-- The crates `x25519-dalek`, `ed25519-dalek`, `hkdf`, `hmac`, `aes` and
`sha2`. -/
structure Crypto where
  /-- `X25519PublicKey::from` -/
  publicKey : Bytes → Bytes.Block 32
  /-- `X25519PrivateKey::diffie_hellman` -/
  diffieHellman : Bytes → Bytes → Bytes.Block 32
  /-- `Hkdf::<Sha256>::new(Some(salt), key)`, then `expand` to a length -/
  hkdf : Bytes → Bytes → (length : Nat) → Bytes.Block length
  /-- SHA-256 -/
  fullHash : Bytes → Bytes.Block 32
  /-- `verify` of an Ed25519 public key: signature, then data -/
  verify : Bytes → Bytes → Bytes → Bool
  /-- whether 32 bytes are an Ed25519 public key -/
  isVerifyingKey : Bytes → Bool
  /-- HMAC-SHA256: key, then data -/
  hmac : Bytes → Bytes → Bytes.Block 32
  /-- AES-256-CBC with PKCS7 padding: key, vector, plaintext -/
  aesEncrypt : Bytes → Bytes.Block 16 → Bytes → Bytes
  /-- fails on a bad length or padding -/
  aesDecrypt : Bytes → Bytes → Bytes → Option Bytes

def Crypto.truncatedHash (c : Crypto) (data : Bytes) : Bytes.Block 16 :=
  (c.fullHash data).take 16 (by decide)

/-- What `rmp_serde`, `rmpv` and `ResourceAdvertisement::unpack` make of a
plaintext. -/
structure Msgpack where
  /-- `from_slice::<f64>` succeeds -/
  isFloat : Bytes → Bool
  /-- an array of three elements or more, the second a binary -/
  isRequest : Bytes → Bool
  /-- an array of two elements or more, the first a binary -/
  isResponse : Bytes → Bool
  /-- `ResourceAdvertisement::unpack` succeeds -/
  isAdvertisement : Bytes → Bool

/-- What one call reads from its clocks and random source. -/
structure Readings where
  /-- `current_time` -/
  now : Nat
  /-- `now_seconds() >= request_time + establishment_timeout` -/
  establishmentOver : Bool
  /-- `keepalive_for_rtt(rtt) as u64` -/
  keepalive : Nat
  /-- `stale_time as u64` -/
  staleTime : Nat
  /-- `rtt_grace as u64` -/
  staleGrace : Nat
  /-- `initiator_keepalive.unwrap_or(keepalive) as u64` -/
  pongPeriod : Nat
  /-- the encoded `rtt` -/
  rttData : Bytes
  /-- the vector of an encryption -/
  vector : Bytes.Block 16

/-- The public key of the destination's identity, as the link reads it: the
lock may be poisoned, and there may be no identity or no key. -/
inductive DestinationKey
  | poisoned
  | noIdentity
  | noKey
  | key (publicKey : Bytes)
  deriving DecidableEq

/-- The fields of `Link`. -/
structure Link where
  linkId : Bytes
  destination : DestinationKey
  pendingRequestsPoisoned : Bool
  state : LinkState
  status : LinkState
  teardownReason : TeardownReason
  mode : UInt8
  initiator : Bool
  mtu : Nat
  mdu : Nat
  rttKnown : Bool
  requestTimeKnown : Bool
  activatedAt : Option Nat
  lastInbound : Nat
  lastOutbound : Nat
  lastKeepalive : Nat
  lastProof : Nat
  prvBytes : Option Bytes
  pubBytes : Option Bytes
  sigPubBytes : Option Bytes
  peerPubBytes : Option Bytes
  peerSigPubBytes : Option Bytes
  sharedKey : Option Bytes
  derivedKey : Option Bytes
  remoteIdentity : Option Bytes
  keepalive : Nat
  staleTime : Nat
  staleSince : Option Nat
  staleGrace : Nat
  watchdogLock : Bool
  /-- how often `link_closed` has run -/
  closings : Nat
  deriving DecidableEq

/-- The result of a fallible method, and the link it leaves behind. -/
abbrev LinkResult := Except String Unit × Link

/-- The next method runs only after this one has succeeded: the operator
`?`. -/
def LinkResult.andThen (result : LinkResult) (next : Link → LinkResult) : LinkResult :=
  match result with
  | (.ok (), l) => next l
  | (.error e, l) => (.error e, l)

namespace Link

def ecPubSize : Nat := 64

def linkMtuSize : Nat := 3

/-- `SIGLENGTH / 8`. -/
def sigLength : Nat := 64

/-- `reticulum::MTU`. -/
def defaultMtu : Nat := 500

def modeAes128Cbc : UInt8 := 0x00

def modeAes256Cbc : UInt8 := 0x01

def modeDefault : UInt8 := modeAes256Cbc

end Link

end Reticulum
