import Mathlib.Algebra.GroupWithZero.Nat
import Reticulum.Lib.Bytes

/-!
# Resources

The data of `src/resource.rs`: the status of a transfer, the fields of a
`Resource` that decide what it requests, sends, stores and concludes, and the
effects its operations have on the link and on the application.

## Implementation notes

One structure serves the sending and the receiving end, as in the source.
`hashmap` and `hashmap_raw` are rows of 4-byte map hashes. Clock readings and
data rates are `f64` in the source; here an operation is given the outcome of
every comparison on them in `Readings`, so a statement about all readings
covers every clock. Of `rtt`, `req_sent` and `req_resp` only whether they are
set is kept. Log lines, progress callbacks, sizes shown to the application and
file paths are left out.
-/

namespace Reticulum

inductive ResourceStatus
  | none
  | queued
  | advertised
  | transferring
  | awaitingProof
  | assembling
  | complete
  | failed
  | corrupt
  | rejected
  deriving DecidableEq, Repr

/-- `status as u8`. -/
def ResourceStatus.code : ResourceStatus → Nat
  | .none => 0x00
  | .queued => 0x01
  | .advertised => 0x02
  | .transferring => 0x03
  | .awaitingProof => 0x04
  | .assembling => 0x05
  | .complete => 0x06
  | .failed => 0x07
  | .corrupt => 0x08
  | .rejected => 0x09

namespace Resource

/-- The `MAPHASH_LEN` bytes that name a part. -/
abbrev MapHash := Bytes.Block 4

instance instLawfulBEqMapHash : LawfulBEq MapHash := inferInstance

/-- A full hash, `HASHLENGTH / 8` bytes. -/
abbrev Digest := Bytes.Block 32

/-- The entry of a hashmap position that is not known yet. -/
def zeroHash : MapHash := ⟨[0, 0, 0, 0], rfl⟩

/-- `Resource::WINDOW`. -/
def initialWindow : Nat := 4

/-- `Resource::WINDOW_MIN`. -/
def initialWindowMin : Nat := 2

def windowMaxSlow : Nat := 10

def windowMaxVerySlow : Nat := 4

/-- `Resource::WINDOW_MAX_FAST`, which is also `WINDOW_MAX`. -/
def windowMaxFast : Nat := 75

def fastRateThreshold : Nat := windowMaxSlow - initialWindow - 2

def verySlowRateThreshold : Nat := 2

/-- `Resource::WINDOW_FLEXIBILITY`. -/
def initialWindowFlexibility : Nat := 4

/-- `Resource::MAX_RETRIES`. -/
def initialMaxRetries : Nat := 16

/-- `Resource::MAX_ADV_RETRIES`. -/
def initialMaxAdvRetries : Nat := 4

def maxEfficientSize : Nat := 1 * 1024 * 1024 - 1

def randomHashSize : Nat := 4

/-- `ResourceAdvertisement::HASHMAP_MAX_LEN`: what fits a link packet of
`link::MDU` bytes, less the overhead of an advertisement. -/
def hashmapMaxLen : Nat := (431 - 134) / 4

def collisionGuardSize : Nat := 2 * windowMaxFast + hashmapMaxLen

/-- A RESOURCE packet of the sender. -/
structure PartPacket where
  data : Bytes
  mapHash : MapHash
  sent : Bool
  deriving DecidableEq, Repr

end Resource

open Resource in
structure Resource where
  status : ResourceStatus
  initiator : Bool
  sdu : Nat
  data : Option Bytes
  encrypted : Bool
  compressed : Bool
  hasMetadata : Bool
  split : Bool
  callback : Bool
  hash : Digest
  randomHash : Bytes
  expectedProof : Bytes
  parts : List (Option Bytes)
  packets : List PartPacket
  hashmap : List MapHash
  hashmapHeight : Nat
  waitingForHmu : Bool
  consecutiveCompletedHeight : Int
  totalParts : Nat
  receivedCount : Nat
  outstandingParts : Nat
  window : Nat
  windowMax : Nat
  windowMin : Nat
  windowFlexibility : Nat
  retriesLeft : Nat
  maxRetries : Nat
  maxAdvRetries : Nat
  rttKnown : Bool
  reqSent : Bool
  reqResp : Bool
  fastRateRounds : Nat
  verySlowRateRounds : Nat
  sentParts : Nat
  receiverMinConsecutiveHeight : Nat
  segmentIndex : Nat
  totalSegments : Nat
  preparingNextSegment : Bool
  assemblyLock : Bool
  deriving DecidableEq, Repr

namespace Resource

/-- What an operation reads from the clock, the link and the interfaces. -/
structure Readings where
  /-- `link.is_active()` -/
  linkActive : Bool
  /-- the link is CLOSED or STALE -/
  linkDown : Bool
  /-- the watchdog's sleep time is negative -/
  timedOut : Bool
  /-- `packet.send()` returns `Ok` -/
  sendOk : Bool
  /-- an interface takes the part with this index -/
  carried : Nat → Bool
  /-- `link_ctx.rtt.is_some()` -/
  linkRttKnown : Bool
  /-- the time since the request is positive -/
  rttPositive : Bool
  /-- `req_resp_rtt_rate > RATE_FAST` -/
  respRateFast : Bool
  /-- `now() - req_sent != 0.0` -/
  sinceRequest : Bool
  /-- `req_data_rtt_rate > RATE_FAST` -/
  dataRateFast : Bool
  /-- `req_data_rtt_rate < RATE_VERY_SLOW` -/
  dataRateVerySlow : Bool

/-- The control packets of a cancelled transfer. -/
inductive Control
  | icl
  | rcl
  deriving DecidableEq, Repr

/-- What an operation of a resource does outside of it. -/
inductive Effect
  /-- a RESOURCE packet -/
  | part (data : Bytes)
  /-- a RESOURCE_REQ packet -/
  | req (data : Bytes)
  /-- a RESOURCE_HMU packet -/
  | hmu (segment : Nat) (hashmap : Bytes)
  /-- the advertisement again -/
  | adv
  /-- a RESOURCE_PRF packet -/
  | proof (data : Bytes)
  /-- the cached proof is asked for -/
  | cacheRequest
  /-- RESOURCE_ICL or RESOURCE_RCL -/
  | control (context : Control)
  /-- `next_segment.cancel()` -/
  | cancelNext
  /-- `prepare_next_segment()` -/
  | prepareNext
  /-- `advertise_shared(next_segment)`, or the failure without one -/
  | advertiseNext
  /-- `link.cancel_outgoing_resource` -/
  | cancelOutgoing
  /-- `link.cancel_incoming_resource` -/
  | cancelIncoming
  /-- `link.teardown()` -/
  | teardown
  /-- `conclude_on_link()` -/
  | conclude
  /-- the application's callback, on a copy -/
  | callback (copy : Resource)
  /-- a thread that assembles this copy -/
  | assemble (copy : Resource)
  deriving DecidableEq

/-- A subtraction of `usize` values, which wraps. -/
def usizeSub (a b : Nat) : Nat := (a + 2 ^ 64 - b) % 2 ^ 64

end Resource

end Reticulum
