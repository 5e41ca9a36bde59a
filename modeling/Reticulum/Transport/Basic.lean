import Mathlib.Algebra.Order.Ring.Rat
import Mathlib.Logic.Function.Basic
import Reticulum.Packet.Wire

/-!
# The state of a transport node

The tables of `TransportState` (`src/transport.rs`) that taking in a frame reads
and writes, and the choice of a route among those known for a destination.

## Implementation notes

A hash map is a function to `Option`, a hash set a list read by membership. The
entries that the source keeps as vectors of tagged values are structures with
one field a tag. Times and bitrates are rational numbers. The known
destinations and ratchets of `src/identity.rs` and the two packet caches, which
are globals of their own in the source, are fields here. Counters, log lines
and `global_blobs`, which nothing reads, are left out. A registered
destination is its hash.
-/

namespace Reticulum.Transport

/-- A hash map with byte strings as keys. -/
abbrev Table (V : Type*) := Bytes → Option V

namespace Table

variable {V : Type*}

def insert (t : Table V) (key : Bytes) (value : V) : Table V :=
  Function.update t key (some value)

def remove (t : Table V) (key : Bytes) : Table V := Function.update t key none

/-- `contains_key`. -/
def contains (t : Table V) (key : Bytes) : Bool := (t key).isSome

@[simp] theorem insert_self (t : Table V) (key : Bytes) (value : V) :
    t.insert key value key = some value := by
  simp [insert]

theorem insert_of_ne (t : Table V) {key other : Bytes} (h : other ≠ key) (value : V) :
    t.insert key value other = t other := by
  simp [insert, h]

end Table

structure InterfaceStub where
  name : String
  online : Bool
  bitrate : Option ℚ
  hwMtu : Option Nat
  autoconfigureMtu : Bool
  fixedMtu : Bool
  mode : UInt8
  tunnelId : Option Bytes
  lastInboundAt : ℚ
  deriving DecidableEq

/-- `PathEntry`: a route to a destination. -/
structure PathEntry where
  timestamp : ℚ
  nextHop : Bytes
  hops : UInt8
  expires : ℚ
  receivingInterface : Option String
  packetHash : Bytes
  deriving DecidableEq

/-- An entry of `link_table`. -/
structure LinkEntry where
  timestamp : ℚ
  nextHopTransport : Bytes
  nextHopInterface : Option String
  remainingHops : UInt8
  receivedInterface : Option String
  takenHops : UInt8
  destinationHash : Bytes
  validated : Bool
  proofTimeout : ℚ
  deriving DecidableEq

/-- An entry of `reverse_table`. -/
structure ReverseEntry where
  receivedInterface : Option String
  outboundInterface : Option String
  timestamp : ℚ
  deriving DecidableEq

/-- An entry of `announce_table`. -/
structure AnnounceEntry where
  timestamp : ℚ
  retransmitTimeout : ℚ
  retries : UInt8
  receivedFrom : Bytes
  hops : UInt8
  packet : Wire.Packet
  localRebroadcasts : UInt8
  blockRebroadcasts : Bool
  attachedInterface : Option String

/-- A route that a tunnel has recorded. -/
structure TunnelPath where
  timestamp : ℚ
  nextHop : Bytes
  hops : UInt8
  expires : ℚ
  randomBlobs : List Bytes
  receivingInterface : Option String
  packetHash : Bytes
  deriving DecidableEq

/-- An entry of `tunnels`. -/
structure Tunnel where
  tunnelId : Bytes
  interface : Option String
  paths : Table TunnelPath
  expires : ℚ

structure AnnounceRateEntry where
  last : ℚ
  rateViolations : Nat
  blockedUntil : ℚ
  timestamps : List ℚ
  deriving DecidableEq

structure DiscoveryPathRequest where
  destinationHash : Bytes
  timeout : ℚ
  requestingInterface : Option String
  deriving DecidableEq

/-- What routing reads of a control destination. -/
structure ControlDestination where
  hash : Bytes
  appName : String
  aspects : List String
  deriving DecidableEq

/-- `AnnounceHandler`: the filter as text, and a name for the callback. -/
structure AnnounceHandler where
  aspectFilter : Option Bytes
  receivePathResponses : Bool
  callback : Nat
  deriving DecidableEq

structure KnownDestination where
  publicKey : Bytes
  appData : Option Bytes
  lastSeen : Nat
  deriving DecidableEq

structure RatchetEntry where
  publicKey : Bytes
  timestamp : Nat
  deriving DecidableEq

structure CachedPacketEntry where
  raw : Bytes
  interfaceName : Option String
  deriving DecidableEq

/-- `TransportState`. `identityHash` is the hash of the node's identity, when it
has one. -/
structure TransportState where
  identityHash : Option Bytes
  transportEnabled : Bool
  isConnectedToSharedInstance : Bool
  dropAnnounces : Bool
  announceWatchlist : List Bytes
  interfaces : List InterfaceStub
  localClientInterfaces : List InterfaceStub
  destinations : List Bytes
  controlHashes : List Bytes
  controlDestinations : List ControlDestination
  packetHashlist : List Bytes
  packetHashlistPrev : List Bytes
  hashlistMaxsize : Nat
  validatedAnnounceHashes : List Bytes
  validatedAnnounceHashesPrev : List Bytes
  announceRateTable : Table AnnounceRateEntry
  announceTable : Table AnnounceEntry
  pathTable : Table (List PathEntry)
  pathRandomBlobs : Table (List Bytes)
  pathTableDirty : Bool
  pathVerifiedThisSession : List Bytes
  reverseTable : Table ReverseEntry
  linkTable : Table LinkEntry
  tunnels : Table Tunnel
  discoveryPathRequests : Table DiscoveryPathRequest
  announceHandlers : List AnnounceHandler
  interfaceAnnounceHandler : Option Bytes
  clientAnnouncePacing : String → Option ℚ
  pendingLocalAnnounces : List (ℚ × String × Bytes)
  knownDestinations : Table KnownDestination
  knownRatchets : Table RatchetEntry
  packetCache : Table CachedPacketEntry
  announceCache : Table CachedPacketEntry

/-- A node that has just started, with no interface and no identity. -/
def TransportState.start : TransportState :=
  { identityHash := none
    transportEnabled := false
    isConnectedToSharedInstance := false
    dropAnnounces := false
    announceWatchlist := []
    interfaces := []
    localClientInterfaces := []
    destinations := []
    controlHashes := []
    controlDestinations := []
    packetHashlist := []
    packetHashlistPrev := []
    hashlistMaxsize := 1000000
    validatedAnnounceHashes := []
    validatedAnnounceHashesPrev := []
    announceRateTable := fun _ => none
    announceTable := fun _ => none
    pathTable := fun _ => none
    pathRandomBlobs := fun _ => none
    pathTableDirty := false
    pathVerifiedThisSession := []
    reverseTable := fun _ => none
    linkTable := fun _ => none
    tunnels := fun _ => none
    discoveryPathRequests := fun _ => none
    announceHandlers := []
    interfaceAnnounceHandler := none
    clientAnnouncePacing := fun _ => none
    pendingLocalAnnounces := []
    knownDestinations := fun _ => none
    knownRatchets := fun _ => none
    packetCache := fun _ => none
    announceCache := fun _ => none }

/-- What one call reads: the clock, the random source, and the clock in whole
seconds with the age a ratchet may have. -/
structure Reading where
  now : ℚ
  random : ℚ
  seconds : Nat
  ratchetMaxAge : Nat

/-- The reading of a call at time zero. -/
def Reading.zero : Reading := { now := 0, random := 0, seconds := 0, ratchetMaxAge := 0 }

def destinationTimeout : ℚ := 60 * 60 * 24 * 7

def maxPathsPerDest : Nat := 3

def maxRandomBlobs : Nat := 64

def broadcast : UInt8 := 0

def modeTransport : UInt8 := 1

/-- `insert` of a hash that may be missing into a hash set. -/
def insertHash (hashes : List Bytes) : Option Bytes → List Bytes
  | some hash => hashes.insert hash
  | none => hashes

/-- `saturating_add(1)` of a byte. -/
def saturatingSucc (n : UInt8) : UInt8 := if n = 255 then 255 else n + 1

namespace PathEntry

def isExpired (e : PathEntry) (now : ℚ) : Bool := e.expires ≤ now

def score (e : PathEntry) (interfaceBitrate : Option ℚ) : ℚ :=
  interfaceBitrate.getD 1000 / (e.hops.toNat + 1)

end PathEntry

/-- `find_interface_by_name`. -/
def findInterface (interfaces : List InterfaceStub) (name : String) : Option InterfaceStub :=
  interfaces.find? fun i => i.name == name

/-- The tests of `select_path_excluding` on one route: not expired, not over the
excluded interface, and over an interface that is registered and online. -/
def usable (interfaces : List InterfaceStub) (now : ℚ) (exclude : Option String)
    (e : PathEntry) : Bool :=
  !e.isExpired now &&
    match e.receivingInterface with
    | none => true
    | some name =>
        exclude != some name && ((findInterface interfaces name).map (·.online)).getD false

/-- The better of the best route so far and the next one: an equal score keeps
the earlier route. -/
def betterPath (interfaces : List InterfaceStub) (best : Option PathEntry) (e : PathEntry) :
    PathEntry :=
  let score (e : PathEntry) : ℚ :=
    e.score ((e.receivingInterface.bind (findInterface interfaces)).bind (·.bitrate))
  match best with
  | none => e
  | some b => if score e ≤ score b then b else e

/-- `Transport::select_path_excluding`, without the index. -/
def selectPathExcluding (table : Table (List PathEntry)) (interfaces : List InterfaceStub)
    (destinationHash : Bytes) (now : ℚ) (exclude : Option String) : Option PathEntry :=
  (table destinationHash).bind fun entries =>
    (entries.filter (usable interfaces now exclude)).foldl
      (fun best e => some (betterPath interfaces best e)) none

def selectPath (table : Table (List PathEntry)) (interfaces : List InterfaceStub)
    (destinationHash : Bytes) (now : ℚ) : Option PathEntry :=
  selectPathExcluding table interfaces destinationHash now none

/-- `min_by_key(|e| e.hops)`: the first of the routes with the fewest hops. -/
def minByHops (entries : List PathEntry) : Option PathEntry :=
  entries.foldl (fun best e =>
    match best with
    | none => some e
    | some b => if e.hops < b.hops then some e else some b) none

end Reticulum.Transport
