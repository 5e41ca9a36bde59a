import Reticulum.Transport.Basic

/-!
# Announces

`Identity::validate_announce`, the fields that `Transport::inbound` takes from
an announce, and what it does with an announce that it holds to be valid
(`src/identity.rs`, `src/transport.rs`).

## Implementation notes

An identity that was read from an announce is its public key. The processing of
an announce is cut into the steps of the source, each a function of the state
and the packet.
-/

namespace Reticulum.Transport

open Wire (DestinationType)

/-- `KEYSIZE / 8`. -/
def keyLen : Nat := 64

/-- `NAME_HASH_LENGTH / 8`. -/
def nameHashLen : Nat := 10

/-- `RANDOM_BLOB_LEN`. -/
def randomLen : Nat := 10

/-- `RATCHETSIZE / 8`. -/
def ratchetSize : Nat := 32

/-- `SIGLENGTH / 8`. -/
def signatureLen : Nat := 64

def flagSet : UInt8 := 1

def pathResponse : UInt8 := 0x0B

def modeAccessPoint : UInt8 := 3

def modeRoaming : UInt8 := 4

def apPathTime : ℚ := 60 * 60 * 24

def roamingPathTime : ℚ := 60 * 60 * 6

def localRebroadcastsMax : UInt8 := 2

def pathfinderR : UInt8 := 1

def pathfinderRw : ℚ := 1 / 2

def localClientAnnouncePace : ℚ := 3 / 5

def lastSeenRefreshSecs : Nat := 3600

/-- `data[start..start + length]`. -/
def slice (data : Bytes) (start length : Nat) : Bytes := (data.drop start).take length

/-- The length of the ratchet that the context flag announces. -/
def ratchetLen (contextFlag : UInt8) : Nat := if contextFlag = flagSet then ratchetSize else 0

/-- Where the signature of an announce starts. -/
def signatureStart (contextFlag : UInt8) : Nat :=
  keyLen + nameHashLen + randomLen + ratchetLen contextFlag

/-- What the signature of an announce is made over. -/
def announceSignedData (data destHash : Bytes) (contextFlag : UInt8) : Bytes :=
  destHash ++ data.take keyLen ++ slice data keyLen nameHashLen ++
    slice data (keyLen + nameHashLen) randomLen ++
    slice data (keyLen + nameHashLen + randomLen) (ratchetLen contextFlag) ++
    data.drop (signatureStart contextFlag + signatureLen)

def validateAnnounce (c : Crypto) (packet : Bytes) (destinationHash publicKey : Option Bytes)
    (contextFlag : UInt8) : Bool :=
  if packet.length < keyLen + nameHashLen + randomLen + signatureLen then false
  else
    match destinationHash, publicKey with
    | some destHash, some pubKeyBytes =>
        if pubKeyBytes.length ≠ keyLen then false
        else if packet.length < signatureStart contextFlag + signatureLen then false
        else
          let signingPub := slice pubKeyBytes 32 32
          let signature := slice packet (signatureStart contextFlag) signatureLen
          if !c.isVerifyingKey signingPub then false
          else if !c.verify signingPub signature (announceSignedData packet destHash contextFlag)
          then false
          else if pubKeyBytes ≠ packet.take keyLen then false
          else
            let hashMaterial := slice packet keyLen nameHashLen ++
              (c.truncatedHash (packet.take keyLen)).1
            (c.truncatedHash hashMaterial).1 == destHash
    | _, _ => false

/-- `validate_announce` as `inbound` calls it: with the key that the packet
carries. -/
def validAnnounce (c : Crypto) (p : Wire.Packet) : Bool :=
  validateAnnounce c p.data p.destinationHash (some (p.data.take keyLen)) p.contextFlag

/-- `Transport::name_hash_for_aspect_filter`: the text before the first dot must
not be empty. -/
def nameHashForAspectFilter (c : Crypto) (filter : Bytes) : Option Bytes :=
  match filter with
  | [] => none
  | first :: _ =>
      if first = 0x2E then none else some ((c.fullHash filter).1.take nameHashLen)

def extractAnnounceNameHash (p : Wire.Packet) : Option Bytes :=
  if p.data.length < keyLen + nameHashLen then none else some (slice p.data keyLen nameHashLen)

def extractAnnounceAppData (p : Wire.Packet) : Option Bytes :=
  let offset := signatureStart p.contextFlag + signatureLen
  if p.data.length ≤ offset then none else some (p.data.drop offset)

def extractAnnounceRatchet (p : Wire.Packet) : Option Bytes :=
  if p.contextFlag ≠ flagSet then none
  else
    let start := keyLen + nameHashLen + randomLen
    if p.data.length < start + ratchetSize then none else some (slice p.data start ratchetSize)

/-- `Transport::extract_announce_identity`, as the public key. -/
def extractAnnounceIdentity (c : Crypto) (p : Wire.Packet) : Option Bytes :=
  if p.data.length < keyLen then none
  else if c.isVerifyingKey (slice p.data 32 32) then some (p.data.take keyLen)
  else none

/-- `known_destinations::merge`. -/
def mergeKnown (existing : Option KnownDestination) (publicKey : Bytes) (appData : Option Bytes)
    (now : Nat) : Option KnownDestination :=
  match existing with
  | none => some { publicKey := publicKey, appData := appData, lastSeen := now }
  | some existing =>
      if existing.publicKey ≠ publicKey ∨ (appData.isSome ∧ existing.appData ≠ appData) ∨
          lastSeenRefreshSecs ≤ now - existing.lastSeen then
        some { publicKey := publicKey
               appData := if appData.isSome then appData else existing.appData
               lastSeen := now }
      else none

/-- `Identity::remember_destination`: the map is updated even when the store
fails. -/
def rememberDestination (s : TransportState) (r : Reading) (destinationHash publicKey : Bytes)
    (appData : Option Bytes) : TransportState :=
  match mergeKnown (s.knownDestinations destinationHash) publicKey appData r.seconds with
  | none => s
  | some entry => { s with
      knownDestinations := s.knownDestinations.insert destinationHash entry }

def rememberRatchet (s : TransportState) (r : Reading) (destinationHash ratchetPub : Bytes) :
    TransportState :=
  if ratchetPub.length ≠ ratchetSize then s
  else
    let fresh := (s.knownRatchets destinationHash).any fun existing =>
      existing.publicKey == ratchetPub && r.seconds ≤ existing.timestamp + r.ratchetMaxAge
    if fresh then s
    else { s with
      knownRatchets := s.knownRatchets.insert destinationHash
        { publicKey := ratchetPub, timestamp := r.seconds } }

/-- The identity, the application data and the ratchet of an announce are
remembered. -/
def rememberAnnounce (c : Crypto) (s : TransportState) (r : Reading) (p : Wire.Packet) :
    TransportState :=
  match p.destinationHash, extractAnnounceIdentity c p with
  | some destinationHash, some publicKey =>
      let s := rememberDestination s r destinationHash publicKey (extractAnnounceAppData p)
      match extractAnnounceRatchet p with
      | some ratchet => rememberRatchet s r destinationHash ratchet
      | none => s
  | _, _ => s

/-- `admit_route` compares routes by hops, and equal ones by age: whether the
second is at least as bad as the first. -/
def noBetter (a b : PathEntry) : Bool :=
  a.hops < b.hops || (a.hops == b.hops && b.timestamp ≤ a.timestamp)

/-- The place of the worst route, the last one among equals. -/
def worstIndex (routes : List PathEntry) : Option Nat :=
  (routes.zipIdx.foldl (fun worst e =>
    match worst with
    | none => some e
    | some w => if noBetter w.1 e.1 then some e else some w) none).map Prod.snd

/-- The loop of `admit_route` that evicts routes, for at most `fuel` rounds. -/
def evictRoutes : Nat → List PathEntry → List PathEntry
  | 0, routes => routes
  | fuel + 1, routes =>
      if routes.length > maxPathsPerDest then
        match worstIndex routes with
        | some i => evictRoutes fuel (routes.eraseIdx i)
        | none => routes
      else routes

def admitRoute (routes : List PathEntry) (newEntry : PathEntry) : List PathEntry :=
  let routes := newEntry :: routes.filter fun e =>
    e.receivingInterface != newEntry.receivingInterface || e.nextHop != newEntry.nextHop
  evictRoutes routes.length routes

def randomBlobEmitted (blob : Bytes) : Nat :=
  (slice blob 5 5).foldl (fun acc b => acc * 256 + b.toNat) 0

def routeIsLive (interfaces : List InterfaceStub) (now : ℚ) (route : PathEntry) : Bool :=
  !route.isExpired now &&
    match (route.receivingInterface.bind (findInterface interfaces)).map (·.mode) with
    | some mode =>
        if mode = modeAccessPoint then now < route.timestamp + apPathTime
        else if mode = modeRoaming then now < route.timestamp + roamingPathTime
        else true
    | none => true

def announceIsNewEmission (routes : Option (List PathEntry)) (seen : Option (List Bytes))
    (blob : Bytes) (hops : UInt8) (isLive : PathEntry → Bool) : Bool :=
  match routes with
  | none | some [] => true
  | some (route :: routes) =>
      if (seen.getD []).contains blob then false
      else if ((seen.getD []).map randomBlobEmitted).foldl max 0 < randomBlobEmitted blob then true
      else if (route :: routes).any isLive then false
      else ((route :: routes).map (·.hops.toNat)).foldl min 255 < hops.toNat

/-- What an announce callback is started with. -/
structure AnnounceCallback where
  callback : Nat
  destinationHash : Bytes
  announcedIdentity : Bytes
  appData : Bytes
  packetHash : Option Bytes
  isPathResponse : Bool
  deriving DecidableEq

/-- What the discovery handler is called with. -/
structure InterfaceAnnounce where
  destinationHash : Bytes
  announcedIdentity : Bytes
  appData : Bytes
  deriving DecidableEq

/-- Whether the filter of a handler lets the announce through. A filter without a
name lets every announce through. -/
def passesFilter (c : Crypto) (filter : Option Bytes) (p : Wire.Packet) : Bool :=
  match filter.bind (nameHashForAspectFilter c) with
  | none => true
  | some filterHash => extractAnnounceNameHash p == some filterHash

/-- The callbacks that an announce starts. -/
def announceCallbacks (c : Crypto) (s : TransportState) (p : Wire.Packet) :
    List AnnounceCallback :=
  match p.destinationHash, extractAnnounceIdentity c p with
  | some destinationHash, some announcedIdentity =>
      let isPathResponse : Bool := p.context = pathResponse
      (s.announceHandlers.filter fun handler =>
        (!isPathResponse || handler.receivePathResponses) &&
          passesFilter c handler.aspectFilter p).map fun handler =>
        { callback := handler.callback
          destinationHash := destinationHash
          announcedIdentity := announcedIdentity
          appData := (extractAnnounceAppData p).getD []
          packetHash := p.packetHash
          isPathResponse := isPathResponse }
  | _, _ => []

/-- What the discovery handler is called with, for an announce that is not a path
response. -/
def interfaceAnnounce (c : Crypto) (s : TransportState) (p : Wire.Packet) :
    Option InterfaceAnnounce :=
  if p.context = pathResponse then none
  else do
    let filter ← s.interfaceAnnounceHandler
    let filterHash ← nameHashForAspectFilter c filter
    let nameHash ← extractAnnounceNameHash p
    if nameHash = filterHash then
      let announcedIdentity ← extractAnnounceIdentity c p
      let appData ← extractAnnounceAppData p
      some { destinationHash := p.destinationHash.getD []
             announcedIdentity := announcedIdentity
             appData := appData }
    else none

section

variable (s : TransportState) (r : Reading)

/-- An announce that comes back with more hops than it was queued with was
rebroadcast by a neighbour: it is counted, and the entry may go. -/
def heardRebroadcast (p : Wire.Packet)
    (destinationHash : Bytes) : TransportState :=
  if s.transportEnabled && p.transportId.isSome then
    match s.announceTable destinationHash with
    | none => s
    | some entry =>
        if 0 < p.hops ∧ entry.hops < p.hops then
          if 0 < entry.retries ∧
              (localRebroadcastsMax.toNat ≤ entry.localRebroadcasts.toNat + 1 ∨
                r.now < entry.retransmitTimeout) then
            { s with announceTable := s.announceTable.remove destinationHash }
          else
            { s with
              announceTable := s.announceTable.insert destinationHash
                { entry with localRebroadcasts := saturatingSucc entry.localRebroadcasts } }
        else s
  else s

/-- The random blob of an announce. -/
def announceBlob (p : Wire.Packet) : Option Bytes :=
  let start := keyLen + nameHashLen
  if start + randomLen ≤ p.data.length then some (slice p.data start randomLen) else none

/-- Where an announce was received from: the transport id, or the destination
itself. -/
def receivedFrom (p : Wire.Packet) (destinationHash : Bytes) : Bytes :=
  p.transportId.getD destinationHash

/-- The route that an announce brings. -/
def announcedRoute (p : Wire.Packet) (destinationHash : Bytes) : PathEntry :=
  { timestamp := r.now
    nextHop := receivedFrom p destinationHash
    hops := p.hops
    expires := r.now + destinationTimeout
    receivingInterface := p.receivingInterface
    packetHash := p.packetHash.getD [] }

/-- Whether the announce is a new emission, against the routes as they are. -/
def isNewEmission (p : Wire.Packet)
    (destinationHash : Bytes) : Bool :=
  match announceBlob p with
  | some blob => announceIsNewEmission (s.pathTable destinationHash)
      (s.pathRandomBlobs destinationHash) blob p.hops (routeIsLive s.interfaces r.now)
  | none => true

/-- The blobs of a destination after a new emission. A destination without routes
starts a fresh list. -/
def recordBlob (p : Wire.Packet) (destinationHash : Bytes) :
    Table (List Bytes) :=
  match announceBlob p with
  | none => s.pathRandomBlobs
  | some blob =>
      let known := ((s.pathTable destinationHash).getD []).isEmpty = false
      let blobs := if known then (s.pathRandomBlobs destinationHash).getD [] else []
      let blobs := if blobs.contains blob then blobs else blobs ++ [blob]
      s.pathRandomBlobs.insert destinationHash (blobs.drop (blobs.length - maxRandomBlobs))

/-- `Transport::record_tunnel_path`, for the route of an announce. -/
def recordTunnelPath (p : Wire.Packet)
    (destinationHash : Bytes) : Table Tunnel :=
  match (p.receivingInterface.bind (findInterface s.interfaces)).bind (·.tunnelId) with
  | none => s.tunnels
  | some tunnelId =>
      match s.tunnels tunnelId with
      | none => s.tunnels
      | some tunnel => s.tunnels.insert tunnelId { tunnel with
          paths := tunnel.paths.insert destinationHash
            { timestamp := r.now
              nextHop := receivedFrom p destinationHash
              hops := p.hops
              expires := r.now + destinationTimeout
              randomBlobs := (announceBlob p).toList
              receivingInterface := p.receivingInterface
              packetHash := p.packetHash.getD [] } }

/-- The route, the blob and the tunnel's record of an announce, and the cached
announce. -/
def admitAnnounce (p : Wire.Packet)
    (destinationHash : Bytes) : TransportState :=
  { s with
    pathTable := s.pathTable.insert destinationHash
      (admitRoute ((s.pathTable destinationHash).getD []) (announcedRoute r p destinationHash))
    pathRandomBlobs :=
      if isNewEmission s r p destinationHash then recordBlob s p destinationHash
      else s.pathRandomBlobs
    pathTableDirty := true
    tunnels := recordTunnelPath s r p destinationHash
    pathVerifiedThisSession := s.pathVerifiedThisSession.insert destinationHash
    announceCache :=
      match p.packetHash with
      | none => s.announceCache
      | some hash => s.announceCache.insert hash
          { raw := p.raw, interfaceName := p.receivingInterface } }

/-- The frame that passes an announce on, from this node. -/
def announceRaw (p : Wire.Packet) (destinationHash : Bytes)
    (context : UInt8) : Bytes :=
  let flags := Wire.Packet.packFlags Wire.header2 (p.contextFlag &&& 1) modeTransport
    (p.destinationType.getD .single) Wire.announce
  [flags, p.hops] ++ s.identityHash.getD [] ++ p.destinationHash.getD destinationHash ++
    [context] ++ p.data

/-- A waiting discovery request for the destination is answered. -/
def answerDiscovery (p : Wire.Packet) (destinationHash : Bytes) :
    TransportState × List (String × Bytes) :=
  if s.transportEnabled then
    match s.discoveryPathRequests destinationHash with
    | none => (s, [])
    | some request =>
        ({ s with discoveryPathRequests := s.discoveryPathRequests.remove destinationHash },
          request.requestingInterface.toList.map fun name =>
            (name, announceRaw s p destinationHash pathResponse))
  else (s, [])

/-- `Transport::is_local_client_interface_locked` of the interface that a packet
came from. -/
def fromLocalClient (p : Wire.Packet) : Bool :=
  p.receivingInterface.any fun name => s.localClientInterfaces.any fun i => i.name == name

/-- A new emission is put into `announce_table`, from which it is rebroadcast. -/
def queueRebroadcast (p : Wire.Packet)
    (destinationHash : Bytes) (newEmission : Bool) : TransportState :=
  if (s.transportEnabled || fromLocalClient s p) && p.context != pathResponse && newEmission then
    { s with
      announceTable := s.announceTable.insert destinationHash
        { timestamp := r.now
          retransmitTimeout :=
            if fromLocalClient s p then r.now else r.now + r.random * pathfinderRw
          retries := if fromLocalClient s p then pathfinderR else 0
          receivedFrom := receivedFrom p destinationHash
          hops := p.hops
          packet := p
          localRebroadcasts := 0
          blockRebroadcasts := false
          attachedInterface := none } }
  else s

/-- The announce goes to one local client: at once, or later when the last one was
too recent. -/
def paceLocalClient (raw : Bytes)
    (acc : TransportState × List (String × Bytes)) (name : String) :
    TransportState × List (String × Bytes) :=
  let (s, sent) := acc
  let last := (s.clientAnnouncePacing name).getD (r.now - localClientAnnouncePace)
  let dispatchAt := max r.now (last + localClientAnnouncePace)
  let s := { s with
    clientAnnouncePacing := Function.update s.clientAnnouncePacing name (some dispatchAt) }
  if dispatchAt ≤ r.now + 1 / 1000 then (s, sent ++ [(name, raw)])
  else ({ s with
    pendingLocalAnnounces := s.pendingLocalAnnounces ++ [(dispatchAt, name, raw)] }, sent)

/-- The announce goes to the local clients it did not come from. -/
def forwardToLocalClients (p : Wire.Packet)
    (destinationHash : Bytes) : TransportState × List (String × Bytes) :=
  let context := if p.context = pathResponse then pathResponse else 0
  let names := (s.localClientInterfaces.map (·.name)).filter fun name =>
    p.receivingInterface != some name
  names.foldl (paceLocalClient r (announceRaw s p destinationHash context)) (s, [])

/-- What `inbound` does with an announce that it holds to be valid: the state, and
the frames it sends. An announce of a destination of this node stops early. -/
def processAnnounce (p : Wire.Packet) :
    TransportState × List (String × Bytes) :=
  match p.destinationHash with
  | none => (s, [])
  | some destinationHash =>
      let s := heardRebroadcast s r p destinationHash
      if s.destinations.contains destinationHash then (s, [])
      else
        let newEmission := isNewEmission s r p destinationHash
        let s := admitAnnounce s r p destinationHash
        let (s, answers) := answerDiscovery s p destinationHash
        let s := queueRebroadcast s r p destinationHash newEmission
        let (s, forwards) := forwardToLocalClients s r p destinationHash
        (s, answers ++ forwards)

end

end Reticulum.Transport
