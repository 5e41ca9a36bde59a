import Reticulum.Link.Establish
import Reticulum.Transport.Basic

/-!
# Forwarding

The blocks of `Transport::inbound` (`src/transport.rs`) that pass a frame on
when it is not an announce: by the transport id, by the link table, by the path
table, and back along the way of a packet that a proof is for. At the end the
part of `Transport::outbound` that sends a packet of this node along a route.

## Implementation notes

Each block is a function of the state and the packet, in the order of the
source. What a block puts into `deferred_outbound` is the list it returns.
Sending returns the frames and the path requests for stale routes.
-/

namespace Reticulum.Transport

/-- The packet as the functions of `src/link.rs` read it. -/
def linkPacket (p : Wire.Packet) : Reticulum.Packet :=
  { raw := p.raw
    header2 := p.headerType = Wire.header2
    packetType := .ofFlags p.flags
    context := p.context
    data := p.data }

/-- `new_raw[1] = hops`. -/
def setHops (raw : Bytes) (hops : UInt8) : Bytes := raw.set 1 hops

section

variable (s : TransportState) (r : Reading)

/-- When the path table has an entry for the destination, the packet is taken to
be addressed to this node. -/
def injectTransportId (p : Wire.Packet) : Wire.Packet :=
  if p.packetType ≠ Wire.announce then
    match p.destinationHash, s.identityHash with
    | some destinationHash, some identityHash =>
        if s.pathTable.contains destinationHash then
          { p with transportId := some identityHash }
        else p
    | _, _ => p
  else p

/-- The frame that transit forwarding sends to a next hop with so many hops
remaining. -/
def transitRaw (p : Wire.Packet) (nextHop : Bytes) (remainingHops : UInt8) : Bytes :=
  if 1 < remainingHops then
    if p.headerType = Wire.header2 then
      if 2 + Wire.dstLen < p.raw.length ∧ nextHop.length = Wire.dstLen then
        (setHops p.raw p.hops).take 2 ++ nextHop ++ p.raw.drop (2 + Wire.dstLen)
      else p.raw
    else
      [(Wire.header2 <<< 6) ||| (modeTransport <<< 4) ||| (p.flags &&& 0x0F), p.hops] ++ nextHop ++
        p.raw.drop 2
  else if remainingHops = 1 ∧ p.headerType = Wire.header2 then
    let flags := (Wire.header1 <<< 6) ||| (broadcast <<< 4) ||| (p.flags &&& 0x0F)
    if 2 + Wire.dstLen * 2 < p.raw.length then [flags, p.hops] ++ p.raw.drop (2 + Wire.dstLen)
    else [flags, p.hops] ++ p.raw.drop 2
  else if remainingHops = 0 then setHops p.raw p.hops
  else p.raw

/-- The MTU that a link request may keep between two interfaces: none when the
outbound interface cannot signal it. -/
def clampMtu (p : Wire.Packet) (out : InterfaceStub) (mtu : Nat) :
    Option Nat :=
  match out.hwMtu with
  | none => none
  | some nhMtu =>
      if !out.autoconfigureMtu && !out.fixedMtu then none
      else
        let phMtu := (p.receivingInterface.bind (findInterface s.interfaces)).bind (·.hwMtu)
        some (min (min mtu (phMtu.getD mtu)) nhMtu)

/-- The signalling bytes at the end of a forwarded link request are kept,
lowered or cut off. -/
def clampSignalling (p : Wire.Packet) (outbound : Option String)
    (newRaw : Bytes) : Bytes :=
  match outbound.bind (findInterface s.interfaces), Link.mtuFromLrPacket p.data with
  | some out, some mtu =>
      match clampMtu s p out mtu with
      | none =>
          if Link.linkMtuSize ≤ newRaw.length then newRaw.take (newRaw.length - Link.linkMtuSize)
          else newRaw
      | some clamp =>
          if clamp < mtu then
            match Link.signallingBytes clamp (Link.modeFromLrPacket p.data) with
            | .ok signalling =>
                if Link.linkMtuSize ≤ newRaw.length then
                  newRaw.take (newRaw.length - Link.linkMtuSize) ++ signalling
                else newRaw
            | .error _ => newRaw
          else newRaw
  | _, _ => newRaw

/-- How long the proof of a forwarded link request may take, with
`ESTABLISHMENT_TIMEOUT_PER_HOP` 6 and `MTU` 500. -/
def proofTimeout (p : Wire.Packet) (remainingHops : UInt8) :
    ℚ :=
  let bitrate := (p.receivingInterface.bind (findInterface s.interfaces)).bind (·.bitrate)
  (bitrate.map fun b => 1 / b * 8 * 500).getD 0 + (r.now + 6 * max remainingHops.toNat 1)

/-- The route of transit forwarding: next hop, hops remaining and interface. -/
def transitRoute (p : Wire.Packet)
    (destinationHash : Bytes) : Bytes × UInt8 × Option String :=
  match selectPathExcluding s.pathTable s.interfaces destinationHash r.now
      p.receivingInterface with
  | some e => (e.nextHop, e.hops, e.receivingInterface)
  | none => ([], 0, none)

/-- The frame that transit forwarding sends along a route. -/
def transitFrame (p : Wire.Packet) (nextHop : Bytes) (remainingHops : UInt8)
    (outbound : Option String) : Bytes :=
  if p.packetType = Wire.linkRequest then
    clampSignalling s p outbound (transitRaw p nextHop remainingHops)
  else transitRaw p nextHop remainingHops

/-- What transit forwarding writes: a link request leaves an entry in the link table,
any other packet one in the reverse table, and the first route of the destination was
used. -/
def noteTransit (c : Crypto) (s : TransportState) (r : Reading) (p : Wire.Packet)
    (destinationHash nextHop : Bytes) (remainingHops : UInt8) (outbound : Option String) :
    TransportState :=
  let linkTable :=
    if p.packetType = Wire.linkRequest then
      s.linkTable.insert (Link.linkIdFromLrPacket c (linkPacket p)).1
        { timestamp := r.now
          nextHopTransport := nextHop
          nextHopInterface := outbound
          remainingHops := remainingHops
          receivedInterface := p.receivingInterface
          takenHops := p.hops
          destinationHash := destinationHash
          validated := false
          proofTimeout := proofTimeout s r p remainingHops }
    else s.linkTable
  let reverseTable :=
    if p.packetType = Wire.linkRequest then s.reverseTable
    else
      s.reverseTable.insert (p.getTruncatedHash c)
        { receivedInterface := p.receivingInterface
          outboundInterface := outbound
          timestamp := r.now }
  let pathTable :=
    match s.pathTable destinationHash with
    | some (front :: routes) =>
        s.pathTable.insert destinationHash ({ front with timestamp := r.now } :: routes)
    | _ => s.pathTable
  { s with linkTable := linkTable, reverseTable := reverseTable, pathTable := pathTable }

/-- A packet that is addressed to this node as its next hop is passed on along the
best route. -/
def transit (c : Crypto) (s : TransportState) (r : Reading) (p : Wire.Packet) :
    TransportState × List (String × Bytes) :=
  if p.packetType ≠ Wire.announce ∧ p.transportId.isSome ∧ p.transportId = s.identityHash then
    match p.destinationHash with
    | none => (s, [])
    | some destinationHash =>
        let (nextHop, remainingHops, outbound) := transitRoute s r p destinationHash
        if nextHop ≠ [] ∨ s.pathTable.contains destinationHash then
          (noteTransit c s r p destinationHash nextHop remainingHops outbound,
            outbound.toList.map fun name =>
              (name, transitFrame s p nextHop remainingHops outbound))
        else (s, [])
  else (s, [])

/-- The interface that a packet of a relayed link goes out on: the other side of
the link, when the packet comes from one side with the right number of hops. -/
def relayInterface (entry : LinkEntry) (p : Wire.Packet) : Option String :=
  if entry.nextHopInterface = entry.receivedInterface then
    if p.hops = entry.remainingHops ∨ p.hops = entry.takenHops then entry.nextHopInterface
    else none
  else if p.receivingInterface = entry.nextHopInterface ∧ p.hops = entry.remainingHops then
    entry.receivedInterface
  else if p.receivingInterface = entry.receivedInterface ∧ p.hops = entry.takenHops then
    entry.nextHopInterface
  else none

/-- The path-table fallback: the unexpired route with the fewest hops. -/
def fallback (p : Wire.Packet) (destinationHash : Bytes) :
    List (String × Bytes) :=
  let route := minByHops (((s.pathTable destinationHash).getD []).filter fun e =>
    !e.isExpired r.now)
  ((route.bind (·.receivingInterface)).toList).map fun name => (name, setHops p.raw p.hops)

/-- A packet for a relayed link is passed to the other side; any other packet falls
back to the path table. -/
def relayLink (p : Wire.Packet) :
    TransportState × List (String × Bytes) :=
  if p.packetType ≠ Wire.announce ∧ p.packetType ≠ Wire.linkRequest ∧
      p.context ≠ Wire.lrproof then
    match p.destinationHash with
    | none => (s, [])
    | some destinationHash =>
        match (s.linkTable destinationHash).bind fun entry =>
            (relayInterface entry p).map fun name => (entry, name) with
        | some (entry, name) =>
            ({ s with
                packetHashlist := insertHash s.packetHashlist p.packetHash
                linkTable := s.linkTable.insert destinationHash
                  { entry with timestamp := r.now } },
              (findInterface s.interfaces name).toList.map fun _ =>
                (name, setHops p.raw p.hops))
        | none => (s, fallback s r p destinationHash)
  else (s, [])

/-- The registered destinations that a packet is handed to. -/
def localReceives (p : Wire.Packet) : List (Bytes × Wire.Packet) :=
  (s.destinations.filter fun hash => p.destinationHash == some hash).map fun hash => (hash, p)

/-- A data packet: to the link, to the destinations with its hash, or by the path
table when there is none. -/
def handleData (p : Wire.Packet) :
    TransportState × List (String × Bytes) × List (Bytes × Wire.Packet) × List Wire.Packet :=
  if p.packetType = Wire.data then
    if p.destinationType = some .link then (s, [], [], [p])
    else
      match p.destinationHash with
      | none => (s, [], [], [])
      | some destinationHash =>
          if (localReceives s p).isEmpty then
            match fallback s r p destinationHash with
            | [] => (s, [], [], [])
            | frames =>
                ({ s with
                    pathTable := s.pathTable.insert destinationHash
                      (((s.pathTable destinationHash).getD []).map fun e =>
                        { e with timestamp := r.now }) },
                  frames, [], [])
          else (s, [], localReceives s p, [])
  else (s, [], [], [])

/-- `Identity::recall`: the public key of a known destination, when it is one. -/
def recallIdentity (c : Crypto) (s : TransportState) (destinationHash : Bytes) : Option Bytes :=
  (s.knownDestinations destinationHash).bind fun entry =>
    if entry.publicKey.length = 64 ∧ c.isVerifyingKey (entry.publicKey.drop 32) then
      some entry.publicKey
    else none

def validateLrproofSignature (c : Crypto) (s : TransportState) (proofData linkId dstHash : Bytes) :
    Bool :=
  if ¬ Link.proofLength proofData then false
  else
    match recallIdentity c s dstHash with
    | none => false
    | some publicKey =>
        let signed := linkId ++ Link.proofPub proofData ++ publicKey.drop 32
        if proofData.length = Link.sigLength + Link.ecPubSize / 2 + Link.linkMtuSize then
          match Link.signallingBytes ((Link.mtuFromLpPacket proofData).getD 0)
              (Link.modeFromLpPacket proofData) with
          | .error _ => false
          | .ok signalling =>
              Link.validate c publicKey (proofData.take Link.sigLength) (signed ++ signalling)
        else Link.validate c publicKey (proofData.take Link.sigLength) signed

/-- The proof of a relayed link goes back to where the request came from, when it
comes from the next hop with the hops that remained and its signature is that of
the destination. -/
def relayLrproof (c : Crypto) (s : TransportState) (p : Wire.Packet) :
    TransportState × List (String × Bytes) :=
  match p.destinationHash with
  | none => (s, [])
  | some destinationHash =>
      match s.linkTable destinationHash with
      | none => (s, [])
      | some entry =>
          if p.hops = entry.remainingHops ∧ p.receivingInterface = entry.nextHopInterface ∧
              validateLrproofSignature c s p.data destinationHash entry.destinationHash then
            match entry.receivedInterface with
            | none => (s, [])
            | some name =>
                ({ s with
                    linkTable := s.linkTable.insert destinationHash
                      { entry with validated := true } },
                  [(name, setHops p.raw p.hops)])
          else (s, [])

/-- A proof that is not for a link goes back the way of the packet it proves. An
entry for another interface stays in the reverse table. Without an entry the proof
follows the best route to its destination, except back to where it came from. -/
def returnProof (p : Wire.Packet) :
    TransportState × List (String × Bytes) :=
  match p.destinationHash with
  | none => (s, [])
  | some destinationHash =>
      match s.reverseTable destinationHash with
      | some entry =>
          if p.receivingInterface = entry.outboundInterface then
            ({ s with reverseTable := s.reverseTable.remove destinationHash },
              (entry.receivedInterface.bind (findInterface s.interfaces)).toList.map fun iface =>
                (iface.name, setHops p.raw p.hops))
          else if entry.outboundInterface.isSome then (s, [])
          else ({ s with reverseTable := s.reverseTable.remove destinationHash }, [])
      | none =>
          match (selectPath s.pathTable s.interfaces destinationHash r.now).bind
              (·.receivingInterface) with
          | none => (s, [])
          | some name =>
              if p.receivingInterface ≠ some name then (s, [(name, setHops p.raw p.hops)])
              else (s, [])

end

/-- A proof: of a link, to the relayed link or to this node's links; of a packet,
back to its sender. -/
def handleProof (c : Crypto) (s : TransportState) (r : Reading) (p : Wire.Packet) :
    TransportState × List (String × Bytes) × List Wire.Packet :=
  if p.packetType = Wire.proof then
    if p.context = Wire.lrproof ∨ p.destinationType = some .link then
      let (s, frames) := if p.context = Wire.lrproof then relayLrproof c s p else (s, [])
      (s, frames, if frames.isEmpty then [p] else [])
    else
      let (s, frames) := returnProof s r p
      (s, frames, [])
  else (s, [], [])

/-! ## Sending along a route -/

def pathStaleThreshold : ℚ := 72

/-- `Transport::select_all_paths`: the usable routes, the best first. -/
def selectAllPaths (table : Table (List PathEntry)) (interfaces : List InterfaceStub)
    (destinationHash : Bytes) (now : ℚ) : List PathEntry :=
  let score (e : PathEntry) : ℚ :=
    e.score ((e.receivingInterface.bind (findInterface interfaces)).bind (·.bitrate))
  (((table destinationHash).getD []).filter (usable interfaces now none)).mergeSort
    fun a b => score b ≤ score a

/-- The frame of a packet with one address becomes one with two. -/
def convertRaw (p : Wire.Packet) (nextHop : Bytes) : Bytes :=
  [(Wire.header2 <<< 6) ||| (modeTransport <<< 4) ||| (p.flags &&& 0x0F), p.hops] ++ nextHop ++
    p.raw.drop 2

/-- Whether a packet gets the transport id of the next hop. -/
def converts (s : TransportState) (p : Wire.Packet) (destinationHash : Bytes) (e : PathEntry) :
    Bool :=
  p.headerType = Wire.header1 &&
    ((1 < e.hops && e.nextHop != destinationHash) ||
      (e.hops == 1 && s.isConnectedToSharedInstance))

/-- The frame that `Transport::outbound` sends along a route. -/
def outboundRaw (s : TransportState) (p : Wire.Packet) (destinationHash : Bytes)
    (e : PathEntry) : Bytes :=
  if converts s p destinationHash e then convertRaw p e.nextHop else p.raw

/-- The expiry of a stale route is shortened. -/
def shortenExpiry (s : TransportState) (r : Reading) (destinationHash : Bytes) (e : PathEntry) :
    TransportState :=
  let routes := (s.pathTable destinationHash).getD []
  match routes.findIdx? fun other => other.packetHash == e.packetHash with
  | none => s
  | some k =>
      if routes[k]?.any fun other => r.now + pathStaleThreshold < other.expires then
        { s with
          pathTable := s.pathTable.insert destinationHash
            (routes.modify k fun other => { other with expires := r.now + pathStaleThreshold })
          pathTableDirty := true }
      else s

/-- The routes are tried, the best first, until a frame is sent or a route is fresh. -/
def sendAlong (r : Reading) (p : Wire.Packet) (destinationHash : Bytes) :
    TransportState → List PathEntry →
      TransportState × List (String × Bytes) × List (Bytes × Option String)
  | s, [] => (s, [], [])
  | s, e :: routes =>
      let frames := (e.receivingInterface.bind (findInterface s.interfaces)).toList.map fun out =>
        (out.name, outboundRaw s p destinationHash e)
      if 2 ≤ e.hops ∧ pathStaleThreshold < r.now - e.timestamp then
        let s := shortenExpiry s r destinationHash e
        let request := (destinationHash, e.receivingInterface)
        if frames.isEmpty then
          let (s, frames, requests) := sendAlong r p destinationHash s routes
          (s, frames, request :: requests)
        else (s, frames, [request])
      else (s, frames, [])

/-- `Transport::outbound` of a packet whose destination has routes. -/
def outbound (s : TransportState) (r : Reading) (p : Wire.Packet) (destinationHash : Bytes) :
    TransportState × List (String × Bytes) × List (Bytes × Option String) :=
  sendAlong r p destinationHash s
    (selectAllPaths s.pathTable s.interfaces destinationHash r.now)

end Reticulum.Transport
