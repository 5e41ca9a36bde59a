import Reticulum.Transport.Relayed

/-!
# A relay of a link

The link request leaves an entry in the link table. From then on the relay passes
the packets of the link from one side to the other, when they come with the hops
that the entry says, and passes the proof of the link back once it has checked its
signature.

## Implementation notes

A link id that is also a destination of the path table, a packet of the reverse
table or a control destination is handled as that too (`Unclaimed` excludes it).
-/

namespace Reticulum.Transport

open Wire (Frame)

/-- A relay between an initiator and a destination: its state, what a call reads, and
its interfaces on the two sides. -/
structure Relay where
  state : TransportState
  reading : Reading
  up : String
  down : String

namespace Relay

/-- A frame comes in on an interface. -/
def receive (c : Crypto) (x : Relay) (name : String) (raw : Bytes) : Outcome × TransportState :=
  inbound c x.state x.reading raw (some name)

/-- The relay has an entry for the link, with its two interfaces and the hops on either
side. -/
def HasEntry (x : Relay) (linkId destinationHash : Bytes) (remaining taken : Nat) : Prop :=
  ∃ entry, x.state.linkTable linkId = some entry ∧ entry.nextHopInterface = some x.down ∧
    entry.receivedInterface = some x.up ∧ entry.remainingHops.toNat = remaining ∧
    entry.takenHops.toNat = taken ∧ entry.destinationHash = destinationHash

/-- The link id names nothing else at the relay, and the interfaces are there. -/
structure Unclaimed (x : Relay) (linkId : Bytes) : Prop where
  path : x.state.pathTable linkId = none
  reverse : x.state.reverseTable linkId = none
  control : x.state.controlHashes.contains linkId = false
  up : (findInterface x.state.interfaces x.up).isSome = true
  down : (findInterface x.state.interfaces x.down).isSome = true

end Relay

/-! ## The request -/

section Request

variable {c : Crypto} {s : TransportState} {r : Reading} {p : Wire.Packet}
  {destinationHash : Bytes}

/-- A link request is for transit forwarding alone. -/
theorem inboundPacket_linkRequest (hrequest : p.packetType = Wire.linkRequest) :
    (inboundPacket c s r p).2 =
      (transit c (rememberPacketHash s p) r
        (injectTransportId (rememberPacketHash s p) p)).1 := by
  let s₀ := rememberPacketHash s p
  obtain ⟨transportId, hq⟩ := injectTransportId_eq s₀ p
  have htype : (injectTransportId s₀ p).packetType = Wire.linkRequest := by
    rw [hq]
    exact hrequest
  have hdata : (injectTransportId s₀ p).packetType ≠ Wire.data := by
    rw [htype]
    decide
  have hproof : (injectTransportId s₀ p).packetType ≠ Wire.proof := by
    rw [htype]
    decide
  change (handleProof c (handleData (relayLink (transit c s₀ r (injectTransportId s₀ p)).1 r
    (injectTransportId s₀ p)).1 r (injectTransportId s₀ p)).1 r (injectTransportId s₀ p)).1 = _
  have hend : ∀ t, (handleProof c t r (injectTransportId s₀ p)).1 = t := by
    intro t
    simp [handleProof, hproof]
  rw [hend, handleData_of_ne hdata]
  simp [relayLink, htype]
  rfl

theorem queued_linkRequest (hrequest : p.packetType = Wire.linkRequest) :
    queued c s r p destinationHash = transitFrames s r p destinationHash := by
  obtain ⟨hrelay, hdata, hproof⟩ := vias_of_linkRequest (c := c) (s := s) (r := r) hrequest
    destinationHash
  unfold queued
  rw [hrelay, hdata, hproof]
  simp [hoppedFrames]

/-- What a forwarded link request leaves: an entry in the link table, and the routes and the
reverse table as they were. -/
theorem entry_of_linkRequest {raw : Bytes} {receivingInterface : Option String} {e : PathEntry}
    (hunpack : (Wire.Packet.holding raw receivingInterface).unpack c = some p)
    (hrequest : p.packetType = Wire.linkRequest)
    (hdest : p.destinationHash = some destinationHash)
    (hroute : selectPathExcluding s.pathTable s.interfaces destinationHash r.now
      receivingInterface = some e)
    (hsent : (inbound c s r raw receivingInterface).1.outbound ≠ []) :
    (∃ entry, (inbound c s r raw receivingInterface).2.linkTable
        (Link.linkIdFromLrPacket c (linkPacket p)).1 = some entry ∧
      entry.nextHopInterface = e.receivingInterface ∧
      entry.receivedInterface = receivingInterface ∧ entry.remainingHops = e.hops ∧
      entry.takenHops = saturatingSucc p.hops ∧ entry.destinationHash = destinationHash) ∧
    SameRoutes s (inbound c s r raw receivingInterface).2 ∧
    (inbound c s r raw receivingInterface).2.reverseTable = s.reverseTable := by
  have htype : p.packetType ≠ Wire.announce := by
    rw [hrequest]
    decide
  have hiface : (hopped p).receivingInterface = receivingInterface := by
    obtain ⟨f, -, rfl⟩ := Frame.unpack_eq_some_iff.mp hunpack
    rfl
  obtain ⟨hread, hcontrol, hfilter, hcached, hqueued⟩ :=
    passed_of_outbound hunpack hdest htype hsent
  rw [hqueued, queued_linkRequest (p := hopped p) hrequest] at hsent
  have hidentity : s.identityHash.isSome = true := by
    by_contra hnone
    refine hsent ?_
    unfold transitFrames transitVia
    rw [if_neg hnone]
    rfl
  let s₀ := rememberPacketHash (admitted s r p) (hopped p)
  have hsame : SameRoutes s s₀ := sameRoutes_admitted.1.trans SameRoutes.rememberPacketHash
  have hreverse : s₀.reverseTable = s.reverseTable := by
    obtain ⟨hashlist, heq⟩ := rememberPacketHash_eq (admitted s r p) (hopped p)
    change (rememberPacketHash (admitted s r p) (hopped p)).reverseTable = _
    rw [heq]
    exact sameRoutes_admitted.2.2
  have hcontains : s₀.pathTable.contains destinationHash = true := by
    obtain ⟨entries, hentries, -⟩ := usable_of_selectPathExcluding hroute
    rw [hsame.contains]
    simp [Table.contains, hentries]
  have htransit : transitRoute s₀ r { hopped p with transportId := s.identityHash }
      destinationHash = (e.nextHop, e.hops, e.receivingInterface) := by
    change transitRoute s₀ r (hopped p) destinationHash = _
    rw [hsame.transitRoute]
    unfold transitRoute
    rw [hiface, hroute]
  rw [inbound_of_passed hread htype hcontrol hfilter hcached]
  dsimp only
  rw [inboundPacket_linkRequest (p := hopped p) hrequest,
    transit_inject (p := hopped p) hdest htype, hsame.identityHash,
    if_pos ⟨hidentity, hcontains⟩]
  dsimp only
  rw [htransit]
  dsimp only
  refine ⟨?_, hsame.trans (sameRoutes_noteTransit _ _ _), ?_⟩
  · dsimp only [noteTransit]
    rw [if_pos (show (hopped p).packetType = Wire.linkRequest from hrequest)]
    exact ⟨_, Table.insert_self _ _ _, rfl, hiface, rfl, rfl, rfl⟩
  · dsimp only [noteTransit]
    rw [if_pos (show (hopped p).packetType = Wire.linkRequest from hrequest)]
    exact hreverse

end Request

/-! ## The packets of the link -/

/-- A frame of the link: data or a proof, for the link as its destination. -/
structure LinkFrame (f : Frame) (linkId : Bytes) : Prop where
  destination : f.destinationHash.1 = linkId
  link : Wire.DestinationType.ofUInt8 ((f.flags &&& 0x0C) >>> 2) = some .link
  packetType : f.flags &&& 0x03 = Wire.data ∨ f.flags &&& 0x03 = Wire.proof
  context : f.context ≠ Wire.lrproof
  access : f.flags &&& 0x80 ≠ 0x80

/-- A proof of the link. -/
structure ProofFrame (f : Frame) (linkId : Bytes) : Prop where
  destination : f.destinationHash.1 = linkId
  link : Wire.DestinationType.ofUInt8 ((f.flags &&& 0x0C) >>> 2) = some .link
  packetType : f.flags &&& 0x03 = Wire.proof
  context : f.context = Wire.lrproof
  access : f.flags &&& 0x80 ≠ 0x80

/-- The relay takes a frame of the link for no repetition, and has no answer to it in its
packet cache. -/
def Relay.Passes (c : Crypto) (x : Relay) (f : Frame) : Prop :=
  packetFilter x.state (f.fill c (.holding [] none)) = true ∧
    cachedPacket c x.state (f.fill c (.holding [] none)) = none

namespace Relay

variable {c : Crypto} {x : Relay} {p : Wire.Packet} {linkId destinationHash : Bytes}
  {remaining taken : Nat} {f : Frame}

/-- Where an unclaimed link id has a route: only by the link table. -/
theorem vias_of_unclaimed (hx : x.Unclaimed linkId) (p : Wire.Packet) :
    transitFrames x.state x.reading p linkId = [] ∧ pathVia x.state x.reading linkId = none ∧
      dataVia x.state x.reading p linkId = none ∧
      returnVia x.state x.reading p linkId (reverseEntry c x.state x.reading p linkId) = none := by
  have hcontains : x.state.pathTable.contains linkId = false := by
    simp [Table.contains, hx.path]
  have hpath : pathVia x.state x.reading linkId = none := by
    simp [pathVia, hx.path, minByHops]
  have hreverse : reverseEntry c x.state x.reading p linkId = none := by
    unfold reverseEntry
    rw [hcontains, if_neg (by simp)]
    exact hx.reverse
  refine ⟨?_, hpath, ?_, ?_⟩
  · simp [transitFrames, transitVia, transitRoute_of_not_contains hcontains]
  · unfold dataVia
    rw [hpath, ite_self]
  · rw [hreverse]
    simp [returnVia, selectPath, selectPathExcluding, hx.path]

/-- What is queued for a packet of an unclaimed link. -/
theorem queued_of_unclaimed (hx : x.Unclaimed linkId) (p : Wire.Packet) :
    queued c x.state x.reading p linkId =
      hoppedFrames p (relayVia x.state x.reading p linkId) ++
        hoppedFrames p (if p.packetType = Wire.proof ∧ p.context = Wire.lrproof then
          lrproofVia c x.state p linkId else none) := by
  obtain ⟨htransit, -, hdata, hreturn⟩ := vias_of_unclaimed (c := c) hx p
  have hproof : proofVia c x.state x.reading p linkId =
      if p.packetType = Wire.proof ∧ p.context = Wire.lrproof then
        lrproofVia c x.state p linkId
      else none := by
    unfold proofVia
    rw [hreturn, ite_self]
    by_cases hproof : p.packetType = Wire.proof <;> simp [hproof]
  unfold queued
  rw [htransit, hdata, hproof]
  simp [hoppedFrames]

/-- What the relay queues for a frame of the link. -/
theorem outbound_of_passes (hx : x.Unclaimed linkId) (hdest : f.destinationHash.1 = linkId)
    (htype : f.flags &&& 0x03 ≠ Wire.announce)
    (haccess : f.flags &&& 0x80 ≠ 0x80) (hpasses : x.Passes c f) (name : String) :
    (x.receive c name f.encode).1.outbound =
      queued c x.state x.reading
        (hopped (f.fill c (.holding f.encode (some name)))) linkId := by
  let p := f.fill c (.holding f.encode (some name))
  have hunpack : (Wire.Packet.holding f.encode (some name)).unpack c = some p :=
    Frame.unpack_encode rfl
  have hread := readFrame_of_unpack hunpack
  rw [if_neg (show ¬ p.flags &&& 0x80 = 0x80 from haccess)] at hread
  have hpdest : p.destinationHash = some linkId := congrArg some hdest
  have hcontrol : controlAspects x.state p = none := by
    unfold controlAspects
    rw [hpdest]
    have hcontains := hx.control
    simp only [Option.bind_some, hcontains]
    rfl
  have hfilter : packetFilter x.state p = true := hpasses.1
  rw [Relay.receive, outbound_of_readFrame hread hpdest htype hcontrol,
    if_pos ⟨hfilter, hpasses.2⟩]

/-- The hops of a frame of the link do not matter to the filter. -/
theorem passes_withHops (hlink : Wire.DestinationType.ofUInt8 ((f.flags &&& 0x0C) >>> 2) =
      some .link) {hops : UInt8} (h : hops < Wire.pathfinderM) (hpasses : x.Passes c f) :
    x.Passes c (Frames.withHops f hops h) := by
  refine ⟨?_, hpasses.2⟩
  have hfilter : ∀ q q' : Wire.Packet, q.destinationType = some .link →
      q'.destinationType = some .link → q'.context = q.context →
      q'.packetType = q.packetType → q'.packetHash = q.packetHash →
      packetFilter x.state q' = packetFilter x.state q := by
    intro q q' hq hq' hcontext htype hhash
    unfold packetFilter
    rw [hq, hq', hcontext, htype, hhash]
    simp
  rw [← hpasses.1]
  exact hfilter _ _ hlink hlink rfl rfl rfl

theorem saturatingSucc_hops (f : Frame) :
    saturatingSucc f.hops = f.hops + 1 ∧ (f.hops + 1).toNat = f.hops.toNat + 1 := by
  have hlt := UInt8.lt_iff_toNat_lt.mp f.hops_lt
  have hmax : f.hops ≠ 255 := by
    intro h
    rw [h] at hlt
    exact absurd hlt (by decide)
  refine ⟨if_neg hmax, ?_⟩
  change f.hops.toNat < 128 at hlt
  rw [UInt8.toNat_add]
  simp only [UInt8.toNat_one]
  omega

/-- A hop that is counted keeps the hops below the limit only when there is room for it. -/
theorem hops_lt_of_counted (h : saturatingSucc f.hops < Wire.pathfinderM) : f.hops < 127 := by
  obtain ⟨hsucc, hnat⟩ := saturatingSucc_hops f
  rw [hsucc, UInt8.lt_iff_toNat_lt, hnat] at h
  rw [UInt8.lt_iff_toNat_lt]
  change f.hops.toNat + 1 < 128 at h
  change f.hops.toNat < 127
  omega

/-- The packet of a frame that the relay receives, after its hop. -/
def packet (c : Crypto) (name : String) (f : Frame) : Wire.Packet :=
  hopped (f.fill c (.holding f.encode (some name)))

/-- A frame of the link goes where the link table says, and nowhere else. -/
theorem receive_of_linkVia (hx : x.Unclaimed linkId) (hf : LinkFrame f linkId)
    (hpasses : x.Passes c f) {name out : String}
    (hvia : linkVia x.state (packet c name f) linkId = some out)
    (hout : (findInterface x.state.interfaces out).isSome = true) :
    (x.receive c name f.encode).1.outbound = [(out, setHops f.encode (f.hops + 1))] := by
  have hrequest : f.flags &&& 0x03 ≠ Wire.linkRequest := by
    obtain htype | htype := hf.packetType <;> rw [htype] <;> decide
  have hannounce : f.flags &&& 0x03 ≠ Wire.announce := by
    obtain htype | htype := hf.packetType <;> rw [htype] <;> decide
  have hrelay : relayVia x.state x.reading (packet c name f) linkId = some out := by
    unfold relayVia
    rw [if_pos ⟨hrequest, hf.context⟩, hvia]
    dsimp only
    rw [findInterface_name]
    obtain ⟨interface, hfind⟩ := Option.isSome_iff_exists.mp hout
    rw [hfind]
    rfl
  rw [outbound_of_passes hx hf.destination hannounce hf.access hpasses,
    queued_of_unclaimed hx]
  change hoppedFrames (packet c name f) (relayVia x.state x.reading (packet c name f) linkId) ++
    hoppedFrames (packet c name f) (if f.flags &&& 0x03 = Wire.proof ∧ f.context = Wire.lrproof
      then lrproofVia c x.state (packet c name f) linkId else none) = _
  rw [hrelay, if_neg fun h => hf.context h.2]
  change [(out, setHops f.encode (saturatingSucc f.hops))] = _
  rw [(saturatingSucc_hops f).1]

/-- The hops that the relay compares with those of an entry. -/
theorem hops_packet (name : String) (f : Frame) :
    (packet c name f).hops.toNat = f.hops.toNat + 1 := by
  change (saturatingSucc f.hops).toNat = _
  rw [(saturatingSucc_hops f).1, (saturatingSucc_hops f).2]

section

variable (hx : x.Unclaimed linkId)

include hx

/-- A packet of the link that comes from the initiator's side, with the hops that the request
had taken, goes on to the other side. -/
theorem receive_up
    (hentry : x.HasEntry linkId destinationHash remaining taken) (hsides : x.up ≠ x.down)
    (hf : LinkFrame f linkId) (hpasses : x.Passes c f) (hhops : f.hops.toNat + 1 = taken) :
    (x.receive c x.up f.encode).1.outbound = [(x.down, setHops f.encode (f.hops + 1))] := by
  obtain ⟨entry, hlookup, hnext, hreceived, -, htaken, -⟩ := hentry
  refine receive_of_linkVia hx hf hpasses ?_ hx.down
  have hmatch : (packet c x.up f).hops = entry.takenHops := by
    apply UInt8.toNat_inj.mp
    rw [hops_packet, htaken, hhops]
  have hup : (packet c x.up f).receivingInterface = some x.up := rfl
  unfold linkVia relayInterface
  rw [hlookup, Option.bind_some, hnext, hreceived, hup]
  simp [hmatch, hsides, Ne.symm hsides]

/-- A packet of the link that comes from the destination's side, with the hops that remained,
goes on to the other side. -/
theorem receive_down
    (hentry : x.HasEntry linkId destinationHash remaining taken) (hsides : x.up ≠ x.down)
    (hf : LinkFrame f linkId) (hpasses : x.Passes c f) (hhops : f.hops.toNat + 1 = remaining) :
    (x.receive c x.down f.encode).1.outbound = [(x.up, setHops f.encode (f.hops + 1))] := by
  obtain ⟨entry, hlookup, hnext, hreceived, hremaining, -, -⟩ := hentry
  refine receive_of_linkVia hx hf hpasses ?_ hx.up
  have hmatch : (packet c x.down f).hops = entry.remainingHops := by
    apply UInt8.toNat_inj.mp
    rw [hops_packet, hremaining, hhops]
  have hdown : (packet c x.down f).receivingInterface = some x.down := rfl
  unfold linkVia relayInterface
  rw [hlookup, Option.bind_some, hnext, hreceived, hdown]
  simp [hmatch, Ne.symm hsides]

/-- The proof of the link goes back when the relay finds its signature valid. -/
theorem receive_proof
    (hentry : x.HasEntry linkId destinationHash remaining taken)
    (hf : ProofFrame f linkId) (hpasses : x.Passes c f) (hhops : f.hops.toNat + 1 = remaining)
    (hvalid : validateLrproofSignature c x.state f.data linkId destinationHash = true) :
    (x.receive c x.down f.encode).1.outbound = [(x.up, setHops f.encode (f.hops + 1))] := by
  obtain ⟨entry, hlookup, hnext, hreceived, hremaining, -, hdest⟩ := hentry
  have hannounce : f.flags &&& 0x03 ≠ Wire.announce := by
    rw [hf.packetType]
    decide
  have hmatch : (packet c x.down f).hops = entry.remainingHops := by
    apply UInt8.toNat_inj.mp
    rw [hops_packet, hremaining, hhops]
  have hrelay : relayVia x.state x.reading (packet c x.down f) linkId = none :=
    if_neg fun h => h.2 hf.context
  have hproof : lrproofVia c x.state (packet c x.down f) linkId = some x.up := by
    unfold lrproofVia
    rw [hlookup, Option.bind_some, if_pos ⟨hmatch, hnext.symm, by rw [hdest]; exact hvalid⟩,
      hreceived]
  rw [outbound_of_passes hx hf.destination hannounce hf.access hpasses,
    queued_of_unclaimed hx]
  change hoppedFrames (packet c x.down f)
      (relayVia x.state x.reading (packet c x.down f) linkId) ++
    hoppedFrames (packet c x.down f) (if f.flags &&& 0x03 = Wire.proof ∧ f.context = Wire.lrproof
      then lrproofVia c x.state (packet c x.down f) linkId else none) = _
  rw [hrelay, if_pos ⟨hf.packetType, hf.context⟩, hproof]
  change [(x.up, setHops f.encode (saturatingSucc f.hops))] = _
  rw [(saturatingSucc_hops f).1]

/-- A packet for the link id that comes from neither side, or with other hops, is forwarded
by no block. -/
theorem receive_other
    (hentry : x.HasEntry linkId destinationHash remaining taken) (hsides : x.up ≠ x.down)
    {raw : Bytes} {name : String}
    (hunpack : (Wire.Packet.holding raw (some name)).unpack c = some p)
    (htype : p.packetType ≠ Wire.announce) (hdest : p.destinationHash = some linkId)
    (hup : ¬ (name = x.up ∧ p.hops.toNat + 1 = taken))
    (hdown : ¬ (name = x.down ∧ p.hops.toNat + 1 = remaining)) :
    (x.receive c name raw).1.outbound = [] := by
  obtain ⟨entry, hlookup, hnext, hreceived, hremaining, htaken, -⟩ := hentry
  obtain ⟨f, hraw, rfl⟩ := Frame.unpack_eq_some_iff.mp hunpack
  change raw = f.encode at hraw
  subst hraw
  have hhops : (hopped (f.fill c (.holding f.encode (some name)))).hops.toNat =
      f.hops.toNat + 1 := hops_packet (c := c) name f
  have hiface : (hopped (f.fill c (.holding f.encode (some name)))).receivingInterface =
      some name := rfl
  have hmismatch : ¬ ((hopped (f.fill c (.holding f.encode (some name)))).hops =
      entry.remainingHops ∧ name = x.down) := by
    rintro ⟨hequal, hname⟩
    refine hdown ⟨hname, ?_⟩
    rw [← hremaining, ← hequal, hhops]
    rfl
  have hmismatch' : ¬ ((hopped (f.fill c (.holding f.encode (some name)))).hops =
      entry.takenHops ∧ name = x.up) := by
    rintro ⟨hequal, hname⟩
    refine hup ⟨hname, ?_⟩
    rw [← htaken, ← hequal, hhops]
    rfl
  obtain hnone | hqueued := outbound_nil_or_queued (s := x.state) (r := x.reading) hunpack hdest htype
  · exact hnone
  · change (inbound c x.state x.reading f.encode (some name)).1.outbound = []
    rw [hqueued, queued_of_unclaimed hx]
    generalize hopped (f.fill c (.holding f.encode (some name))) = q at *
    have hlinkVia : linkVia x.state q linkId = none := by
      unfold linkVia relayInterface
      rw [hlookup, Option.bind_some, hnext, hreceived, hiface]
      rw [if_neg fun h => hsides (Option.some.inj h).symm,
        if_neg fun h => hmismatch ⟨h.2, Option.some.inj h.1⟩,
        if_neg fun h => hmismatch' ⟨h.2, Option.some.inj h.1⟩]
    have hproofVia : lrproofVia c x.state q linkId = none := by
      unfold lrproofVia
      rw [hlookup, Option.bind_some, hnext, hiface]
      exact if_neg fun h => hmismatch ⟨h.1, Option.some.inj h.2.1⟩
    have hrelay : relayVia x.state x.reading q linkId = none := by
      unfold relayVia
      rw [hlinkVia]
      simp [(vias_of_unclaimed (c := c) hx q).2.1]
    rw [hrelay, hproofVia, ite_self]
    rfl

end

end Relay

end Reticulum.Transport
