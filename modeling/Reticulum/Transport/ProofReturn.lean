import Reticulum.Transport.LinkAgreement
import Reticulum.Transport.SendReceipt
import Reticulum.Transport.Station

/-!
# The way back of a proof

A relay that passes a data packet on notes in its reverse table where the packet came
from and where it went, under the truncated hash of the packet. The proof of the packet
is addressed to that hash.

## Implementation notes

A node with an identity takes every packet whose destination is in its path table
through transit forwarding, so that the fallbacks to the path table never forward a data
packet alone. What happens at a relay between the packet and its proof is a run of calls.
-/

namespace Reticulum.Transport

open Runs
open Wire (Frame)

/-- What a relay notes of a packet that it passes from one side to the other. -/
def Relay.passage (x : Relay) : ReverseEntry where
  receivedInterface := some x.up
  outboundInterface := some x.down
  timestamp := x.reading.now

/-- A data packet with this hash, for this destination. -/
structure IsData (hash destinationHash : Bytes) (p : Wire.Packet) : Prop where
  packetType : p.packetType = Wire.data
  destination : p.destinationHash = some destinationHash
  packetHash : p.packetHash = some hash

/-- A proof as `Packet::prove` sends it. -/
structure ReturnFrame (f : Frame) (address : Bytes) : Prop where
  destination : f.destinationHash.1 = address
  single : Wire.DestinationType.ofUInt8 ((f.flags &&& 0x0C) >>> 2) = some .single
  packetType : f.flags &&& 0x03 = Wire.proof
  context : f.context = 0
  access : f.flags &&& 0x80 ≠ 0x80

/-- A proof that is not for a link. -/
def IsPacketProof (p : Wire.Packet) : Prop :=
  p.packetType = Wire.proof ∧ p.context ≠ Wire.lrproof ∧ p.destinationType ≠ some .link

/-- The address names nothing else at the relay, and the side of the sender is there. -/
structure Relay.Unshared (y : Relay) (address : Bytes) : Prop where
  path : y.state.pathTable address = none
  link : y.state.linkTable address = none
  control : y.state.controlHashes.contains address = false
  up : (findInterface y.state.interfaces y.up).isSome = true

/-- A packet leaves an entry of the reverse table alone: it is no packet with the same hash for
a destination of the path table, and no proof for the entry from where the packet went. -/
structure Spared (c : Crypto) (s : TransportState) (address : Bytes) (entry : ReverseEntry)
    (p : Wire.Packet) : Prop where
  other : p.packetType ≠ Wire.linkRequest → p.destinationHash.any s.pathTable.contains = true →
    p.getTruncatedHash c ≠ address
  proof : IsPacketProof p → p.destinationHash = some address →
    p.receivingInterface ≠ entry.outboundInterface

/-- What leaves an entry of the reverse table alone: a frame that the filter refuses or that
spares it, and a pass in its lifetime, with both interfaces there. -/
def SparesEntry (c : Crypto) (address : Bytes) (entry : ReverseEntry) (s : Station) :
    StationEvent → Prop
  | .receive _ raw name =>
      ∀ p, readFrame c raw (some name) = some p → p.packetType ≠ Wire.announce →
        packetFilter s.state.toTransportState p = true →
        Spared c s.state.toTransportState address entry p
  | .jobs pass _ => staleReverse s.state.interfaces pass.now entry = false
  | _ => True

/-! ## The entry of a packet -/

section Entry

variable {c : Crypto} {s : TransportState} {r : Reading} {p : Wire.Packet}
  {hash destinationHash address raw : Bytes} {entry : ReverseEntry}

/-- The truncated hash of a packet that was read. -/
theorem getTruncatedHash_of_unpack {receivingInterface : Option String}
    (hunpack : (Wire.Packet.holding raw receivingInterface).unpack c = some p)
    (hhash : p.packetHash = some hash) : p.getTruncatedHash c = hash.take 16 := by
  obtain ⟨f, hraw, rfl⟩ := Frame.unpack_eq_some_iff.mp hunpack
  obtain rfl := Option.some.inj hhash
  unfold Wire.Packet.getTruncatedHash
  rw [Frame.hashablePart_of_raw (p := f.fill c (.holding raw receivingInterface)) hraw rfl]
  rfl

/-- The link relay and the fallback for data leave the reverse table alone. -/
theorem reverseTable_handleData (q : Wire.Packet) :
    (handleData (relayLink s r q).1 r q).1.reverseTable = s.reverseTable := by
  have hrelay : (relayLink s r q).1.reverseTable = s.reverseTable := by
    unfold relayLink
    repeat' split
    all_goals rfl
  have hdata : ∀ t : TransportState, (handleData t r q).1.reverseTable = t.reverseTable := by
    intro t
    unfold handleData
    repeat' split
    all_goals rfl
  rw [hdata, hrelay]

/-- Transit forwarding writes the entry of the packet that it forwards. -/
theorem reverseTable_transit_of_ne (hdest : p.destinationHash = some destinationHash)
    (htype : p.packetType ≠ Wire.announce)
    (hother : s.pathTable.contains destinationHash = true → p.packetType ≠ Wire.linkRequest →
      p.getTruncatedHash c ≠ address) :
    (transit c s r (injectTransportId s p)).1.reverseTable address = s.reverseTable address := by
  rw [transit_inject hdest htype]
  split
  · rename_i hfires
    dsimp only
    unfold noteTransit
    dsimp only
    split
    · rfl
    · rename_i hrequest
      have hne : address ≠
          Wire.Packet.getTruncatedHash c { p with transportId := s.identityHash } :=
        (hother hfires.2 hrequest).symm
      exact Table.insert_of_ne _ hne _
  · rfl

/-- A proof takes no entry but its own, and that only from where the packet went. -/
theorem reverseTable_handleProof (hentry : s.reverseTable address = some entry)
    (hout : entry.outboundInterface.isSome = true)
    (hspared : IsPacketProof p → p.destinationHash = some address →
      p.receivingInterface ≠ entry.outboundInterface) :
    (handleProof c s r p).1.reverseTable address = some entry := by
  have hlrproof : (relayLrproof c s p).1.reverseTable = s.reverseTable := by
    unfold relayLrproof
    repeat' split
    all_goals rfl
  unfold handleProof
  split
  swap
  · exact hentry
  rename_i hproof
  split
  · dsimp only
    split
    · rw [hlrproof]
      exact hentry
    · exact hentry
  rename_i hplain
  have hpacket : IsPacketProof p := ⟨hproof, fun h => hplain (.inl h), fun h => hplain (.inr h)⟩
  dsimp only
  unfold returnProof
  split
  · exact hentry
  rename_i destinationHash hdest
  by_cases haddress : address = destinationHash
  · subst haddress
    rw [hentry]
    dsimp only
    rw [if_neg (hspared hpacket hdest), if_pos hout]
    exact hentry
  · have hremove : s.reverseTable.remove destinationHash address = some entry := by
      unfold Table.remove
      rw [Function.update_of_ne haddress]
      exact hentry
    split
    · split
      · exact hremove
      · split
        · exact hentry
        · exact hremove
    · split
      · exact hentry
      · split <;> exact hentry

/-- A proof from where the packet went takes the entry. -/
theorem reverseTable_handleProof_taken (hentry : s.reverseTable address = some entry)
    (hproof : IsPacketProof p) (hdest : p.destinationHash = some address)
    (hside : p.receivingInterface = entry.outboundInterface) :
    (handleProof c s r p).1.reverseTable address = none := by
  unfold handleProof
  rw [if_pos hproof.1, if_neg (not_or.mpr hproof.2)]
  dsimp only
  unfold returnProof
  rw [hdest]
  dsimp only
  rw [hentry]
  dsimp only
  rw [if_pos hside]
  exact Function.update_self ..

/-- A packet that spares an entry. -/
theorem reverseTable_inboundPacket (hdest : p.destinationHash = some destinationHash)
    (htype : p.packetType ≠ Wire.announce) (hentry : s.reverseTable address = some entry)
    (hout : entry.outboundInterface.isSome = true) (hspared : Spared c s address entry p) :
    (inboundPacket c s r p).2.reverseTable address = some entry := by
  obtain ⟨hashlist, hremember⟩ := rememberPacketHash_eq s p
  obtain ⟨transportId, hinject⟩ := injectTransportId_eq (rememberPacketHash s p) p
  have hother : s.pathTable.contains destinationHash = true → p.packetType ≠ Wire.linkRequest →
      p.getTruncatedHash c ≠ address := by
    intro hcontains hrequest
    apply hspared.other hrequest
    rw [hdest]
    exact hcontains
  have htransit : _ = (rememberPacketHash s p).reverseTable address :=
    reverseTable_transit_of_ne (c := c) (r := r) hdest htype (by rw [hremember]; exact hother)
  have hkept : (rememberPacketHash s p).reverseTable address = some entry := by
    rw [hremember]
    exact hentry
  unfold inboundPacket
  apply reverseTable_handleProof
  · rw [reverseTable_handleData, htransit]
    exact hkept
  · exact hout
  · rw [hinject]
    exact hspared.proof

/-- A proof that takes an entry, when its address names no path. -/
theorem reverseTable_inboundPacket_taken (hdest : p.destinationHash = some address)
    (hpath : s.pathTable.contains address = false) (hentry : s.reverseTable address = some entry)
    (hproof : IsPacketProof p) (hside : p.receivingInterface = entry.outboundInterface) :
    (inboundPacket c s r p).2.reverseTable address = none := by
  have htype : p.packetType ≠ Wire.announce := by
    rw [hproof.1]
    decide
  obtain ⟨hashlist, hremember⟩ := rememberPacketHash_eq s p
  obtain ⟨transportId, hinject⟩ := injectTransportId_eq (rememberPacketHash s p) p
  have htransit : _ = (rememberPacketHash s p).reverseTable address :=
    reverseTable_transit_of_ne (c := c) (r := r) hdest htype fun hcontains => by
      rw [hremember] at hcontains
      exact absurd (hpath.symm.trans hcontains) Bool.false_ne_true
  have hkept : (rememberPacketHash s p).reverseTable address = some entry := by
    rw [hremember]
    exact hentry
  unfold inboundPacket
  apply reverseTable_handleProof_taken
  · rw [reverseTable_handleData, htransit]
    exact hkept
  · rw [hinject]
    exact hproof
  · rw [hinject]
    exact hdest
  · rw [hinject]
    exact hside

/-- What a relay notes of a data packet that it has forwarded. -/
theorem reverseTable_of_data {name down : String} {e : PathEntry}
    (hunpack : (Wire.Packet.holding raw (some name)).unpack c = some p)
    (hp : IsData hash destinationHash p) (hidentity : s.identityHash.isSome = true)
    (hroute : selectPathExcluding s.pathTable s.interfaces destinationHash r.now (some name) =
      some e) (hvia : e.receivingInterface = some down)
    (hsent : (inbound c s r raw (some name)).1.outbound ≠ []) :
    (inbound c s r raw (some name)).2.reverseTable (hash.take 16) =
      some { receivedInterface := some name, outboundInterface := some down
             timestamp := r.now } := by
  have htype : p.packetType ≠ Wire.announce := by
    rw [hp.packetType]
    decide
  have hrequest : p.packetType ≠ Wire.linkRequest := by
    rw [hp.packetType]
    decide
  have hproof : p.packetType ≠ Wire.proof := by
    rw [hp.packetType]
    decide
  have hiface : p.receivingInterface = some name := by
    obtain ⟨f, -, rfl⟩ := Frame.unpack_eq_some_iff.mp hunpack
    rfl
  obtain ⟨hread, hcontrol, hfilter, hcached, -⟩ :=
    passed_of_outbound hunpack hp.destination htype hsent
  let s₀ := rememberPacketHash (admitted s r p) (hopped p)
  have hsame : SameRoutes s s₀ := sameRoutes_admitted.1.trans SameRoutes.rememberPacketHash
  have hcontains : s₀.pathTable.contains destinationHash = true := by
    obtain ⟨entries, hentries, -⟩ := usable_of_selectPathExcluding hroute
    rw [hsame.contains]
    unfold Table.contains
    rw [hentries]
    rfl
  have htransit : transitRoute s₀ r { hopped p with transportId := s.identityHash }
      destinationHash = (e.nextHop, e.hops, some down) := by
    change transitRoute s₀ r (hopped p) destinationHash = _
    rw [hsame.transitRoute]
    have hhopped : (hopped p).receivingInterface = some name := hiface
    unfold transitRoute
    rw [hhopped, hroute, ← hvia]
  obtain ⟨transportId, hinject⟩ := injectTransportId_eq s₀ (hopped p)
  rw [inbound_of_passed hread htype hcontrol hfilter hcached]
  dsimp only
  unfold inboundPacket
  have hend : ∀ t, (handleProof c t r (injectTransportId s₀ (hopped p))).1 = t := by
    intro t
    rw [hinject]
    exact congrArg Prod.fst (if_neg hproof)
  change (handleProof c _ r (injectTransportId s₀ (hopped p))).1.reverseTable _ = _
  rw [hend, reverseTable_handleData, transit_inject (p := hopped p) hp.destination htype,
    hsame.identityHash, if_pos ⟨hidentity, hcontains⟩]
  dsimp only
  rw [htransit]
  dsimp only [noteTransit]
  rw [if_neg (show ¬ (hopped p).packetType = Wire.linkRequest from hrequest)]
  have htruncated : p.getTruncatedHash c = hash.take 16 :=
    getTruncatedHash_of_unpack hunpack hp.packetHash
  have hkey : Wire.Packet.getTruncatedHash c { hopped p with transportId := s.identityHash } =
      hash.take 16 := htruncated
  rw [hkey, Table.insert_self]
  have hreceived : (hopped p).receivingInterface = some name := hiface
  rw [hreceived]

end Entry

/-! ## The entry until the proof comes -/

section Kept

variable {c : Crypto} {s : TransportState} {n : Instance} {r : Reading} {p : Wire.Packet}
  {address raw : Bytes} {entry : ReverseEntry} {name : String}

theorem reverseTable_inboundAnnounce :
    (inboundAnnounce c s r p).2.reverseTable = s.reverseTable := by
  obtain ⟨validated, known, ratchets, hashlist, -, ⟨-, hstate, -⟩ | ⟨-, hstate, -⟩⟩ :=
    inboundAnnounce_cases c s r p
  · rw [hstate]
    obtain ⟨table, ⟨-, heq⟩ | ⟨hash, requests, pacing, pending, -, heq⟩⟩ :=
      processAnnounce_cases { s with
        validatedAnnounceHashes := validated, knownDestinations := known
        knownRatchets := ratchets, packetHashlist := hashlist } r p
    · rw [heq]
    · rw [heq]
      rfl
  · rw [hstate]

/-- A frame that spares an entry. -/
theorem reverseTable_inbound (hentry : s.reverseTable address = some entry)
    (hout : entry.outboundInterface.isSome = true)
    (hspares : ∀ p, readFrame c raw (some name) = some p → p.packetType ≠ Wire.announce →
      packetFilter s p = true → Spared c s address entry p) :
    (inbound c s r raw (some name)).2.reverseTable address = some entry := by
  have hadmitted : ∀ p, (admitted s r p).reverseTable address = some entry := by
    intro p
    rw [sameRoutes_admitted.2.2]
    exact hentry
  obtain ⟨-, hnoted⟩ | ⟨p, hread, ⟨-, heq⟩ | ⟨htype, heq⟩⟩ :=
    inbound_cases c s r raw (some name)
  · obtain ⟨_, _, _, hstate, -, -⟩ := hnoted
    rw [hstate]
    exact hentry
  · rw [heq]
    dsimp only
    rw [reverseTable_inboundAnnounce]
    exact hadmitted p
  · obtain ⟨⟨destinationHash, hdest⟩, -⟩ := fields_of_readFrame hread
    have hfilter := (passes_of_processed hread htype (congrArg Prod.fst heq)).1
    obtain ⟨hother, hproof⟩ := hspares p hread htype hfilter
    rw [heq]
    refine reverseTable_inboundPacket (p := hopped p) hdest htype (hadmitted p) hout ⟨?_, hproof⟩
    intro hrequest hknown
    apply hother hrequest
    change p.destinationHash.any _ = true at hknown
    rw [hdest] at hknown ⊢
    exact (sameRoutes_admitted.1.contains destinationHash).symm.trans hknown

/-- The node that takes the frame in keeps the entry. -/
theorem reverseTable_receive {call : Call}
    (hstate : (inbound c n.toTransportState call.reading raw (some name)).2.reverseTable address =
      some entry) :
    (receive c n call raw (some name)).1.reverseTable address = some entry := by
  obtain ⟨-, heq | ⟨p, -, heq⟩ | ⟨p, -, heq⟩⟩ := receive_cases c n call raw (some name)
  · rw [heq]
    exact hstate
  · rw [heq]
    obtain ⟨_, hasked⟩ := pathRequestHandler_state c { n with
      toTransportState := (inbound c n.toTransportState call.reading raw (some name)).2 } call p
    rw [hasked]
    exact hstate
  · rw [heq]
    unfold tunnelSynthesizeHandler
    split
    · exact hstate
    · obtain ⟨_, _, _, _, htunnel⟩ := handleTunnel_eq
        (inbound c n.toTransportState call.reading raw (some name)).2 call.reading _ _
        call.tunnelPaths
      dsimp only
      rw [htunnel]
      exact hstate

/-- A pass in the lifetime of an entry leaves it there. -/
theorem entry_keptByStages (pass : Pass) (address : Bytes) (entry : ReverseEntry) :
    KeptByStages pass fun n => n.reverseTable address = some entry ∧
      staleReverse n.interfaces pass.now entry = false := by
  refine .of_queues (fun _ _ h => h) ?_ ?_ ?_
  · intro n requests hash h
    unfold closeLink
    dsimp only
    repeat' split
    all_goals exact h
  · intro n requests task h
    unfold runTask markPathUnresponsive expirePath
    dsimp only
    repeat' split
    all_goals exact h
  · intro n h
    refine ⟨?_, h.2⟩
    change (n.reverseTable address).filter _ = some entry
    rw [h.1, Option.filter_some, h.2]
    rfl

variable {state state' : Station} {event : StationEvent}

/-- A call that spares an entry. -/
theorem reverseTable_step (hentry : state.state.reverseTable address = some entry)
    (hout : entry.outboundInterface.isSome = true)
    (hspares : SparesEntry c address entry state event) (hstep : state.step c event = some state') :
    state'.state.reverseTable address = some entry := by
  cases event with
  | receive call raw receivingInterface =>
      obtain rfl := Option.some.inj hstep
      exact reverseTable_receive (reverseTable_inbound hentry hout hspares)
  | requestPath reading request =>
      obtain rfl := Option.some.inj hstep
      exact hentry
  | announce answer =>
      obtain rfl := Option.some.inj hstep
      exact hentry
  | send reading packet destinationHash broadcast =>
      obtain rfl := Option.some.inj hstep
      unfold Station.send
      split
      · obtain ⟨_, _, hsent⟩ := sendAlong_eq reading packet destinationHash
          (selectAllPaths state.state.pathTable state.state.interfaces destinationHash reading.now)
          state.state.toTransportState
        change (outbound _ reading packet destinationHash).1.reverseTable address = _
        unfold outbound
        rw [hsent]
        exact hentry
      · exact hentry
  | jobs pass order =>
      obtain rfl := Option.some.inj hstep
      exact ((entry_keptByStages pass address entry).jobs ⟨hentry, hspares⟩).1

/-- A run of calls that spare an entry. -/
theorem reverseTable_run {events : List StationEvent}
    (hentry : state.state.reverseTable address = some entry)
    (hout : entry.outboundInterface.isSome = true)
    (hspares : Meets (Station.step c) (SparesEntry c address entry) state events)
    (hrun : exec (Station.step c) state events = some state') :
    state'.state.reverseTable address = some entry :=
  invariant (P := fun s => s.state.reverseTable address = some entry)
    (fun _ _ _ h hspared hstep => reverseTable_step h hout hspared hstep) hentry hspares hrun

end Kept

/-! ## A proof at a relay -/

namespace Relay

variable {c : Crypto} {y : Relay} {f : Frame} {p : Wire.Packet} {address raw : Bytes}
  {name : String}

/-- The relay has noted the packet with this truncated hash. -/
def HasPassage (y : Relay) (address : Bytes) : Prop :=
  ∃ timestamp, y.state.reverseTable address = some { y.passage with timestamp := timestamp }

/-- A proof whose address names no path and no link goes where the reverse table says. -/
theorem queued_of_packetProof (hpath : y.state.pathTable address = none)
    (hlink : y.state.linkTable address = none) (hp : IsPacketProof p) :
    queued c y.state y.reading p address =
      hoppedFrames p (returnVia y.state y.reading p address (y.state.reverseTable address)) := by
  have hcontains : y.state.pathTable.contains address = false := by
    unfold Table.contains
    rw [hpath]
    rfl
  have hvia : pathVia y.state y.reading address = none := by
    unfold pathVia
    rw [hpath]
    rfl
  have htransit : transitFrames y.state y.reading p address = [] := by
    unfold transitFrames transitVia
    rw [transitRoute_of_not_contains hcontains, ite_self]
    rfl
  have hrelay : relayVia y.state y.reading p address = none := by
    unfold relayVia linkVia
    rw [hlink, hvia]
    exact ite_self none
  have hdata : dataVia y.state y.reading p address = none := by
    unfold dataVia
    rw [hvia, ite_self]
  have hreverse : reverseEntry c y.state y.reading p address = y.state.reverseTable address := by
    unfold reverseEntry
    rw [hcontains]
    exact if_neg fun h => Bool.false_ne_true h.2.2
  unfold queued proofVia
  rw [htransit, hrelay, hdata, hreverse, if_pos hp.1, if_neg hp.2.1, if_neg hp.2.2]
  rfl

/-- A proof from anywhere but where the packet went is not forwarded, and the entry stays. -/
theorem receive_elsewhere (hpath : y.state.pathTable address = none)
    (hlink : y.state.linkTable address = none) (hnoted : y.HasPassage address)
    (hunpack : (Wire.Packet.holding raw (some name)).unpack c = some p) (hp : IsPacketProof p)
    (hdest : p.destinationHash = some address) (hname : name ≠ y.down) :
    (y.receive c name raw).1.outbound = [] ∧
      (y.receive c name raw).2.reverseTable address = y.state.reverseTable address := by
  obtain ⟨timestamp, hentry⟩ := hnoted
  have htype : p.packetType ≠ Wire.announce := by
    rw [hp.1]
    decide
  have hiface : p.receivingInterface = some name := by
    obtain ⟨f, -, rfl⟩ := Frame.unpack_eq_some_iff.mp hunpack
    rfl
  have hside : p.receivingInterface ≠ some y.down := by
    rw [hiface]
    exact fun h => hname (Option.some.inj h)
  constructor
  · obtain hnone | hqueued := outbound_nil_or_queued (s := y.state) (r := y.reading) hunpack hdest
      htype
    · exact hnone
    · change (inbound c y.state y.reading raw (some name)).1.outbound = []
      rw [hqueued, queued_of_packetProof (p := hopped p) hpath hlink hp, hentry]
      unfold returnVia
      dsimp only
      rw [if_neg (show ¬ (hopped p).receivingInterface = y.passage.outboundInterface from hside)]
      rfl
  · rw [hentry]
    refine reverseTable_inbound hentry rfl fun q hread _ _ => ?_
    have hsame := hread.symm.trans (readFrame_of_unpack hunpack)
    split at hsame
    · cases hsame
    obtain rfl := Option.some.inj hsame
    refine ⟨fun _ hknown => ?_, fun _ _ => hside⟩
    rw [hdest] at hknown
    unfold Table.contains at hknown
    rw [Option.any_some, hpath] at hknown
    cases hknown

section

variable (hf : ReturnFrame f address)

include hf

/-- What the relay reads of a proof that is addressed to it or to a packet it has forwarded. -/
theorem read_of_returnFrame (receivingInterface : Option String) :
    readFrame c f.encode receivingInterface =
      some (f.fill c (.holding f.encode receivingInterface)) := by
  have hread := readFrame_of_unpack (c := c)
    (Frame.unpack_encode (p := .holding f.encode receivingInterface) rfl)
  rwa [if_neg (show ¬ (f.fill c (.holding f.encode receivingInterface)).flags &&& 0x80 = 0x80
    from hf.access)] at hread

theorem isPacketProof_of_returnFrame (q : Wire.Packet) :
    IsPacketProof (f.fill c q) := by
  refine ⟨hf.packetType, ?_, ?_⟩
  · change f.context ≠ Wire.lrproof
    rw [hf.context]
    decide
  · change Wire.DestinationType.ofUInt8 ((f.flags &&& 0x0C) >>> 2) ≠ some .link
    rw [hf.single]
    decide

/-- A proof is no cache request, and no packet of a control destination. -/
theorem passes_of_returnFrame {s : TransportState}
    (hcontrol : s.controlHashes.contains address = false) (q : Wire.Packet) :
    controlAspects s (f.fill c q) = none ∧ cachedPacket c s (f.fill c q) = none := by
  constructor
  · have hdest : (f.fill c q).destinationHash = some address := congrArg some hf.destination
    unfold controlAspects
    rw [hdest, Option.bind_some, hcontrol]
    rfl
  · have hcontext : (f.fill c q).context ≠ Wire.cacheRequest := by
      change f.context ≠ Wire.cacheRequest
      rw [hf.context]
      decide
    exact if_neg fun h => hcontext h.1

end

/-- A proof from where the packet went goes back to where it came from, and takes the entry
with it. -/
theorem receive_back (hy : y.Unshared address) (hnoted : y.HasPassage address)
    (hf : ReturnFrame f address)
    (hfilter : packetFilter y.state (f.fill c (.holding f.encode (some y.down))) = true) :
    (y.receive c y.down f.encode).1.outbound = [(y.up, setHops f.encode (f.hops + 1))] ∧
      (y.receive c y.down f.encode).2.reverseTable address = none := by
  let p := f.fill c (.holding f.encode (some y.down))
  obtain ⟨timestamp, hentry⟩ := hnoted
  have hread : readFrame c f.encode (some y.down) = some p := read_of_returnFrame hf _
  have hdest : p.destinationHash = some address := congrArg some hf.destination
  have hproof : IsPacketProof p := isPacketProof_of_returnFrame hf _
  have htype : p.packetType ≠ Wire.announce := by
    rw [hproof.1]
    decide
  obtain ⟨hcontrol, hcached⟩ := passes_of_returnFrame (c := c) hf hy.control
    (.holding f.encode (some y.down))
  have hcontains : y.state.pathTable.contains address = false := by
    unfold Table.contains
    rw [hy.path]
    rfl
  have hstate : inbound c y.state y.reading f.encode (some y.down) = _ :=
    inbound_of_passed hread htype hcontrol hfilter hcached
  unfold receive
  constructor
  · obtain ⟨up, hup⟩ := Option.isSome_iff_exists.mp hy.up
    have hname : up.name = y.up := by simpa using List.find?_some hup
    rw [outbound_of_readFrame hread hdest htype hcontrol, if_pos ⟨hfilter, hcached⟩,
      queued_of_packetProof (p := hopped p) hy.path hy.link hproof, hentry]
    unfold returnVia
    dsimp only
    rw [if_pos (show (hopped p).receivingInterface = y.passage.outboundInterface from rfl)]
    change hoppedFrames (hopped p) ((findInterface y.state.interfaces y.up).map (·.name)) = _
    rw [hup, Option.map_some, hname]
    change [(y.up, setHops f.encode (saturatingSucc f.hops))] = _
    rw [(saturatingSucc_hops f).1]
  · rw [hstate]
    obtain ⟨hsame, -, hreverse⟩ := sameRoutes_admitted (s := y.state) (r := y.reading) (p := p)
    exact reverseTable_inboundPacket_taken (p := hopped p) hdest
      ((hsame.contains address).trans hcontains) ((congrFun hreverse address).trans hentry) hproof
      rfl

end Relay

end Reticulum.Transport
