import Reticulum.Transport.Horizon
import Reticulum.Transport.Rewrite

/-!
# A relayed packet is the same packet

Every branch that forwards a frame sends one that the next node reads as the same
packet, one hop further on; so does the conversion of a frame of one address in
`Transport::outbound`, without the hop. A link request may lose its signalling
bytes, and keeps its link id.

## Implementation notes

A frame with 127 hops would leave with 128, which no node reads. The next hop of
a route with more than one hop is taken to be an address, as it is when the route
comes from an announce. Nothing is said here of the hops of a frame of one address
that transit forwarding sends along a route of one hop.
-/

namespace Reticulum.Transport

open Wire (Frame)

/-- Two packets are the same for routing. -/
structure SamePacket (c : Crypto) (p q : Wire.Packet) : Prop where
  packetType : q.packetType = p.packetType
  destinationHash : q.destinationHash = p.destinationHash
  context : q.context = p.context
  data : p.packetType ≠ Wire.linkRequest → q.data = p.data ∧ q.packetHash = p.packetHash
  linkId : p.packetType = Wire.linkRequest →
    Link.linkIdFromLrPacket c (linkPacket q) = Link.linkIdFromLrPacket c (linkPacket p)

/-- Whichever interface the next node receives the bytes on, it reads a packet with this
property. -/
def Arrives (c : Crypto) (raw : Bytes) (P : Wire.Packet → Prop) : Prop :=
  ∀ receivingInterface, ∃ q,
    (Wire.Packet.holding raw receivingInterface).unpack c = some q ∧ P q

/-- What transit forwarding sends along a route arrives. -/
def TransitArrives (c : Crypto) (p : Wire.Packet) (e : PathEntry) (raw : Bytes) : Prop :=
  Arrives c raw fun q => SamePacket c p q ∧
    (1 < e.hops → q.transportId = some e.nextHop) ∧
    (e.hops ≠ 1 ∨ p.headerType = Wire.header2 → q.hops = p.hops + 1)

/-- What any other branch sends arrives. -/
def RelayArrives (c : Crypto) (p : Wire.Packet) (raw : Bytes) : Prop :=
  Arrives c raw fun q => SamePacket c p q ∧ q.hops = p.hops + 1 ∧ q.transportId = p.transportId

section Frames

variable {c : Crypto} {s : TransportState} {r : Reading} {p : Wire.Packet} {f g : Frame}

/-- The packet of a frame reads it. -/
theorem reads_fill (hraw : p.raw = f.encode) : Reads (f.fill c p) f := ⟨hraw, rfl, rfl, rfl⟩

theorem reads_hopped (h : Reads p f) : Reads (hopped p) f := ⟨h.raw, h.flags, h.headerType, h.data⟩

/-- Packets of frames with the same address and keys, and the same data but for link
requests, are the same. -/
theorem samePacket_of_frames {p' : Wire.Packet} (hp : p.raw = f.encode) (hq : p'.raw = g.encode)
    (haddress : SameAddress f g) (hkeys : g.data.take Link.ecPubSize = f.data.take Link.ecPubSize)
    (hdata : f.flags &&& 0x03 ≠ Wire.linkRequest → g.data = f.data) :
    SamePacket c (f.fill c p) (g.fill c p') where
  packetType := (fields_of_lowFlags haddress.flags).1
  destinationHash :=
    congrArg (fun hash : Bytes.Block Wire.dstLen => some hash.1) haddress.destinationHash
  context := haddress.context
  data := by
    intro hrequest
    have hhash : g.hashable = f.hashable := by
      unfold Frame.hashable
      rw [haddress.flags, haddress.destinationHash, haddress.context, hdata hrequest]
    refine ⟨hdata hrequest, ?_⟩
    change some (c.fullHash g.hashable).1 = some (c.fullHash f.hashable).1
    rw [hhash]
  linkId := by
    intro _
    unfold Link.linkIdFromLrPacket
    rw [Frames.linkIdPart_of_reads (reads_fill hp), Frames.linkIdPart_of_reads (reads_fill hq),
      haddress.flags, haddress.destinationHash, haddress.context, hkeys]

theorem saturatingSucc_of_lt {hops : UInt8} (h : hops < 127) :
    saturatingSucc hops = hops + 1 ∧ hops + 1 < Wire.pathfinderM := by
  obtain ⟨n, rfl⟩ := Wire.exists_fin_of_lt hops.toNat_lt
  revert n
  decide +kernel

/-- A frame that is sent on with its hops set arrives. -/
theorem relayArrives_setHops (hraw : p.raw = f.encode) (hhops : f.hops < 127) :
    RelayArrives c (f.fill c p) (setHops f.encode (saturatingSucc f.hops)) := by
  obtain ⟨hsucc, hlimit⟩ := saturatingSucc_of_lt hhops
  intro receivingInterface
  rw [hsucc, Frames.setHops_encode hlimit]
  refine ⟨_, Frame.unpack_encode rfl, ?_, rfl, rfl⟩
  exact samePacket_of_frames hraw rfl ⟨rfl, rfl, rfl⟩ rfl fun _ => rfl

/-- The frame of transit forwarding, with its signalling bytes. -/
theorem exists_transitFrame (hp : Reads p f) (hhops : p.hops < Wire.pathfinderM) {nextHop : Bytes}
    {remainingHops : UInt8} (hnext : 1 < remainingHops → nextHop.length = Wire.dstLen)
    (outbound : Option String) :
    ∃ g g', transitFrame s p nextHop remainingHops outbound = g'.encode ∧
      Frames.Transited f nextHop remainingHops p.hops g ∧ Frames.SameKeys g g' ∧
      (p.packetType ≠ Wire.linkRequest → g' = g) := by
  obtain ⟨g, hraw, htransited⟩ := Frames.exists_transited hp hhops hnext
  unfold transitFrame
  rw [hraw]
  split
  · rename_i hrequest
    obtain ⟨g', hclamped, hkeys⟩ := Frames.exists_clamped (s := s) (g := g) (p := p)
      (htransited.data.trans hp.data.symm) outbound
    exact ⟨g, g', hclamped, htransited, hkeys, fun h => absurd hrequest h⟩
  · exact ⟨g, g, rfl, htransited, ⟨rfl, rfl, rfl, rfl, rfl, rfl⟩, fun _ => rfl⟩

/-- What transit forwarding sends arrives. -/
theorem transitArrives (hraw : p.raw = f.encode) (hhops : f.hops < 127) {e : PathEntry}
    (hnext : 1 < e.hops → e.nextHop.length = Wire.dstLen) :
    TransitArrives c (f.fill c p) e
      (transitFrame s (hopped (f.fill c p)) e.nextHop e.hops e.receivingInterface) := by
  obtain ⟨hsucc, hlimit⟩ := saturatingSucc_of_lt hhops
  have hlimit' : (hopped (f.fill c p)).hops < Wire.pathfinderM := by
    change saturatingSucc f.hops < Wire.pathfinderM
    rw [hsucc]
    exact hlimit
  obtain ⟨g, g', hframe, htransited, hkeys, hsame⟩ :=
    exists_transitFrame (s := s) (reads_hopped (reads_fill (c := c) hraw)) hlimit' hnext
      e.receivingInterface
  have haddress : SameAddress f g' :=
    htransited.address.trans
      ⟨congrArg (· &&& 0x0F) hkeys.flags, hkeys.destinationHash, hkeys.context⟩
  intro receivingInterface
  rw [hframe]
  refine ⟨_, Frame.unpack_encode rfl, ?_, ?_, ?_⟩
  · apply samePacket_of_frames hraw rfl haddress
    · rw [hkeys.keys, htransited.data]
    · intro hrequest
      rw [hsame hrequest, htransited.data]
  · intro hmany
    change g'.transportId.map Subtype.val = _
    rw [hkeys.transportId]
    exact htransited.transportId hmany
  · intro hcounted
    change g'.hops = f.hops + 1
    rw [hkeys.hops, ← hsucc]
    exact htransited.hops (hcounted.imp_right f.headerType.mp)

/-- The frames of transit forwarding go along the route that is chosen. -/
theorem exists_route_of_mem_transitFrames {destinationHash : Bytes} {frame : String × Bytes}
    (h : frame ∈ transitFrames s r p destinationHash) :
    ∃ e, selectPathExcluding s.pathTable s.interfaces destinationHash r.now
        p.receivingInterface = some e ∧ e.receivingInterface = some frame.1 ∧
      frame.2 = transitFrame s p e.nextHop e.hops e.receivingInterface := by
  unfold transitFrames transitVia transitRoute at h
  cases hselect : selectPathExcluding s.pathTable s.interfaces destinationHash r.now
      p.receivingInterface with
  | none => simp [hselect] at h
  | some e =>
      simp only [hselect] at h
      split at h
      · obtain ⟨name, hname, rfl⟩ := List.mem_map.mp h
        exact ⟨e, rfl, Option.mem_toList.mp hname, rfl⟩
      · cases h

end Frames

/-- A frame that is no announce is not forwarded, or what is queued for it is what the
blocks queue. -/
theorem outbound_nil_or_queued {c : Crypto} {s : TransportState} {r : Reading} {p : Wire.Packet}
    {raw : Bytes} {receivingInterface : Option String} {destinationHash : Bytes}
    (hunpack : (Wire.Packet.holding raw receivingInterface).unpack c = some p)
    (hdest : p.destinationHash = some destinationHash) (htype : p.packetType ≠ Wire.announce) :
    (inbound c s r raw receivingInterface).1.outbound = [] ∨
      (inbound c s r raw receivingInterface).1.outbound =
        queued c s r (hopped p) destinationHash := by
  by_cases hsent : (inbound c s r raw receivingInterface).1.outbound = []
  · exact .inl hsent
  · exact .inr (passed_of_outbound hunpack hdest htype hsent).2.2.2.2

/-! ## Packets of this node -/

/-- A packed packet has the fields of the frame that it holds. -/
theorem reads_of_pack {c : Crypto} {d : Wire.Draft} {p : Wire.Packet} {f : Frame}
    (hd : d.WellFormed) (hpack : d.packet.pack c = .ok p) (hraw : p.raw = f.encode) :
    p.flags = f.flags ∧ p.hops = f.hops ∧ p.headerType = Wire.headerTypeOf f.flags := by
  obtain ⟨hbytes, hheader, -⟩ := Wire.raw_of_pack hd hpack
  rw [hraw] at hbytes
  obtain ⟨hflags, hrest⟩ := List.cons.inj hbytes
  obtain ⟨hhops, -⟩ := List.cons.inj hrest
  have hfields : p.flags = d.packet.flags ∧ p.hops = d.hops := by
    unfold Wire.Packet.pack at hpack
    change Except.bind (d.packet.packBody d.destination) _ = _ at hpack
    cases hbody : d.packet.packBody d.destination with
    | error e =>
        rw [hbody] at hpack
        cases hpack
    | ok body =>
        rw [hbody] at hpack
        dsimp only [Except.bind] at hpack
        split at hpack
        · cases hpack
        · obtain rfl := Except.ok.inj hpack
          exact ⟨rfl, rfl⟩
  have htype : Wire.headerTypeOf d.packet.flags = d.headerType := by
    rw [d.flags_packet]
    exact (Wire.fields_packFlags hd.headerType hd.contextFlag hd.transportType hd.packetType _).1
  rw [hflags, hhops, htype]
  exact ⟨hfields.1, hfields.2, hheader⟩

/-- What the conversion sends arrives. -/
theorem convertArrives {c : Crypto} {p p' : Wire.Packet} {f : Frame} {nextHop : Bytes}
    (hraw : p.raw = f.encode) (hraw' : p'.raw = f.encode) (hflags : p.flags = f.flags)
    (hhops : p.hops = f.hops) (hheader : Wire.headerTypeOf f.flags = Wire.header1)
    (hnext : nextHop.length = Wire.dstLen) :
    Arrives c (convertRaw p nextHop) fun q =>
      SamePacket c (f.fill c p') q ∧ q.hops = f.hops ∧ q.transportId = some nextHop := by
  have hheader1 : Wire.headerTypeOf f.flags ≠ Wire.header2 := by
    rw [hheader]
    decide
  obtain ⟨htype, hlow, -⟩ := transportFlags f.flags
  have hencode : convertRaw p nextHop =
      (Frames.withTransport f _ f.hops ⟨nextHop, hnext⟩ htype f.hops_lt).encode := by
    unfold convertRaw
    rw [hflags, hhops, hraw, Frames.drop_of_header1 hheader1]
    simp [Frames.withTransport, Frame.encode, Frame.transportBytes]
  intro receivingInterface
  rw [hencode]
  refine ⟨_, Frame.unpack_encode rfl, ?_, rfl, rfl⟩
  exact samePacket_of_frames hraw' rfl ⟨hlow, rfl, rfl⟩ rfl fun _ => rfl

theorem outboundRaw_shortenExpiry (s : TransportState) (r : Reading) (p : Wire.Packet)
    (destinationHash : Bytes) (e e' : PathEntry) :
    outboundRaw (shortenExpiry s r destinationHash e) p destinationHash e' =
      outboundRaw s p destinationHash e' := by
  have hshared : (shortenExpiry s r destinationHash e).isConnectedToSharedInstance =
      s.isConnectedToSharedInstance := by
    unfold shortenExpiry
    dsimp only
    split
    · rfl
    · split <;> rfl
  unfold outboundRaw converts
  rw [hshared]

/-- Every frame of `outbound` goes along one of the routes. -/
theorem exists_route_of_mem_sendAlong {r : Reading} {p : Wire.Packet} {destinationHash : Bytes}
    {frame : String × Bytes} {routes : List PathEntry} {s : TransportState}
    (h : frame ∈ (sendAlong r p destinationHash s routes).2.1) :
    ∃ e ∈ routes, e.receivingInterface = some frame.1 ∧
      frame.2 = outboundRaw s p destinationHash e := by
  induction routes generalizing s with
  | nil => cases h
  | cons e routes ih =>
      have hown : frame ∈ ((e.receivingInterface.bind
          (findInterface s.interfaces)).toList.map fun out =>
            (out.name, outboundRaw s p destinationHash e)) →
          ∃ e' ∈ e :: routes, e'.receivingInterface = some frame.1 ∧
            frame.2 = outboundRaw s p destinationHash e' := by
        intro hmem
        obtain ⟨out, hout, rfl⟩ := List.mem_map.mp hmem
        obtain ⟨name, hname, hfind⟩ := Option.bind_eq_some_iff.mp (Option.mem_toList.mp hout)
        have hfound := List.find?_some hfind
        obtain rfl : out.name = name := by simpa using hfound
        exact ⟨e, List.mem_cons_self, hname, rfl⟩
      unfold sendAlong at h
      dsimp only at h
      split at h
      · split at h
        · obtain ⟨e', hmem, hvia, hframe⟩ := ih h
          rw [outboundRaw_shortenExpiry] at hframe
          exact ⟨e', List.mem_cons_of_mem _ hmem, hvia, hframe⟩
        · exact hown h
      · exact hown h

/-- Every frame that is forwarded, and every frame that is converted for its first hop, is
read at the next node as the same packet with the right number of hops. -/
theorem relayed_same (c : Crypto) :
    (∀ (s : TransportState) (r : Reading) (p : Wire.Packet) (raw : Bytes)
        (receivingInterface : Option String) (destinationHash : Bytes),
      (Wire.Packet.holding raw receivingInterface).unpack c = some p →
      p.packetType ≠ Wire.announce → p.destinationHash = some destinationHash →
      p.hops < 127 →
      ((inbound c s r raw receivingInterface).1.outbound = [] ∨
        (inbound c s r raw receivingInterface).1.outbound =
          queued c s r (hopped p) destinationHash) ∧
      (∀ frame ∈ transitFrames s r (hopped p) destinationHash,
        ∃ e, selectPathExcluding s.pathTable s.interfaces destinationHash r.now
            receivingInterface = some e ∧ e.receivingInterface = some frame.1 ∧
          ((1 < e.hops → e.nextHop.length = Wire.dstLen) →
            TransitArrives c p e frame.2)) ∧
      (∀ via, ∀ frame ∈ hoppedFrames (hopped p) via, RelayArrives c p frame.2)) ∧
    (∀ (s : TransportState) (r : Reading) (d : Wire.Draft) (p u : Wire.Packet)
        (destinationHash : Bytes),
      d.WellFormed → d.packet.pack c = .ok p →
      (Wire.Packet.holding p.raw none).unpack c = some u →
      ∀ frame ∈ (outbound s r p destinationHash).2.1,
        ∃ e ∈ selectAllPaths s.pathTable s.interfaces destinationHash r.now,
          e.receivingInterface = some frame.1 ∧
          frame.2 = outboundRaw s p destinationHash e ∧
          (converts s p destinationHash e = true → e.nextHop.length = Wire.dstLen →
            Arrives c frame.2 fun q =>
              SamePacket c u q ∧ q.hops = u.hops ∧ q.transportId = some e.nextHop)) := by
  constructor
  · intro s r p raw receivingInterface destinationHash hunpack htype hdest hhops
    refine ⟨outbound_nil_or_queued hunpack hdest htype, ?_, ?_⟩
    · obtain ⟨f, hraw, rfl⟩ := Frame.unpack_eq_some_iff.mp hunpack
      intro frame hframe
      obtain ⟨e, hselect, hvia, heq⟩ := exists_route_of_mem_transitFrames hframe
      refine ⟨e, hselect, hvia, fun hnext => ?_⟩
      rw [heq]
      exact transitArrives hraw hhops hnext
    · obtain ⟨f, hraw, rfl⟩ := Frame.unpack_eq_some_iff.mp hunpack
      intro via frame hframe
      obtain ⟨name, -, rfl⟩ := List.mem_map.mp hframe
      change RelayArrives c _ (setHops raw (saturatingSucc f.hops))
      change raw = f.encode at hraw
      have harrives := relayArrives_setHops (c := c)
        (p := Wire.Packet.holding raw receivingInterface) (f := f) hraw hhops
      rw [← hraw] at harrives
      exact harrives
  · intro s r d p u destinationHash hd hpack hunpack frame hframe
    obtain ⟨e, hmem, hvia, heq⟩ := exists_route_of_mem_sendAlong hframe
    refine ⟨e, hmem, hvia, heq, fun hconverts hnext => ?_⟩
    obtain ⟨f, hraw, rfl⟩ := Frame.unpack_eq_some_iff.mp hunpack
    obtain ⟨hflags, hhops, hheader⟩ := reads_of_pack hd hpack hraw
    have hheader1 : Wire.headerTypeOf f.flags = Wire.header1 := by
      rw [← hheader]
      simp only [converts, Bool.and_eq_true, decide_eq_true_eq] at hconverts
      exact hconverts.1
    rw [heq]
    unfold outboundRaw
    rw [if_pos hconverts]
    exact convertArrives hraw hraw hflags hhops hheader1 hnext

section Samples

set_option maxRecDepth 2048

/-- A frame of this type with a transport id, for the destination of the sample route. -/
def sampleTransit (packetType hops : UInt8) : Bytes :=
  [0x50 ||| packetType, hops] ++ List.replicate 16 9 ++ List.replicate 16 0 ++ [0x00, 0x07]

/-- The sample relay with a route of two hops to this next hop. -/
def sampleTwoHops (identityHash : Option Bytes) (nextHop : Bytes) : TransportState :=
  { sampleRelay with
    identityHash := identityHash
    pathTable := sampleRelay.pathTable.insert (List.replicate 16 0)
      [{ timestamp := 0, nextHop := nextHop, hops := 2, expires := 60
         receivingInterface := some "right", packetHash := [] }] }

/-- A link request comes out of the relay without its transport id, one hop further on. -/
theorem relayed_same_linkRequest :
    Arrives (Link.sampleCrypto []) ([0x02, 0x01] ++ List.replicate 16 0 ++ [0x00, 0x07])
      fun q => q.hops = 1 := by
  have hunpack : (Wire.Packet.holding (sampleTransit Wire.linkRequest 0) (some "left")).unpack
      (Link.sampleCrypto []) = some (((Wire.Packet.holding (sampleTransit Wire.linkRequest 0)
        (some "left")).unpack (Link.sampleCrypto [])).getD (.holding [] none)) := rfl
  obtain ⟨-, htransit, -⟩ := (relayed_same (Link.sampleCrypto [])).1 sampleRelay .zero _ _ _
    (List.replicate 16 0) hunpack (by decide) rfl (by decide)
  obtain ⟨e, hselect, -, harrives⟩ := htransit
    ("right", [0x02, 0x01] ++ List.replicate 16 0 ++ [0x00, 0x07]) (by decide +kernel)
  have hnext : ∀ e', selectPathExcluding sampleRelay.pathTable sampleRelay.interfaces
      (List.replicate 16 0) Reading.zero.now (some "left") = some e' →
        e'.nextHop.length = Wire.dstLen := by
    have hlength : (selectPathExcluding sampleRelay.pathTable sampleRelay.interfaces
        (List.replicate 16 0) Reading.zero.now (some "left")).map (·.nextHop.length) =
          some Wire.dstLen := by
      decide +kernel
    intro e' h
    rw [h] at hlength
    exact Option.some.inj hlength
  intro receivingInterface
  obtain ⟨q, hq, -, -, hhops⟩ := harrives (fun _ => hnext e hselect) receivingInterface
  exact ⟨q, hq, hhops (.inr (by decide))⟩

/-- The hops of 127, a frame of one address on its last hop, the fallback to a route of two
hops, and a next hop that is no address. -/
theorem relayed_same_false :
    (∃ frame ∈ (inbound (Link.sampleCrypto []) sampleRelay .zero
        (sampleTransit Wire.linkRequest 127) (some "left")).1.outbound,
      ¬ Arrives (Link.sampleCrypto []) frame.2 fun _ => True) ∧
    (∃ frame ∈ (inbound (Link.sampleCrypto []) sampleRelay .zero
        (sampleFrame Wire.linkRequest) (some "left")).1.outbound,
      ¬ Arrives (Link.sampleCrypto []) frame.2 fun q => q.hops = 1) ∧
    (∃ frame ∈ (inbound (Link.sampleCrypto []) (sampleTwoHops none (List.replicate 16 5)) .zero
        (sampleFrame Wire.data) (some "left")).1.outbound,
      ¬ Arrives (Link.sampleCrypto []) frame.2 fun q =>
        q.transportId = some (List.replicate 16 5)) ∧
    (∃ frame ∈ (inbound (Link.sampleCrypto [])
        (sampleTwoHops (some (List.replicate 16 9)) [5]) .zero
        (sampleTransit Wire.linkRequest 0) (some "left")).1.outbound,
      ¬ Arrives (Link.sampleCrypto []) frame.2 fun q => q.hops = 1) := by
  refine ⟨⟨("right", [0x02, 128] ++ List.replicate 16 0 ++ [0x00, 0x07]), by decide +kernel, ?_⟩,
    ⟨("right", sampleFrame Wire.linkRequest), by decide +kernel, ?_⟩,
    ⟨("right", [0x00, 0x01] ++ List.replicate 16 0 ++ [0x00, 0x07]), by decide +kernel, ?_⟩,
    ⟨("right", sampleTransit Wire.linkRequest 0), by decide +kernel, ?_⟩⟩
  · intro h
    obtain ⟨q, hq, -⟩ := h none
    exact absurd hq (by rintro ⟨⟩)
  · intro h
    obtain ⟨q, hq, hhops⟩ := h none
    obtain rfl := Option.some.inj hq
    exact absurd hhops (by decide)
  · intro h
    obtain ⟨q, hq, hid⟩ := h none
    obtain rfl := Option.some.inj hq
    exact absurd hid (by decide)
  · intro h
    obtain ⟨q, hq, hhops⟩ := h none
    obtain rfl := Option.some.inj hq
    exact absurd hhops (by decide)

end Samples

end Reticulum.Transport
