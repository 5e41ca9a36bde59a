import Reticulum.Transport.LinkKept

/-!
# A link request along a chain of relays

The link request of an initiator passes a chain of relays whose path tables
agree. It arrives at every relay as a request for the same link, with the hops of
the relay's place in the chain, and leaves an entry there with these hops and
those that remain.

## Implementation notes

The relays are listed from the initiator to the destination. Relay `i` receives
frame `i` of a packet that goes to the destination and sends frame `i + 1`; for a
packet that comes back it is the other way round.
-/

namespace Reticulum.Transport

open Wire (Frame)

/-- Every relay's route to the destination is one hop shorter than that of the relay before,
and leads to the relay after it, on another interface than the one it hears the relay
before on. -/
def Agree (destinationHash : Bytes) (relays : List Relay) : Prop :=
  ∀ i x, relays[i]? = some x → x.up ≠ x.down ∧
    ∃ e, selectPathExcluding x.state.pathTable x.state.interfaces destinationHash x.reading.now
        (some x.up) = some e ∧
      e.receivingInterface = some x.down ∧ e.hops.toNat + i = relays.length ∧
      ∀ y, relays[i + 1]? = some y →
        y.state.identityHash = some e.nextHop ∧ e.nextHop.length = Wire.dstLen

/-- Every relay passes on what it gets from the one before. -/
def Travels (c : Crypto) (relays : List Relay) (frames : Nat → Bytes) : Prop :=
  ∀ i x, relays[i]? = some x →
    (x.down, frames (i + 1)) ∈ (x.receive c x.up (frames i)).1.outbound

/-- A request for the link. -/
structure IsRequest (c : Crypto) (linkId destinationHash : Bytes) (p : Wire.Packet) : Prop where
  packetType : p.packetType = Wire.linkRequest
  destination : p.destinationHash = some destinationHash
  linkId : (Link.linkIdFromLrPacket c (linkPacket p)).1 = linkId

section Request

variable {c : Crypto} {linkId destinationHash : Bytes} {p q : Wire.Packet} {x : Relay}
  {e : PathEntry} {f : Frame}

theorem IsRequest.of_same (h : IsRequest c linkId destinationHash p) (hsame : SamePacket c p q) :
    IsRequest c linkId destinationHash q where
  packetType := hsame.packetType.trans h.packetType
  destination := hsame.destinationHash.trans h.destination
  linkId := by
    rw [hsame.linkId h.packetType]
    exact h.linkId

/-- What the node after a relay reads of a request. A frame whose hops are at the limit is not
read after a hop that is counted. -/
theorem request_sent
    (hf : IsRequest c linkId destinationHash (f.fill c (.holding f.encode (some x.up))))
    (hroute : selectPathExcluding x.state.pathTable x.state.interfaces destinationHash
      x.reading.now (some x.up) = some e)
    (hnext : 1 < e.hops → e.nextHop.length = Wire.dstLen)
    (hcounted : f.hops < 127 ∨ e.hops ≠ 1 ∨ Wire.headerTypeOf f.flags = Wire.header2)
    {raw : Bytes} (hmem : (x.down, raw) ∈ (x.receive c x.up f.encode).1.outbound)
    {receivingInterface : Option String}
    (hread : (Wire.Packet.holding raw receivingInterface).unpack c = some q) :
    IsRequest c linkId destinationHash q ∧
      (1 < e.hops → q.transportId = some e.nextHop ∧ q.hops = f.hops + 1) := by
  let p := f.fill c (.holding f.encode (some x.up))
  have htype : p.packetType ≠ Wire.announce := by
    rw [hf.packetType]
    decide
  have hunpack : (Wire.Packet.holding f.encode (some x.up)).unpack c = some p :=
    Frame.unpack_encode rfl
  have hqueued := (passed_of_outbound hunpack hf.destination htype
    (List.ne_nil_of_mem hmem)).2.2.2.2
  change (x.down, raw) ∈ (inbound c x.state x.reading f.encode (some x.up)).1.outbound at hmem
  rw [hqueued, queued_linkRequest (p := hopped p) hf.packetType] at hmem
  obtain ⟨e', hselect, -, hframe⟩ := exists_route_of_mem_transitFrames hmem
  obtain rfl : e = e' := Option.some.inj (hroute.symm.trans hselect)
  have hhops : f.hops < 127 := by
    obtain hlt | hcounted := hcounted
    · exact hlt
    · exact Relay.hops_lt_of_counted (Frames.hops_lt_of_unpack
        (reads_hopped (reads_fill (c := c) (p := .holding f.encode (some x.up)) rfl)) hnext
        hcounted hframe hread)
  obtain ⟨q', hq', hsame, hid, hcount⟩ :=
    transitArrives (c := c) (s := x.state) (p := .holding f.encode (some x.up)) rfl hhops hnext
      receivingInterface
  change raw = _ at hframe
  rw [hframe] at hread
  obtain rfl : q' = q := Option.some.inj (hq'.symm.trans hread)
  refine ⟨hf.of_same hsame, fun hmany => ⟨hid hmany, hcount (.inl ?_)⟩⟩
  intro hone
  rw [hone] at hmany
  exact absurd hmany (by decide)

/-- A relay that sends something has read the frame. -/
theorem exists_unpack_of_outbound {raw : Bytes} {name : String}
    (hsent : (x.receive c name raw).1.outbound ≠ []) :
    ∃ q, (Wire.Packet.holding raw (some name)).unpack c = some q := by
  cases hread : readFrame c raw (some name) with
  | none =>
      refine absurd ?_ hsent
      unfold Relay.receive inbound
      rw [hread]
      rfl
  | some q =>
      unfold readFrame at hread
      split at hread
      · cases hread
      · exact ⟨q, hread⟩

end Request

section Chain

variable {c : Crypto} {linkId destinationHash : Bytes} {relays : List Relay}
  {frames : Nat → Bytes}

/-- The frame of a request that has passed so many relays. -/
def RequestAt (c : Crypto) (linkId destinationHash : Bytes) (i : Nat) (raw : Bytes) : Prop :=
  ∃ f : Frame, raw = f.encode ∧ f.hops.toNat = i ∧
    (0 < i → Wire.headerTypeOf f.flags = Wire.header2) ∧
    IsRequest c linkId destinationHash (f.fill c (.holding f.encode none))

/-- A relay that is not the last has a route of more than one hop, to an address. -/
theorem route_of_agree {i : Nat} {e : PathEntry}
    (hlast : i + 1 < relays.length) (hhops : e.hops.toNat + i = relays.length)
    (hpoints : ∀ y, relays[i + 1]? = some y →
      y.state.identityHash = some e.nextHop ∧ e.nextHop.length = Wire.dstLen) :
    1 < e.hops ∧ e.nextHop.length = Wire.dstLen := by
  refine ⟨?_, (hpoints _ (List.getElem?_eq_getElem hlast)).2⟩
  rw [UInt8.lt_iff_toNat_lt]
  change 1 < e.hops.toNat
  omega

section

variable (hagree : Agree destinationHash relays)

include hagree

/-- The request arrives at every relay, with the hops of its place in the chain. -/
theorem requestAt (htravels : Travels c relays frames)
    (hstart : RequestAt c linkId destinationHash 0 (frames 0)) {i : Nat}
    (hi : i < relays.length) : RequestAt c linkId destinationHash i (frames i) := by
  induction i with
  | zero => exact hstart
  | succ i ih =>
      obtain ⟨f, hraw, hhops, -, hf⟩ := ih (by omega)
      have hx : relays[i]? = some relays[i] := List.getElem?_eq_getElem (by omega)
      have hy : relays[i + 1]? = some relays[i + 1] := List.getElem?_eq_getElem hi
      obtain ⟨-, e, hroute, -, hremaining, hpoints⟩ := hagree i _ hx
      obtain ⟨hmany, hnext⟩ := route_of_agree hi hremaining hpoints
      have hone : e.hops ≠ 1 := fun h => absurd hmany (by rw [h]; decide)
      have hmem := htravels i _ hx
      rw [hraw] at hmem
      obtain ⟨q, hread⟩ := exists_unpack_of_outbound (List.ne_nil_of_mem (htravels (i + 1) _ hy))
      obtain ⟨hq, hfields⟩ := request_sent (f := f) ⟨hf.packetType, hf.destination, hf.linkId⟩
        hroute (fun _ => hnext) (.inr (.inl hone)) hmem hread
      obtain ⟨hid, hcount⟩ := hfields hmany
      obtain ⟨g, hraw', rfl⟩ := Frame.unpack_eq_some_iff.mp hread
      refine ⟨g, hraw', ?_, fun _ => ?_, ⟨hq.packetType, hq.destination, ?_⟩⟩
      · change g.hops = f.hops + 1 at hcount
        rw [hcount, (Relay.saturatingSucc_hops f).2, hhops]
      · apply g.headerType.mpr
        change g.transportId.map Subtype.val = _ at hid
        obtain ⟨id, hsome, -⟩ := Option.map_eq_some_iff.mp hid
        rw [hsome]
        rfl
      · change frames (i + 1) = g.encode at hraw'
        rw [← hraw']
        exact hq.linkId

/-- Every relay has the entry after the request. -/
theorem carries_of_travels
    (htravels : Travels c relays frames) (hstart : RequestAt c linkId destinationHash 0 (frames 0))
    (hunclaimed : ∀ x ∈ relays, x.Unclaimed linkId) {i : Nat} {x : Relay} (hx : relays[i]? = some x)
    (next : Reading) :
    (x.after c ⟨x.up, frames i, next⟩).Carries linkId destinationHash (relays.length - i) (i + 1) ∧
      i < 128 := by
  have hi : i < relays.length := (List.getElem?_eq_some_iff.mp hx).1
  obtain ⟨f, hraw, hhops, -, hf⟩ := requestAt hagree htravels hstart hi
  obtain ⟨-, e, hroute, hvia, hremaining, -⟩ := hagree i x hx
  have hclear := hunclaimed x (List.mem_of_getElem? hx)
  have hunpack : (Wire.Packet.holding (frames i) (some x.up)).unpack c =
      some (f.fill c (.holding (frames i) (some x.up))) := Frame.unpack_encode hraw
  have hlinkId : (Link.linkIdFromLrPacket c
      (linkPacket (f.fill c (.holding (frames i) (some x.up))))).1 = linkId := by
    rw [hraw]
    exact hf.linkId
  obtain ⟨⟨entry, hlookup, hnextHop, hreceived, hleft, htaken, hdest⟩, hsame, hreverse⟩ :=
    entry_of_linkRequest hunpack hf.packetType hf.destination hroute
      (List.ne_nil_of_mem (htravels i x hx))
  rw [hlinkId] at hlookup
  refine ⟨⟨⟨entry, hlookup, hnextHop.trans hvia, hreceived, ?_, ?_, hdest⟩, ?_⟩, ?_⟩
  · rw [hleft]
    omega
  · change entry.takenHops = saturatingSucc f.hops at htaken
    rw [htaken, (Relay.saturatingSucc_hops f).1, (Relay.saturatingSucc_hops f).2, hhops]
  · refine hclear.of_state ?_ ?_ hsame.controlHashes hsame.interfaces
    · change (inbound c x.state x.reading (frames i) (some x.up)).2.pathTable linkId = none
      have hcontains := hsame.contains linkId
      simpa [Table.contains, hclear.path] using hcontains
    · change (inbound c x.state x.reading (frames i) (some x.up)).2.reverseTable linkId = none
      rw [hreverse]
      exact hclear.reverse
  · have hlt := UInt8.lt_iff_toNat_lt.mp f.hops_lt
    rw [hhops] at hlt
    exact hlt

/-- What arrives behind the last relay is a request for the same link. -/
theorem request_delivered
    (htravels : Travels c relays frames) (hstart : RequestAt c linkId destinationHash 0 (frames 0))
    {q : Wire.Packet} {receivingInterface : Option String}
    (hread : (Wire.Packet.holding (frames relays.length) receivingInterface).unpack c = some q) :
    IsRequest c linkId destinationHash q := by
  cases hlength : relays.length with
  | zero =>
      rw [hlength] at hread
      obtain ⟨f, hraw, -, -, hf⟩ := hstart
      have hread' := Frame.unpack_encode (c := c)
        (p := .holding (frames 0) receivingInterface) (f := f) hraw
      obtain rfl := Option.some.inj (hread'.symm.trans hread)
      refine ⟨hf.packetType, hf.destination, ?_⟩
      rw [hraw]
      exact hf.linkId
  | succ i =>
      have hi : i < relays.length := by omega
      have hx : relays[i]? = some relays[i] := List.getElem?_eq_getElem hi
      obtain ⟨f, hraw, hhops, hheader, hf⟩ := requestAt hagree htravels hstart hi
      obtain ⟨-, e, hroute, -, hremaining, -⟩ := hagree i _ hx
      have hmem := htravels i _ hx
      rw [hlength] at hread
      rw [hraw] at hmem
      have hone : ¬ 1 < e.hops := by
        rw [UInt8.lt_iff_toNat_lt]
        change ¬ 1 < e.hops.toNat
        omega
      refine (request_sent (f := f) ⟨hf.packetType, hf.destination, hf.linkId⟩ hroute
        (fun h => absurd h hone) ?_ hmem hread).1
      -- the first relay gets the request with no hops, any other with a transport id
      cases i with
      | zero =>
          left
          rw [UInt8.lt_iff_toNat_lt, hhops]
          decide
      | succ i => exact .inr (.inr (hheader (by omega)))

end

end Chain

section Initiator

variable {c : Crypto} {l l' : Link} {prv sigPub : Bytes.Block 32}
  {destType : Wire.DestinationType} {destHash : Bytes.Block 16} {packet : Reticulum.Packet}
  {p : Wire.Packet} {s : TransportState} {r : Reading}

/-- The request of the initiator as a frame of one address. -/
theorem exists_frame_of_initiatePrepare
    (hprepare : Link.initiatePrepare c l prv sigPub destType.toUInt8 destHash = (.ok packet, l'))
    (hpacket : (Wire.Packet.holding packet.raw none).unpack c = some p) :
    ∃ f : Frame, packet.raw = f.encode ∧ p = f.fill c (.holding f.encode none) ∧ f.hops = 0 ∧
      Wire.headerTypeOf f.flags = Wire.header1 ∧ IsRequest c l'.linkId destHash.1 p := by
  unfold Link.initiatePrepare at hprepare
  split at hprepare
  · cases hprepare
  dsimp only at hprepare
  split at hprepare
  · cases hprepare
  rename_i bytes _
  obtain ⟨hok, rfl⟩ := Prod.mk.inj hprepare
  obtain rfl := Except.ok.inj hok
  have htype : Wire.headerTypeOf ((destType.toUInt8 <<< 2) ||| 2) = Wire.header1 := by
    cases destType <;> decide
  have hkeys : (c.publicKey prv.1).1 ++ sigPub.1 ++ bytes ≠ [] := by
    intro hnil
    have hlength := congrArg List.length hnil
    simp [(c.publicKey prv.1).2, sigPub.2] at hlength
  let f : Frame :=
    { flags := (destType.toUInt8 <<< 2) ||| 2, hops := 0, transportId := none
      destinationHash := destHash, context := 0
      data := (c.publicKey prv.1).1 ++ sigPub.1 ++ bytes
      headerType := by
        rw [htype]
        simp [Wire.header1, Wire.header2]
      hops_lt := by decide
      data_ne := hkeys }
  have hraw : [(destType.toUInt8 <<< 2) ||| 2, 0] ++ destHash.1 ++ [0] ++
      ((c.publicKey prv.1).1 ++ sigPub.1 ++ bytes) = f.encode := by
    simp [f, Frame.encode, Frame.transportBytes]
  have hpacket' : p = f.fill c (.holding f.encode none) := by
    rw [hraw, Frame.unpack_encode rfl] at hpacket
    exact (Option.some.inj hpacket).symm
  refine ⟨f, hraw, hpacket', rfl, htype, ?_⟩
  rw [hpacket']
  refine ⟨?_, rfl, ?_⟩
  · change ((destType.toUInt8 <<< 2) ||| 2) &&& 0x03 = Wire.linkRequest
    cases destType <;> decide
  · dsimp only
    congr 2
    unfold linkPacket
    congr 1
    · exact hraw.symm
    · change decide (Wire.headerTypeOf ((destType.toUInt8 <<< 2) ||| 2) = Wire.header2) = false
      rw [htype]
      decide
    · change PacketType.ofFlags ((destType.toUInt8 <<< 2) ||| 2) = .linkRequest
      cases destType <;> decide

/-- What the initiator sends along a route is the request, with no hops. -/
theorem requestAt_of_initiator
    (hprepare : Link.initiatePrepare c l prv sigPub destType.toUInt8 destHash =
      (.ok packet, l'))
    (hpacket : (Wire.Packet.holding packet.raw none).unpack c = some p)
    (hroutes : ∀ e ∈ selectAllPaths s.pathTable s.interfaces destHash.1 r.now,
      e.nextHop.length = Wire.dstLen)
    {name : String} {raw : Bytes} (hsent : (name, raw) ∈ (outbound s r p destHash.1).2.1) :
    RequestAt c l'.linkId destHash.1 0 raw := by
  obtain ⟨f, hraw, hp, hhops, hheader, hrequest⟩ :=
    exists_frame_of_initiatePrepare hprepare hpacket
  obtain ⟨e, hmem, -, hframe⟩ := exists_route_of_mem_sendAlong hsent
  change raw = outboundRaw s p destHash.1 e at hframe
  unfold outboundRaw at hframe
  split at hframe
  · have hheld : (Wire.Packet.holding f.encode none).raw = f.encode := rfl
    obtain ⟨q, hread, hsame, hcount, -⟩ := convertArrives (c := c) (p := p) (f := f)
      (by rw [hp]; rfl) hheld (by rw [hp]; rfl) (by rw [hp]; rfl) hheader (hroutes e hmem) none
    rw [← hframe] at hread
    rw [← hp] at hsame
    have hq := hrequest.of_same hsame
    obtain ⟨g, hraw', rfl⟩ := Frame.unpack_eq_some_iff.mp hread
    change raw = g.encode at hraw'
    refine ⟨g, hraw', ?_, fun h => absurd h (Nat.lt_irrefl 0), ?_⟩
    · change g.hops = f.hops at hcount
      rw [hcount, hhops]
      rfl
    · rw [hraw'] at hq
      exact hq
  · refine ⟨f, ?_, ?_, fun h => absurd h (Nat.lt_irrefl 0), ?_⟩
    · rw [hframe, hp]
      rfl
    · rw [hhops]
      rfl
    · rw [← hp]
      exact hrequest

end Initiator

end Reticulum.Transport
