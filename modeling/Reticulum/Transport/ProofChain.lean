import Reticulum.Transport.ProofReturn

/-!
# A proof along a chain of relays

A data packet passes a chain of relays whose routes lead from one to the next. Every
relay notes it under the same truncated hash, between the same two interfaces. A proof
that enters the chain at the destination while the relays have these entries goes back
through all of them, once at each, and concludes the receipt of the sender.

## Implementation notes

The relays are listed from the sender to the destination, as for a link request, and
relay `i` receives frame `i` of the packet. A chain has fewer relays than a frame has
hops.
-/

namespace Reticulum.Transport

open Runs Receipt.Tracking
open Wire (Frame)

/-- Every relay has an identity, and its route to the destination leads to the relay after it, on
another interface than the one it hears the relay before on. -/
def Leads (destinationHash : Bytes) (relays : List Relay) : Prop :=
  ∀ i x, relays[i]? = some x → x.state.identityHash.isSome = true ∧ x.up ≠ x.down ∧
    ∃ e, selectPathExcluding x.state.pathTable x.state.interfaces destinationHash x.reading.now
        (some x.up) = some e ∧
      e.receivingInterface = some x.down ∧
      ∀ y, relays[i + 1]? = some y →
        y.state.identityHash = some e.nextHop ∧ e.nextHop.length = Wire.dstLen

/-- The relays some time after the packet has passed them: whatever has happened there since,
it has left the entry of the packet alone. -/
def AfterPassage (c : Crypto) (address : Bytes) (relays : List Relay) (frames : Nat → Bytes)
    (later : List Relay) : Prop :=
  later.length = relays.length ∧
    ∀ i (x y : Relay), relays[i]? = some x → later[i]? = some y →
      y.up = x.up ∧ y.down = x.down ∧ ∃ n events s,
        n.toTransportState = (x.receive c x.up (frames i)).2 ∧
        Meets (Station.step c) (SparesEntry c address x.passage) (.start n) events ∧
        exec (Station.step c) (.start n) events = some s ∧ y.state = s.state.toTransportState

/-! ## The packet -/

section Data

variable {c : Crypto} {hash destinationHash : Bytes} {x : Relay} {e : PathEntry} {f : Frame}
  {q : Wire.Packet}

theorem IsData.of_same {p : Wire.Packet} (h : IsData hash destinationHash p)
    (hsame : SamePacket c p q) : IsData hash destinationHash q where
  packetType := hsame.packetType.trans h.packetType
  destination := hsame.destinationHash.trans h.destination
  packetHash := by
    have hrequest : p.packetType ≠ Wire.linkRequest := by
      rw [h.packetType]
      decide
    exact (hsame.data hrequest).2.trans h.packetHash

/-- The interface that a frame is read on does not matter to what is sent with it. -/
theorem IsData.of_frame {receivingInterface receivingInterface' : Option String} {raw : Bytes}
    {p : Wire.Packet} (h : IsData hash destinationHash p)
    (hread : (Wire.Packet.holding raw receivingInterface).unpack c = some p)
    (hread' : (Wire.Packet.holding raw receivingInterface').unpack c = some q) :
    IsData hash destinationHash q := by
  obtain ⟨f, hraw, rfl⟩ := Frame.unpack_eq_some_iff.mp hread
  obtain rfl := Option.some.inj (hread'.symm.trans (Frame.unpack_encode hraw))
  exact ⟨h.packetType, h.destination, h.packetHash⟩

/-- A frame that was sent on with its hops set has hops below the limit, when it is read. -/
theorem hops_lt_of_setHops {hops : UInt8} {receivingInterface : Option String}
    (hread : (Wire.Packet.holding (setHops f.encode hops) receivingInterface).unpack c = some q) :
    hops < Wire.pathfinderM := by
  obtain ⟨g, hraw, -⟩ := Frame.unpack_eq_some_iff.mp hread
  have hsecond := (List.cons.inj (List.cons.inj hraw).2).1
  exact hsecond ▸ g.hops_lt

/-- The last hop of a frame with one address leaves it as it is. -/
theorem transitFrame_of_uncounted {s : TransportState} {p : Wire.Packet} {nextHop : Bytes}
    {remainingHops : UInt8} {outbound : Option String} (hrequest : p.packetType ≠ Wire.linkRequest)
    (hone : remainingHops = 1) (hheader : p.headerType ≠ Wire.header2) :
    transitFrame s p nextHop remainingHops outbound = p.raw := by
  unfold transitFrame transitRaw
  rw [if_neg hrequest, hone, if_neg (by decide), if_neg fun h => hheader h.2, if_neg (by decide)]

/-- What the node after a relay reads of a data packet. -/
theorem data_sent (hf : IsData hash destinationHash (f.fill c (.holding f.encode (some x.up))))
    (hroute : selectPathExcluding x.state.pathTable x.state.interfaces destinationHash
      x.reading.now (some x.up) = some e)
    (hnext : e.nextHop.length = Wire.dstLen) {raw : Bytes}
    (hmem : (x.down, raw) ∈ (x.receive c x.up f.encode).1.outbound)
    {receivingInterface : Option String}
    (hread : (Wire.Packet.holding raw receivingInterface).unpack c = some q) :
    IsData hash destinationHash q := by
  let p := f.fill c (.holding f.encode (some x.up))
  have htype : p.packetType ≠ Wire.announce := by
    rw [hf.packetType]
    decide
  have hunpack : (Wire.Packet.holding f.encode (some x.up)).unpack c = some p :=
    Frame.unpack_encode rfl
  have hqueued := (passed_of_outbound hunpack hf.destination htype
    (List.ne_nil_of_mem hmem)).2.2.2.2
  have hhopped : ∀ via, (x.down, raw) ∈ hoppedFrames (hopped p) via →
      IsData hash destinationHash q := by
    intro via hvia
    obtain ⟨name, -, heq⟩ := List.mem_map.mp hvia
    obtain rfl : setHops f.encode (saturatingSucc f.hops) = raw := congrArg Prod.snd heq
    have hhops : f.hops < 127 := Relay.hops_lt_of_counted (hops_lt_of_setHops hread)
    obtain ⟨q', hq', hsame, -⟩ := relayArrives_setHops (c := c)
      (p := .holding f.encode (some x.up)) rfl hhops receivingInterface
    obtain rfl : q' = q := Option.some.inj (hq'.symm.trans hread)
    exact hf.of_same hsame
  change (x.down, raw) ∈ (inbound c x.state x.reading f.encode (some x.up)).1.outbound at hmem
  rw [hqueued] at hmem
  unfold queued at hmem
  simp only [List.mem_append] at hmem
  obtain ((htransit | hvia) | hvia) | hvia := hmem
  · obtain ⟨e', hselect, -, hframe⟩ := exists_route_of_mem_transitFrames htransit
    obtain rfl : e = e' := Option.some.inj (hroute.symm.trans hselect)
    change raw = _ at hframe
    by_cases hcounted : e.hops ≠ 1 ∨ Wire.headerTypeOf f.flags = Wire.header2
    · have hhops : f.hops < 127 := Relay.hops_lt_of_counted (Frames.hops_lt_of_unpack
        (reads_hopped (reads_fill (c := c) (p := .holding f.encode (some x.up)) rfl))
        (fun _ => hnext) hcounted hframe hread)
      obtain ⟨q', hq', hsame, -⟩ := transitArrives (c := c) (s := x.state)
        (p := .holding f.encode (some x.up)) rfl hhops (fun _ => hnext) receivingInterface
      rw [hframe] at hread
      obtain rfl : q' = q := Option.some.inj (hq'.symm.trans hread)
      exact hf.of_same hsame
    · obtain ⟨hone, hheader⟩ := not_or.mp hcounted
      have hrequest : p.packetType ≠ Wire.linkRequest := by
        rw [hf.packetType]
        decide
      have hsame : raw = f.encode :=
        hframe.trans (transitFrame_of_uncounted (p := hopped p) hrequest (not_not.mp hone) hheader)
      rw [hsame] at hread
      exact hf.of_frame hunpack hread
  · exact hhopped _ hvia
  · exact hhopped _ hvia
  · exact hhopped _ hvia

end Data

section Chain

variable {c : Crypto} {hash destinationHash : Bytes} {relays later : List Relay}
  {frames : Nat → Bytes} {p : Wire.Packet} {x y : Relay} {i : Nat}

section

variable (hleads : Leads destinationHash relays)

include hleads

/-- What every relay of a chain reads of a data packet. -/
theorem data_at (htravels : Travels c relays frames)
    (hread : (Wire.Packet.holding (frames 0) none).unpack c = some p)
    (hdata : IsData hash destinationHash p) (hx : relays[i]? = some x) :
    ∃ q, (Wire.Packet.holding (frames i) (some x.up)).unpack c = some q ∧
      IsData hash destinationHash q := by
  obtain ⟨q, hq⟩ := exists_unpack_of_outbound (List.ne_nil_of_mem (htravels i x hx))
  refine ⟨q, hq, ?_⟩
  induction i generalizing x q with
  | zero => exact hdata.of_frame hread hq
  | succ i ih =>
      have hi : i < relays.length := by
        have hlt := (List.getElem?_eq_some_iff.mp hx).1
        omega
      have hprev : relays[i]? = some relays[i] := List.getElem?_eq_getElem hi
      obtain ⟨-, -, e, hroute, -, hnext⟩ := hleads i _ hprev
      have hmem := htravels i _ hprev
      obtain ⟨q', hq'⟩ := exists_unpack_of_outbound (List.ne_nil_of_mem hmem)
      have hdata' := ih hprev q' hq'
      obtain ⟨f, hraw, rfl⟩ := Frame.unpack_eq_some_iff.mp hq'
      change frames i = f.encode at hraw
      rw [hraw] at hmem hdata'
      exact data_sent hdata' hroute (hnext x hx).2 hmem hq

/-- Every relay of a chain notes the packet. -/
theorem passage_at (htravels : Travels c relays frames)
    (hread : (Wire.Packet.holding (frames 0) none).unpack c = some p)
    (hdata : IsData hash destinationHash p) (hx : relays[i]? = some x) :
    (x.receive c x.up (frames i)).2.reverseTable (hash.take 16) = some x.passage := by
  obtain ⟨q, hq, hqdata⟩ := data_at hleads htravels hread hdata hx
  obtain ⟨hidentity, -, e, hroute, hvia, -⟩ := hleads i x hx
  exact reverseTable_of_data hq hqdata hidentity hroute hvia
    (List.ne_nil_of_mem (htravels i x hx))

/-- It still has the entry when the proof comes. -/
theorem hasPassage_of_later
    (htravels : Travels c relays frames)
    (hread : (Wire.Packet.holding (frames 0) none).unpack c = some p)
    (hdata : IsData hash destinationHash p)
    (hlater : AfterPassage c (hash.take 16) relays frames later) (hy : later[i]? = some y) :
    y.HasPassage (hash.take 16) := by
  have hi : i < relays.length := by
    rw [← hlater.1]
    exact (List.getElem?_eq_some_iff.mp hy).1
  have hx : relays[i]? = some relays[i] := List.getElem?_eq_getElem hi
  obtain ⟨hup, hdown, n, events, s, hstart, hspares, hrun, hstate⟩ := hlater.2 i _ y hx hy
  have hentry : (Station.start n).state.reverseTable (hash.take 16) = some relays[i].passage := by
    change n.reverseTable _ = _
    rw [hstart]
    exact passage_at hleads htravels hread hdata hx
  refine ⟨relays[i].reading.now, ?_⟩
  rw [hstate]
  have hkept : s.state.reverseTable (hash.take 16) = some relays[i].passage :=
    reverseTable_run hentry rfl hspares hrun
  unfold Relay.passage at hkept ⊢
  rw [hup, hdown]
  exact hkept

end

end Chain

/-! ## The proof -/

section Proof

variable {c : Crypto} {s : TransportState} {address : Bytes} {f : Frame} {later : List Relay}

/-- The hops of a proof do not matter to the filter. -/
theorem packetFilter_of_returnFrame (hf : ReturnFrame f address)
    (hfilter : packetFilter s (f.fill c (.holding [] none)) = true) {hops : UInt8}
    (h : hops < Wire.pathfinderM) (q : Wire.Packet) :
    packetFilter s ((Frames.withHops f hops h).fill c q) = true := by
  have hfields : ∀ p : Wire.Packet, p.destinationType = some .single → p.context = f.context →
      p.packetType = f.flags &&& 0x03 → p.packetHash = some (c.fullHash f.hashable).1 →
      packetFilter s p = packetFilter s (f.fill c (.holding [] none)) := by
    intro p hsingle hcontext htype hhash
    have hsame : (f.fill c (.holding [] none)).destinationType = some .single := hf.single
    unfold packetFilter
    rw [hsingle, hsame, hcontext, htype, hhash]
    rfl
  rw [← hfilter]
  exact hfields _ hf.single rfl rfl rfl

theorem ReturnFrame.withHops (hf : ReturnFrame f address) {hops : UInt8}
    (h : hops < Wire.pathfinderM) : ReturnFrame (Frames.withHops f hops h) address :=
  ⟨hf.destination, hf.single, hf.packetType, hf.context, hf.access⟩

/-- The proof goes back through every relay that has the entry, and takes it. -/
theorem proof_back (hlength : later.length < 128) (hf : ReturnFrame f address)
    (hnoted : ∀ (i : Nat) (y : Relay), later[i]? = some y → y.HasPassage address)
    (hpasses : ∀ y ∈ later, y.Unshared address ∧
      packetFilter y.state (f.fill c (.holding [] none)) = true) :
    CarriedUp c later (fun i => atHops f (later.length - i)) ∧
    ∀ (i : Nat) (y : Relay), later[i]? = some y → (y.receive c y.down
      (atHops f (later.length - (i + 1)))).2.reverseTable address = none := by
  have hrelay : ∀ (i : Nat) (y : Relay), later[i]? = some y →
      (y.receive c y.down (atHops f (later.length - (i + 1)))).1.outbound =
        [(y.up, atHops f (later.length - i))] ∧
      (y.receive c y.down (atHops f (later.length - (i + 1)))).2.reverseTable address = none := by
    intro i y hy
    have hi := (List.getElem?_eq_some_iff.mp hy).1
    obtain ⟨hunshared, hfilter⟩ := hpasses y (List.mem_of_getElem? hy)
    obtain ⟨hlt, hraw, -, hnext⟩ := exists_withHops f
      (show later.length - (i + 1) < 128 by omega)
    have hplace : later.length - i = later.length - (i + 1) + 1 := by omega
    rw [hplace, ← hnext, hraw]
    exact Relay.receive_back hunshared (hnoted i y hy) (hf.withHops hlt)
      (packetFilter_of_returnFrame hf hfilter hlt _)
  exact ⟨fun i y hy => (hrelay i y hy).1, fun i y hy => (hrelay i y hy).2⟩

/-- `deferred_proof_receipts`: the proof that the receipts are checked against, and where it is
addressed. -/
def checkedProof (c : Crypto) (s : TransportState) (r : Reading) (raw : Bytes)
    (receivingInterface : Option String) : Option (Bytes × Option Bytes) :=
  match readFrame c raw receivingInterface, (inbound c s r raw receivingInterface).1 with
  | some p, .processed _ =>
      if p.packetType = Wire.proof ∧ ¬ (p.context = Wire.lrproof ∨ p.destinationType = some .link)
      then some (p.data, p.destinationHash)
      else none
  | _, _ => none

/-- A proof that a node does not take for a repetition is checked against its receipts. -/
theorem checkedProof_of_returnFrame (hf : ReturnFrame f address)
    (hcontrol : s.controlHashes.contains address = false)
    (hfilter : packetFilter s (f.fill c (.holding [] none)) = true) (r : Reading) {n : Nat}
    (hn : n < 128) (receivingInterface : Option String) :
    checkedProof c s r (atHops f n) receivingInterface = some (f.data, some address) := by
  obtain ⟨hlt, hraw, -, -⟩ := exists_withHops f hn
  have hg := hf.withHops hlt
  have hread := Relay.read_of_returnFrame (c := c) hg receivingInterface
  have hproof := Relay.isPacketProof_of_returnFrame (c := c) hg
    (.holding (Frames.withHops f (UInt8.ofNat n) hlt).encode receivingInterface)
  obtain ⟨hnone, hcached⟩ := Relay.passes_of_returnFrame (c := c) hg hcontrol
    (.holding (Frames.withHops f (UInt8.ofNat n) hlt).encode receivingInterface)
  have hannounce : (Frames.withHops f (UInt8.ofNat n) hlt).flags &&& 0x03 ≠ Wire.announce := by
    rw [hg.packetType]
    decide
  have hstate := inbound_of_passed (s := s) (r := r) hread hannounce hnone
    (packetFilter_of_returnFrame hf hfilter hlt _) hcached
  unfold checkedProof
  rw [hraw, hread, hstate]
  dsimp only
  rw [if_pos ⟨hproof.1, not_or.mpr hproof.2⟩]
  exact congrArg (fun hash => some (f.data, some hash)) hf.destination

end Proof

/-- Every relay of a chain that a data packet has travelled notes it, from the interface it came in
on to the one it went out on. Whatever leaves these entries alone has happened since: a proof of
the packet that no relay takes for a repetition, and whose address names nothing else there, goes
back through the chain, once at each relay, which then has the entry no more; it concludes the
receipt of the sender; and a proof from any other interface goes nowhere and leaves the entry. -/
theorem proof_returns {F K : Type*} {c : Crypto} {hash destinationHash : Bytes}
    {relays later : List Relay} {frames : Nat → Bytes} {p : Wire.Packet}
    (hleads : Leads destinationHash relays) (htravels : Travels c relays frames)
    (hread : (Wire.Packet.holding (frames 0) none).unpack c = some p)
    (hdata : IsData hash destinationHash p)
    (hlater : AfterPassage c (hash.take 16) relays frames later)
    (hlength : later.length < 128) :
    (∀ (i : Nat) (x : Relay), relays[i]? = some x →
      (x.receive c x.up (frames i)).2.reverseTable (hash.take 16) = some x.passage) ∧
    (∀ f, ReturnFrame f (hash.take 16) →
      (∀ y ∈ later, y.Unshared (hash.take 16) ∧
        packetFilter y.state (f.fill c (.holding [] none)) = true) →
      CarriedUp c later (fun i => atHops f (later.length - i)) ∧
      ∀ (i : Nat) (y : Relay), later[i]? = some y → (y.receive c y.down
        (atHops f (later.length - (i + 1)))).2.reverseTable (hash.take 16) = none) ∧
    (∀ (f : Frame) (s : TransportState) (r : Reading) (receivingInterface : Option String)
        (core : Receipt.Tracking.Core F K) (receipt : Receipt.Tracking.Tracked) (now : F),
      ReturnFrame f (hash.take 16) → s.controlHashes.contains (hash.take 16) = false →
      packetFilter s (f.fill c (.holding [] none)) = true →
      receipt ∈ core.receipts → receipt.receipt.hash = hash →
      provable (core.cells receipt.cell) = true →
      provesHash c .plain receipt.receipt.identity hash f.data = true →
      ∃ proof addressed,
        checkedProof c s r (atHops f later.length) receivingInterface = some (proof, addressed) ∧
        let core' := concludeProvedReceipts c .plain proof now core
          (proofCandidates core proof addressed)
        (core'.cells receipt.cell).status = .delivered ∧ receipt ∉ core'.receipts) ∧
    (∀ y ∈ later, y.state.pathTable (hash.take 16) = none →
      y.state.linkTable (hash.take 16) = none →
      ∀ name raw q, (Wire.Packet.holding raw (some name)).unpack c = some q → IsPacketProof q →
        q.destinationHash = some (hash.take 16) → name ≠ y.down →
        (y.receive c name raw).1.outbound = [] ∧
          (y.receive c name raw).2.reverseTable (hash.take 16) =
            y.state.reverseTable (hash.take 16)) := by
  have hnoted : ∀ (i : Nat) (y : Relay), later[i]? = some y →
      y.HasPassage (hash.take 16) := fun i y hy =>
    hasPassage_of_later hleads htravels hread hdata hlater hy
  refine ⟨fun i x hx => passage_at hleads htravels hread hdata hx, ?_, ?_, ?_⟩
  · intro f hf hpasses
    exact proof_back hlength hf hnoted hpasses
  · intro f s r receivingInterface core receipt now hf hcontrol hfilter hmem hhash hprovable hproves
    refine ⟨f.data, some (hash.take 16),
      checkedProof_of_returnFrame hf hcontrol hfilter r hlength receivingInterface, ?_⟩
    have hconcluded := concludedBy_hash (c := c) hmem hprovable
    rw [hhash] at hconcluded
    exact hconcluded .plain f.data _ now hproves fun address haddress =>
      (Option.some.inj haddress).symm
  · intro y hy hpath hlink name raw q hunpack hproof hdest hname
    obtain ⟨i, hi, rfl⟩ := List.getElem_of_mem hy
    exact Relay.receive_elsewhere hpath hlink (hnoted i _ (List.getElem?_eq_getElem hi)) hunpack
      hproof hdest hname

section Samples

set_option maxRecDepth 4096

/-- The bytes of a data packet for the sample destination. -/
def returnData : Bytes := [0x00, 0x00] ++ chainHash ++ [0x00, 0x07]

/-- Its hash. -/
def returnHash : Bytes := (chainCrypto.fullHash ([0x00] ++ chainHash ++ [0x00, 0x07])).1

/-- The stand-in for the cryptographic crates, with one signature for that hash. -/
def returnCrypto : Crypto :=
  { Link.sampleCrypto [returnHash] with fullHash := chainCrypto.fullHash }

theorem headerTypeOf_sampleReturn : Wire.headerTypeOf 0x03 ≠ Wire.header2 := by decide

theorem returnSignature_ne (byte : UInt8) : List.replicate 64 byte ≠ [] :=
  List.ne_nil_of_length_pos (by rw [List.length_replicate]; decide)

/-- An implicit proof of the packet, with a signature that repeats this byte. -/
def sampleReturn (byte : UInt8) : Frame :=
  { chainFrame 0x03 0x00 (List.replicate 64 byte) (returnSignature_ne byte)
      headerTypeOf_sampleReturn with
    destinationHash := returnCrypto.truncatedHash ([0x00] ++ chainHash ++ [0x00, 0x07]) }

/-- A relay whose route of one hop leads to a node like it. -/
def returnState : TransportState := chainState 1 (List.replicate 16 9)

/-- The relay after the packet. -/
def returned (s : TransportState) : Relay :=
  (chainRelay s).after returnCrypto ⟨"left", returnData, .zero⟩

theorem leads_replicate {s : TransportState} (n : Nat)
    (hidentity : s.identityHash = some (List.replicate 16 9))
    (hroute : selectPathExcluding s.pathTable s.interfaces chainHash 0 (some "left") =
      some (chainRoute 1 (List.replicate 16 9))) :
    Leads chainHash (List.replicate n (chainRelay s)) := by
  intro i x hx
  obtain rfl := List.eq_of_mem_replicate (List.mem_of_getElem? hx)
  have hsides : "left" ≠ "right" := by decide
  refine ⟨by rw [chainRelay, hidentity]; rfl, hsides, _, hroute, rfl, fun y hy => ?_⟩
  obtain rfl := List.eq_of_mem_replicate (List.mem_of_getElem? hy)
  exact ⟨hidentity, List.length_replicate⟩

theorem travels_replicate {s : TransportState} (n : Nat)
    (hsent : ("right", returnData) ∈
      ((chainRelay s).receive returnCrypto "left" returnData).1.outbound) :
    Travels returnCrypto (List.replicate n (chainRelay s)) fun _ => returnData := by
  intro i x hx
  obtain rfl := List.eq_of_mem_replicate (List.mem_of_getElem? hx)
  exact hsent

/-- Nothing happens after the packet. -/
theorem afterPassage_replicate (s : TransportState) (n : Nat) :
    AfterPassage returnCrypto (returnHash.take 16) (List.replicate n (chainRelay s))
      (fun _ => returnData) (List.replicate n (returned s)) := by
  refine ⟨by rw [List.length_replicate, List.length_replicate], fun i x y hx hy => ?_⟩
  obtain rfl := List.eq_of_mem_replicate (List.mem_of_getElem? hx)
  obtain rfl := List.eq_of_mem_replicate (List.mem_of_getElem? hy)
  exact ⟨rfl, rfl, { Instance.start with toTransportState := (returned s).state }, [], _, rfl,
    True.intro, rfl, rfl⟩

/-- The receipt of the packet. -/
def returnReceipt : Receipt.Tracking.Tracked where
  cell := 0
  receipt := { hash := returnHash, identity := some [] }
  truncatedHash := returnHash.take 16
  truncated_eq := rfl

/-- The receipts of the sender. -/
def returnCore : Receipt.Tracking.Core Nat Unit where
  receipts := [returnReceipt]
  cells := fun _ => .fromParts 0 60
  next := 1

theorem returnFrame_sampleReturn (byte : UInt8) :
    ReturnFrame (sampleReturn byte) (returnHash.take 16) := by
  have htype : (0x03 : UInt8) &&& 0x03 = Wire.proof := by decide
  have haccess : (0x03 : UInt8) &&& 0x80 ≠ 0x80 := by decide
  have hsingle : Wire.DestinationType.ofUInt8 (((0x03 : UInt8) &&& 0x0C) >>> 2) =
      some .single := by decide
  exact ⟨rfl, hsingle, htype, rfl, haccess⟩

/-- The packet passes two relays: its proof comes back through both and concludes the receipt, and
from the other side it goes nowhere. -/
theorem proof_returns_twoRelays :
    CarriedUp returnCrypto (List.replicate 2 (returned returnState))
        (fun i => atHops (sampleReturn 1) (2 - i)) ∧
    (∃ proof addressed, checkedProof returnCrypto returnState .zero (atHops (sampleReturn 1) 2)
        none = some (proof, addressed) ∧
      returnReceipt ∉ (concludeProvedReceipts returnCrypto .plain proof 1 returnCore
        (proofCandidates returnCore proof addressed)).receipts) ∧
    ((returned returnState).receive returnCrypto "left" (sampleReturn 1).encode).1.outbound =
      [] := by
  have hread : (Wire.Packet.holding returnData none).unpack returnCrypto =
      some (((Wire.Packet.holding returnData none).unpack returnCrypto).getD
        (.holding [] none)) := rfl
  obtain ⟨-, hback, hreceipt, hother⟩ := proof_returns (F := Nat) (K := Unit)
    (leads_replicate 2 rfl (s := returnState) (by decide +kernel))
    (travels_replicate 2 (by decide +kernel)) hread ⟨by decide, rfl, by decide⟩
    (afterPassage_replicate returnState 2) (by decide)
  refine ⟨(hback _ (returnFrame_sampleReturn 1) fun y hy => ?_).1, ?_, ?_⟩
  · obtain rfl := List.eq_of_mem_replicate hy
    exact ⟨⟨by decide +kernel, by decide +kernel, by decide +kernel, by decide +kernel⟩,
      by decide +kernel⟩
  · obtain ⟨proof, addressed, hchecked, -, hgone⟩ := hreceipt (sampleReturn 1) returnState .zero
      none returnCore returnReceipt 1 (returnFrame_sampleReturn 1) (by decide +kernel)
      (by decide +kernel) List.mem_cons_self rfl rfl (by decide +kernel)
    exact ⟨proof, addressed, hchecked, hgone⟩
  · have hunpack := Frame.unpack_encode (c := returnCrypto) (f := sampleReturn 1)
      (p := .holding (sampleReturn 1).encode (some "left")) rfl
    exact (hother _ List.mem_cons_self (by decide +kernel) (by decide +kernel) _ _ _ hunpack
      (Relay.isPacketProof_of_returnFrame (returnFrame_sampleReturn 1) _) rfl (by decide)).1

/-- The relay with a route to the address of the proof. -/
def returnRouted : TransportState :=
  { returnState with
    pathTable := returnState.pathTable.insert (returnHash.take 16)
      [chainRoute 1 (List.replicate 16 9)] }

/-- The relay with a link of that name between its two sides. -/
def returnLinked : TransportState :=
  { returnState with
    linkTable := TransportState.start.linkTable.insert (returnHash.take 16)
      { timestamp := 0, nextHopTransport := [], nextHopInterface := some "right"
        remainingHops := 1, receivedInterface := some "left", takenHops := 1
        destinationHash := chainHash, validated := true, proofTimeout := 0 } }

/-- The relay with the address as a control destination. -/
def returnControlled : TransportState :=
  { returnState with controlHashes := [returnHash.take 16] }

/-- The relay without the interface of the sender's side. -/
def returnOneSided : TransportState :=
  { returnState with interfaces := returnState.interfaces.drop 1 }

/-- The relay that has had the proof before. -/
def returnSeen : TransportState :=
  { returnState with packetHashlist := [(returnCrypto.fullHash (sampleReturn 1).hashable).1] }

/-- Chains of relays that lead to the destination and that the packet has travelled. The proof does
not come back, or not once: when its address is also a path, a link or a control destination of
the relay, when the interface of the sender's side is gone, when the relay takes the proof for a
repetition, or has passed back another one before; and when the chain is longer than a frame has
hops. -/
theorem proof_returns_false :
    (∀ s ∈ [returnRouted, returnLinked, returnControlled, returnOneSided, returnSeen],
      Leads chainHash (List.replicate 1 (chainRelay s)) ∧
      Travels returnCrypto (List.replicate 1 (chainRelay s)) (fun _ => returnData) ∧
      AfterPassage returnCrypto (returnHash.take 16) (List.replicate 1 (chainRelay s))
        (fun _ => returnData) (List.replicate 1 (returned s)) ∧
      ¬ CarriedUp returnCrypto (List.replicate 1 (returned s))
        fun i => atHops (sampleReturn 1) (1 - i)) ∧
    ¬ CarriedUp returnCrypto
      [(returned returnState).after returnCrypto ⟨"right", (sampleReturn 2).encode, .zero⟩]
      (fun i => atHops (sampleReturn 1) (1 - i)) ∧
    Leads chainHash (List.replicate 130 (chainRelay returnState)) ∧
    Travels returnCrypto (List.replicate 130 (chainRelay returnState)) (fun _ => returnData) ∧
    AfterPassage returnCrypto (returnHash.take 16) (List.replicate 130 (chainRelay returnState))
      (fun _ => returnData) (List.replicate 130 (returned returnState)) ∧
    ¬ CarriedUp returnCrypto (List.replicate 130 (returned returnState))
      fun i => atHops (sampleReturn 1) (130 - i) := by
  refine ⟨?_, ?_, leads_replicate 130 rfl (by decide +kernel),
    travels_replicate 130 (by decide +kernel), afterPassage_replicate _ 130, ?_⟩
  · intro s hs
    simp only [List.mem_cons, List.not_mem_nil, or_false] at hs
    obtain rfl | rfl | rfl | rfl | rfl := hs <;>
      exact ⟨leads_replicate 1 rfl (by decide +kernel), travels_replicate 1 (by decide +kernel),
        afterPassage_replicate _ 1, fun h => absurd (h 0 _ rfl) (by decide +kernel)⟩
  · exact fun h => absurd (h 0 _ rfl) (by decide +kernel)
  · exact fun h => absurd (h 0 _ rfl) (by decide +kernel)

end Samples

end Reticulum.Transport
