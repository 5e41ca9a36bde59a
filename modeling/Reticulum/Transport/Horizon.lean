import Reticulum.Link.Rejection
import Reticulum.Transport.Blocks

/-!
# At most one block

Nothing in `Transport::inbound` keeps two of the blocks that forward a packet
from finding a route, and the fallbacks to the path table do not look at the
interface that the packet came from. A packet is forwarded at most once and not
back exactly when the tables before the call are clear for it.
-/

namespace Reticulum.Transport

/-- The hash is that of a relayed link with this interface on both sides. -/
def TwoSided (s : TransportState) (destinationHash : Bytes) (interface : Option String) : Prop :=
  ∃ entry, s.linkTable destinationHash = some entry ∧ entry.nextHopInterface = interface ∧
    entry.receivedInterface = interface

/-- At most one frame is queued, not for the interface that the frame came from, and none
for a destination that is registered here. -/
structure ForwardsOnce (c : Crypto) (s : TransportState) (r : Reading) (raw : Bytes)
    (receivingInterface : Option String) : Prop where
  single : (inbound c s r raw receivingInterface).1.outbound.length ≤ 1
  horizon : ∀ frame ∈ (inbound c s r raw receivingInterface).1.outbound,
    receivingInterface = some frame.1 →
      ∃ p destinationHash, (Wire.Packet.holding raw receivingInterface).unpack c = some p ∧
        p.destinationHash = some destinationHash ∧
        TwoSided s destinationHash receivingInterface
  registered : ∀ p destinationHash,
    (Wire.Packet.holding raw receivingInterface).unpack c = some p →
      p.destinationHash = some destinationHash → destinationHash ∈ s.destinations →
        (inbound c s r raw receivingInterface).1.outbound = []

/-- The frame gets as far as forwarding. -/
def ReachesForwarding (c : Crypto) (s : TransportState) (p : Wire.Packet) : Prop :=
  p.flags &&& 0x80 ≠ 0x80 ∧ packetFilter s p = true ∧ cachedPacket c s p = none

/-- The tables give a route to at most one block; the path table does not lead back where
the packet came from, nor does the way of a proof; and there is no route for a registered
destination. -/
structure Clear (c : Crypto) (s : TransportState) (r : Reading) (p : Wire.Packet)
    (destinationHash : Bytes) : Prop where
  transit : (transitVia s r p destinationHash).isSome →
    relayVia s r p destinationHash = none ∧ dataVia s r p destinationHash = none ∧
      proofVia c s r p destinationHash = none
  relay : (relayVia s r p destinationHash).isSome →
    dataVia s r p destinationHash = none ∧ proofVia c s r p destinationHash = none
  path : ∀ name, p.receivingInterface = some name →
    (linkVia s p destinationHash = none ∧ relayVia s r p destinationHash = some name) ∨
        dataVia s r p destinationHash = some name →
      TwoSided s destinationHash p.receivingInterface
  back : ∀ name, p.receivingInterface = some name →
    proofVia c s r p destinationHash = some name →
      TwoSided s destinationHash p.receivingInterface
  registered : destinationHash ∈ s.destinations →
    transitVia s r p destinationHash = none ∧ relayVia s r p destinationHash = none ∧
      proofVia c s r p destinationHash = none

section Iff

variable {c : Crypto} {s : TransportState} {r : Reading} {p : Wire.Packet}
  {destinationHash : Bytes}

/-- A link relay leads back only where the link has one interface on both sides. -/
theorem twoSided_of_linkVia {name : String} (h : linkVia s p destinationHash = some name)
    (hback : p.receivingInterface = some name) :
    TwoSided s destinationHash p.receivingInterface := by
  obtain ⟨entry, hentry, hrelay⟩ := Option.bind_eq_some_iff.mp h
  unfold relayInterface at hrelay
  rw [hback]
  split at hrelay
  · rename_i hsides
    split at hrelay
    · exact ⟨entry, hentry, hrelay, hsides ▸ hrelay⟩
    · cases hrelay
  · rename_i hsides
    split at hrelay
    · rename_i hfrom
      exact absurd (hfrom.1.symm.trans (hback.trans hrelay.symm)) hsides
    · split at hrelay
      · rename_i hfrom
        exact absurd (hrelay.trans (hback.symm.trans hfrom.1)) hsides
      · cases hrelay

theorem relayVia_of_linkVia {name name' : String} (h : linkVia s p destinationHash = some name)
    (hrelay : relayVia s r p destinationHash = some name') : name = name' := by
  unfold relayVia at hrelay
  split at hrelay
  · rw [h] at hrelay
    dsimp only at hrelay
    rw [findInterface_name] at hrelay
    obtain ⟨-, -, hname⟩ := Option.map_eq_some_iff.mp hrelay
    exact hname
  · cases hrelay

/-- Data and proofs are handled by one block each. -/
theorem dataVia_or_proofVia :
    dataVia s r p destinationHash = none ∨ proofVia c s r p destinationHash = none := by
  by_cases hproof : p.packetType = Wire.proof
  · left
    unfold dataVia
    rw [if_neg]
    rintro ⟨hdata, -⟩
    exact absurd (hproof.symm.trans hdata) (by decide)
  · right
    exact if_neg hproof

theorem dataVia_of_registered (h : destinationHash ∈ s.destinations) :
    dataVia s r p destinationHash = none := by
  unfold dataVia
  rw [if_neg]
  rintro ⟨-, -, hlocal⟩
  exact hlocal h

/-- The four blocks queue at most one frame exactly when they are exclusive. -/
theorem length_toList_le_one {α : Type*} (a b d e : Option α) (h : d = none ∨ e = none) :
    (a.toList ++ b.toList ++ d.toList ++ e.toList).length ≤ 1 ↔
      (a.isSome → b = none ∧ d = none ∧ e = none) ∧ (b.isSome → d = none ∧ e = none) := by
  cases a <;> cases b <;> cases d <;> cases e <;> simp at h ⊢

/-- The interfaces that a packet is queued for. -/
theorem names_queued (c : Crypto) (s : TransportState) (r : Reading) (p : Wire.Packet)
    (destinationHash : Bytes) : (queued c s r p destinationHash).map Prod.fst =
    (transitVia s r p destinationHash).toList ++ (relayVia s r p destinationHash).toList ++
      (dataVia s r p destinationHash).toList ++ (proofVia c s r p destinationHash).toList := by
  simp [queued, transitFrames, hoppedFrames, Function.comp_def]

/-- What is queued is as it should be exactly when the tables are clear. -/
theorem clear_iff {frames : List (String × Bytes)}
    (hframes : frames = queued c s r p destinationHash) :
    (frames.length ≤ 1 ∧
        (∀ frame ∈ frames, p.receivingInterface = some frame.1 →
          TwoSided s destinationHash p.receivingInterface) ∧
        (destinationHash ∈ s.destinations → frames = [])) ↔
      Clear c s r p destinationHash := by
  have hnames := names_queued c s r p destinationHash
  rw [← hframes] at hnames
  have hsingle := length_toList_le_one (transitVia s r p destinationHash)
    (relayVia s r p destinationHash) (dataVia s r p destinationHash)
    (proofVia c s r p destinationHash) dataVia_or_proofVia
  rw [← hnames, List.length_map] at hsingle
  have hmem : ∀ name, name ∈ frames.map Prod.fst ↔
      transitVia s r p destinationHash = some name ∨ relayVia s r p destinationHash = some name ∨
        dataVia s r p destinationHash = some name ∨
        proofVia c s r p destinationHash = some name := by
    intro name
    rw [hnames]
    simp only [List.mem_append, Option.mem_toList, or_assoc]
  have hback : ∀ {name}, p.receivingInterface = some name → name ∈ frames.map Prod.fst →
      (∀ frame ∈ frames, p.receivingInterface = some frame.1 →
        TwoSided s destinationHash p.receivingInterface) →
      TwoSided s destinationHash p.receivingInterface := by
    intro name hname hmem hall
    obtain ⟨frame, hframe, rfl⟩ := List.mem_map.mp hmem
    exact hall frame hframe hname
  constructor
  · rintro ⟨hlength, hhorizon, hlocal⟩
    obtain ⟨htransit, hrelay⟩ := hsingle.mp hlength
    refine ⟨htransit, hrelay, ?_, ?_, ?_⟩
    · rintro name hname (⟨-, hvia⟩ | hvia)
      · exact hback hname ((hmem name).mpr (.inr (.inl hvia))) hhorizon
      · exact hback hname ((hmem name).mpr (.inr (.inr (.inl hvia)))) hhorizon
    · intro name hname hvia
      exact hback hname ((hmem name).mpr (.inr (.inr (.inr hvia)))) hhorizon
    · intro hregistered
      rw [hlocal hregistered] at hmem
      refine ⟨?_, ?_, ?_⟩
      · exact Option.eq_none_iff_forall_not_mem.mpr fun name h =>
          absurd ((hmem name).mpr (.inl h)) (by simp)
      · exact Option.eq_none_iff_forall_not_mem.mpr fun name h =>
          absurd ((hmem name).mpr (.inr (.inl h))) (by simp)
      · exact Option.eq_none_iff_forall_not_mem.mpr fun name h =>
          absurd ((hmem name).mpr (.inr (.inr (.inr h)))) (by simp)
  · intro hclear
    refine ⟨hsingle.mpr ⟨hclear.transit, hclear.relay⟩, ?_, ?_⟩
    · intro frame hframe hname
      obtain hvia | hvia | hvia | hvia :=
        (hmem frame.1).mp (List.mem_map_of_mem (f := Prod.fst) hframe)
      · unfold transitVia at hvia
        split at hvia
        · exact absurd hname (transitRoute_ne hvia)
        · cases hvia
      · cases hlink : linkVia s p destinationHash with
        | none => exact hclear.path _ hname (.inl ⟨hlink, hvia⟩)
        | some name =>
            obtain rfl := relayVia_of_linkVia hlink hvia
            exact twoSided_of_linkVia hlink hname
      · exact hclear.path _ hname (.inr hvia)
      · exact hclear.back _ hname hvia
    · intro hregistered
      obtain ⟨htransit, hrelay, hproof⟩ := hclear.registered hregistered
      rw [htransit, hrelay, dataVia_of_registered hregistered, hproof] at hnames
      exact List.map_eq_nil_iff.mp hnames

/-- A frame that does not get as far as forwarding queues nothing. -/
theorem outbound_of_not_reaches {raw : Bytes} {receivingInterface : Option String}
    (hunpack : (Wire.Packet.holding raw receivingInterface).unpack c = some p)
    (hdest : p.destinationHash = some destinationHash) (htype : p.packetType ≠ Wire.announce)
    (hcontrol : controlAspects s p = none) (hreaches : ¬ ReachesForwarding c s p) :
    (inbound c s r raw receivingInterface).1.outbound = [] := by
  have hread := readFrame_of_unpack hunpack
  by_cases hflag : p.flags &&& 0x80 = 0x80
  · rw [if_pos hflag] at hread
    unfold inbound
    rw [hread]
    rfl
  · rw [if_neg hflag] at hread
    rw [outbound_of_readFrame hread hdest htype hcontrol, if_neg]
    exact fun h => hreaches ⟨hflag, h⟩

/-- The claim on a frame, by the packet that it unpacks to. -/
theorem forwardsOnce_of_unpack {raw : Bytes} {receivingInterface : Option String}
    (hunpack : (Wire.Packet.holding raw receivingInterface).unpack c = some p)
    (hdest : p.destinationHash = some destinationHash) :
    ForwardsOnce c s r raw receivingInterface ↔
      (inbound c s r raw receivingInterface).1.outbound.length ≤ 1 ∧
        (∀ frame ∈ (inbound c s r raw receivingInterface).1.outbound,
          receivingInterface = some frame.1 → TwoSided s destinationHash receivingInterface) ∧
        (destinationHash ∈ s.destinations →
          (inbound c s r raw receivingInterface).1.outbound = []) := by
  constructor
  · intro h
    refine ⟨h.single, ?_, h.registered p _ hunpack hdest⟩
    intro frame hframe hback
    obtain ⟨p', hash, hp', hdest', hsides⟩ := h.horizon frame hframe hback
    obtain rfl := Option.some.inj (hunpack.symm.trans hp')
    obtain rfl := Option.some.inj (hdest.symm.trans hdest')
    exact hsides
  · rintro ⟨hsingle, hhorizon, hregistered⟩
    refine ⟨hsingle, ?_, ?_⟩
    · intro frame hframe hback
      exact ⟨p, _, hunpack, hdest, hhorizon frame hframe hback⟩
    · intro p' hash hp' hdest' hlocal
      obtain rfl := Option.some.inj (hunpack.symm.trans hp')
      obtain rfl := Option.some.inj (hdest.symm.trans hdest')
      exact hregistered hlocal

/-- The claim on a frame that unpacks. -/
theorem forwardsOnce_iff_clear {raw : Bytes} {receivingInterface : Option String}
    (hunpack : (Wire.Packet.holding raw receivingInterface).unpack c = some p)
    (hdest : p.destinationHash = some destinationHash) (htype : p.packetType ≠ Wire.announce)
    (hcontrol : controlAspects s p = none) :
    ForwardsOnce c s r raw receivingInterface ↔
      (ReachesForwarding c s p → Clear c s r (hopped p) destinationHash) := by
  have hiface : receivingInterface = (hopped p).receivingInterface := by
    obtain ⟨f, -, rfl⟩ := Wire.Frame.unpack_eq_some_iff.mp hunpack
    rfl
  rw [forwardsOnce_of_unpack hunpack hdest]
  by_cases hreaches : ReachesForwarding c s p
  · have hread := readFrame_of_unpack hunpack
    rw [if_neg hreaches.1] at hread
    have hout := outbound_of_readFrame (s := s) (r := r) hread hdest htype hcontrol
    rw [if_pos hreaches.2] at hout
    have hclear := clear_iff hout
    rw [← hiface] at hclear
    rw [hclear]
    exact ⟨fun h _ => h, fun h => h hreaches⟩
  · rw [outbound_of_not_reaches hunpack hdest htype hcontrol hreaches]
    simp [hreaches]

/-- A frame that is neither an announce nor for a control destination is forwarded at most
once, not back, and not past a registered destination, exactly when it does not get as far
as forwarding or the tables are clear for it. -/
theorem forwardsOnce_iff {raw : Bytes} {receivingInterface : Option String}
    (hplain : ∀ p, (Wire.Packet.holding raw receivingInterface).unpack c = some p →
      p.packetType ≠ Wire.announce ∧ controlAspects s p = none) :
    ForwardsOnce c s r raw receivingInterface ↔
      ∀ p destinationHash, (Wire.Packet.holding raw receivingInterface).unpack c = some p →
        p.destinationHash = some destinationHash → ReachesForwarding c s p →
          Clear c s r (hopped p) destinationHash := by
  cases hunpack : (Wire.Packet.holding raw receivingInterface).unpack c with
  | none =>
      have hnothing : (inbound c s r raw receivingInterface).1.outbound = [] := by
        have hread : readFrame c raw receivingInterface = none := by
          unfold readFrame
          rw [hunpack, ite_self]
        unfold inbound
        rw [hread]
        rfl
      constructor
      · rintro - p destinationHash ⟨⟩
      · intro _
        exact ⟨by simp [hnothing], by simp [hnothing], fun _ _ _ _ _ => hnothing⟩
  | some p =>
      obtain ⟨htype, hcontrol⟩ := hplain p hunpack
      obtain ⟨f, -, hp⟩ := Wire.Frame.unpack_eq_some_iff.mp hunpack
      have hdest : p.destinationHash = some f.destinationHash.1 := by rw [hp]; rfl
      rw [forwardsOnce_iff_clear hunpack hdest htype hcontrol]
      constructor
      · intro h p' destinationHash hp' hdest'
        obtain rfl := Option.some.inj hp'
        obtain rfl := Option.some.inj (hdest.symm.trans hdest')
        exact h
      · intro h
        exact h p _ rfl hdest

/-- Data for a destination that is neither a link nor registered here is queued by two
blocks whenever the path table has an unexpired route for it. -/
theorem not_clear_of_data {name : String} (hdata : p.packetType = Wire.data)
    (hcontext : p.context ≠ Wire.lrproof) (htype : p.destinationType ≠ some .link)
    (hlocal : destinationHash ∉ s.destinations) (hlink : linkVia s p destinationHash = none)
    (hpath : pathVia s r destinationHash = some name) :
    ¬ Clear c s r p destinationHash := by
  intro hclear
  have hrequest : p.packetType ≠ Wire.linkRequest := by
    rw [hdata]
    decide
  have hrelay : relayVia s r p destinationHash = some name := by
    unfold relayVia
    rw [if_pos ⟨hrequest, hcontext⟩, hlink]
    exact hpath
  have hagain : dataVia s r p destinationHash = some name := by
    unfold dataVia
    rw [if_pos ⟨hdata, htype, hlocal⟩]
    exact hpath
  have hnone := (hclear.relay (by rw [hrelay]; rfl)).1
  rw [hagain] at hnone
  cases hnone

/-- A link request is for transit forwarding alone. -/
theorem clear_of_linkRequest (hrequest : p.packetType = Wire.linkRequest)
    (hlocal : destinationHash ∉ s.destinations) : Clear c s r p destinationHash := by
  obtain ⟨hrelay, hdata, hproof⟩ := vias_of_linkRequest (c := c) (s := s) (r := r) hrequest
    destinationHash
  constructor
  · exact fun _ => ⟨hrelay, hdata, hproof⟩
  · exact fun _ => ⟨hdata, hproof⟩
  · simp [hrelay, hdata]
  · simp [hproof]
  · exact fun h => absurd h hlocal

end Iff

/-- A relay with two interfaces and one route. -/
def sampleRelay : TransportState :=
  let interface (name : String) : InterfaceStub :=
    { name := name, online := true, bitrate := none, hwMtu := none, autoconfigureMtu := false
      fixedMtu := false, mode := 0, tunnelId := none, lastInboundAt := 0 }
  { TransportState.start with
    identityHash := some (List.replicate 16 9)
    transportEnabled := true
    interfaces := [interface "left", interface "right"]
    pathTable := TransportState.start.pathTable.insert (List.replicate 16 0)
      [{ timestamp := 0, nextHop := List.replicate 16 5, hops := 1, expires := 60
         receivingInterface := some "right", packetHash := [] }] }

/-- A frame of this type for the destination of the route. -/
def sampleFrame (packetType : UInt8) : Bytes :=
  [packetType, 0x00] ++ List.replicate 16 0 ++ [0x00, 0x07]

/-- The packet of that frame, from the left. -/
def samplePacket (packetType : UInt8) : Wire.Packet :=
  let p := Wire.Packet.holding (sampleFrame packetType) (some "left")
  (p.unpack (Link.sampleCrypto [])).getD p

/-- A link request is passed on once. -/
theorem forwardsOnce_linkRequest :
    ForwardsOnce (Link.sampleCrypto []) sampleRelay .zero (sampleFrame Wire.linkRequest)
      (some "left") := by
  have hunpack : (Wire.Packet.holding (sampleFrame Wire.linkRequest) (some "left")).unpack
      (Link.sampleCrypto []) = some (samplePacket Wire.linkRequest) := rfl
  refine (forwardsOnce_iff ?_).mpr ?_
  · intro p hp
    obtain rfl := Option.some.inj (hunpack.symm.trans hp)
    exact ⟨by decide, rfl⟩
  · intro p destinationHash hp _ _
    obtain rfl := Option.some.inj (hunpack.symm.trans hp)
    exact clear_of_linkRequest (by decide) List.not_mem_nil

/-- Data is queued more than once. -/
theorem forwardsOnce_false :
    ¬ ∀ (c : Crypto) (s : TransportState) (r : Reading) (raw : Bytes)
        (receivingInterface : Option String),
      (∀ p, (Wire.Packet.holding raw receivingInterface).unpack c = some p →
        p.packetType ≠ Wire.announce ∧ controlAspects s p = none) →
      ForwardsOnce c s r raw receivingInterface := by
  intro hall
  have hunpack : (Wire.Packet.holding (sampleFrame Wire.data) (some "left")).unpack
      (Link.sampleCrypto []) = some (samplePacket Wire.data) := rfl
  have hplain : ∀ p, (Wire.Packet.holding (sampleFrame Wire.data) (some "left")).unpack
      (Link.sampleCrypto []) = some p →
        p.packetType ≠ Wire.announce ∧ controlAspects sampleRelay p = none := by
    intro p hp
    obtain rfl := Option.some.inj (hunpack.symm.trans hp)
    exact ⟨by decide, rfl⟩
  have honce := hall _ sampleRelay .zero _ _ hplain
  have hdest : (samplePacket Wire.data).destinationHash = some (List.replicate 16 0) := rfl
  have hclear := (forwardsOnce_iff_clear hunpack hdest (by decide) rfl).mp honce
    ⟨by decide, by decide, rfl⟩
  have hpath : pathVia sampleRelay .zero (List.replicate 16 0) = some "right" := by decide
  exact not_clear_of_data (by decide) (by decide) (by decide) (by decide) rfl hpath hclear

end Reticulum.Transport
