import Reticulum.Transport.Routes

/-!
# The blocks that forward a packet

`Transport::inbound` has four places that queue a frame for a packet that is not
an announce: transit forwarding, the link relay with its fallback to the path
table, the path table again for data, and the way back of a proof. Each is given
by the interface that it finds in the tables before the call, and by the frame
that it sends there (`outbound_of_inboundPacket`). All but transit forwarding
send the frame as it came, with the hops set.
-/

namespace Reticulum.Transport

/-- What a call queues for a frame. The handlers of control packets and of cache requests
queue for frames of their own. -/
def Outcome.outbound : Outcome → List (String × Bytes)
  | .processed effects => effects.outbound
  | _ => []

/-- The interface of transit forwarding. -/
def transitVia (s : TransportState) (r : Reading) (p : Wire.Packet) (destinationHash : Bytes) :
    Option String :=
  if s.identityHash.isSome then (transitRoute s r p destinationHash).2.2 else none

/-- The frame of transit forwarding. -/
def transitFrames (s : TransportState) (r : Reading) (p : Wire.Packet) (destinationHash : Bytes) :
    List (String × Bytes) :=
  let route := transitRoute s r p destinationHash
  (transitVia s r p destinationHash).toList.map fun name =>
    (name, transitFrame s p route.1 route.2.1 route.2.2)

/-- The frame of every other block: the one that came in, with the hops set. -/
def hoppedFrames (p : Wire.Packet) (via : Option String) : List (String × Bytes) :=
  via.toList.map fun name => (name, setHops p.raw p.hops)

/-- The other side of the relayed link that a packet belongs to. -/
def linkVia (s : TransportState) (p : Wire.Packet) (destinationHash : Bytes) : Option String :=
  (s.linkTable destinationHash).bind fun entry => relayInterface entry p

/-- The interface of the link relay, or of its fallback. -/
def relayVia (s : TransportState) (r : Reading) (p : Wire.Packet) (destinationHash : Bytes) :
    Option String :=
  if p.packetType ≠ Wire.linkRequest ∧ p.context ≠ Wire.lrproof then
    match linkVia s p destinationHash with
    | some name => (findInterface s.interfaces name).map (·.name)
    | none => pathVia s r destinationHash
  else none

/-- The interface of the fallback for data. -/
def dataVia (s : TransportState) (r : Reading) (p : Wire.Packet) (destinationHash : Bytes) :
    Option String :=
  if p.packetType = Wire.data ∧ p.destinationType ≠ some .link ∧
      destinationHash ∉ s.destinations then
    pathVia s r destinationHash
  else none

/-- Where the proof of a relayed link goes. -/
def lrproofVia (c : Crypto) (s : TransportState) (p : Wire.Packet) (destinationHash : Bytes) :
    Option String :=
  (s.linkTable destinationHash).bind fun entry =>
    if p.hops = entry.remainingHops ∧ p.receivingInterface = entry.nextHopInterface ∧
        validateLrproofSignature c s p.data destinationHash entry.destinationHash then
      entry.receivedInterface
    else none

/-- The entry of the reverse table that a proof finds: the one that transit forwarding
has just made for it, should its own hash be its destination. -/
def reverseEntry (c : Crypto) (s : TransportState) (r : Reading) (p : Wire.Packet)
    (destinationHash : Bytes) : Option ReverseEntry :=
  if destinationHash = p.getTruncatedHash c ∧ s.identityHash.isSome ∧
      s.pathTable.contains destinationHash then
    some { receivedInterface := p.receivingInterface
           outboundInterface := (transitRoute s r p destinationHash).2.2
           timestamp := r.now }
  else s.reverseTable destinationHash

/-- Where the proof of a packet goes that finds this entry. -/
def returnVia (s : TransportState) (r : Reading) (p : Wire.Packet) (destinationHash : Bytes)
    (found : Option ReverseEntry) : Option String :=
  match found with
  | some entry =>
      if p.receivingInterface = entry.outboundInterface then
        (entry.receivedInterface.bind (findInterface s.interfaces)).map (·.name)
      else none
  | none =>
      ((selectPath s.pathTable s.interfaces destinationHash r.now).bind
        (·.receivingInterface)).filter fun name => p.receivingInterface ≠ some name

/-- Where a proof goes. -/
def proofVia (c : Crypto) (s : TransportState) (r : Reading) (p : Wire.Packet)
    (destinationHash : Bytes) : Option String :=
  if p.packetType = Wire.proof then
    if p.context = Wire.lrproof then lrproofVia c s p destinationHash
    else if p.destinationType = some .link then none
    else returnVia s r p destinationHash (reverseEntry c s r p destinationHash)
  else none

/-- What the four blocks queue for a packet. -/
def queued (c : Crypto) (s : TransportState) (r : Reading) (p : Wire.Packet)
    (destinationHash : Bytes) : List (String × Bytes) :=
  transitFrames s r p destinationHash ++ hoppedFrames p (relayVia s r p destinationHash) ++
    hoppedFrames p (dataVia s r p destinationHash) ++
    hoppedFrames p (proofVia c s r p destinationHash)

/-- The packet with the transport id of this node is the packet but for that id. -/
theorem injectTransportId_eq (s : TransportState) (p : Wire.Packet) :
    ∃ transportId, injectTransportId s p = { p with transportId := transportId } := by
  unfold injectTransportId
  split
  · split
    · split
      · exact ⟨_, rfl⟩
      · exact ⟨p.transportId, rfl⟩
    · exact ⟨p.transportId, rfl⟩
  · exact ⟨p.transportId, rfl⟩

variable {receivingInterface : Option String}

section Blocks

variable {c : Crypto} {s s' : TransportState} {r : Reading} {p : Wire.Packet}
  {destinationHash : Bytes}

theorem transitRoute_of_not_contains (h : s.pathTable.contains destinationHash = false) :
    transitRoute s r p destinationHash = ([], 0, none) := by
  have hnone : s.pathTable destinationHash = none := by
    simpa [Table.contains] using h
  simp [transitRoute, selectPathExcluding, hnone]

/-- Transit forwarding happens exactly when this node has an identity and the path table
knows the destination. -/
theorem transit_inject (hdest : p.destinationHash = some destinationHash)
    (htype : p.packetType ≠ Wire.announce) :
    transit c s r (injectTransportId s p) =
      if s.identityHash.isSome ∧ s.pathTable.contains destinationHash then
        let p := { p with transportId := s.identityHash }
        let (nextHop, remainingHops, outbound) := transitRoute s r p destinationHash
        (noteTransit c s r p destinationHash nextHop remainingHops outbound,
          outbound.toList.map fun name =>
            (name, transitFrame s p nextHop remainingHops outbound))
      else (s, []) := by
  cases hidentity : s.identityHash with
  | none =>
      have hinject : injectTransportId s p = p := by
        simp [injectTransportId, hdest, hidentity]
      rw [hinject, if_neg (by simp)]
      unfold transit
      rw [hidentity, if_neg]
      rintro ⟨-, hsome, hnone⟩
      rw [hnone] at hsome
      cases hsome
  | some identityHash =>
      cases hcontains : s.pathTable.contains destinationHash with
      | true =>
          have hinject : injectTransportId s p = { p with transportId := some identityHash } := by
            simp [injectTransportId, htype, hdest, hidentity, hcontains]
          rw [hinject, if_pos (by simp)]
          unfold transit
          rw [if_pos ⟨htype, rfl, hidentity.symm⟩]
          simp only [hdest]
          rw [if_pos (.inr hcontains)]
      | false =>
          have hinject : injectTransportId s p = p := by
            simp [injectTransportId, hdest, hidentity, hcontains]
          rw [hinject, if_neg (by simp)]
          unfold transit
          split
          · rw [hdest]
            dsimp only
            rw [transitRoute_of_not_contains hcontains]
            simp [hcontains]
          · rfl

/-- The first route was used. -/
theorem sameRoutes_noteTransit (nextHop : Bytes) (remainingHops : UInt8)
    (outbound : Option String) :
    SameRoutes s (noteTransit c s r p destinationHash nextHop remainingHops outbound) := by
  unfold noteTransit
  refine ⟨rfl, ?_, rfl, rfl, rfl, rfl⟩
  dsimp only
  split
  · rename_i front routes hroutes
    refine (SameRoutes.of_insert ?_).paths
    rw [hroutes]
    rfl
  · rfl

/-- The MTU of a forwarded link request reads what an interface can carry. -/
theorem clampMtu_of_sameRoutes (h : SameRoutes s s') {out out' : InterfaceStub}
    (hout : out'.untimed = out.untimed) (mtu : Nat) :
    clampMtu s' p out' mtu = clampMtu s p out mtu := by
  have hfields := congrArg (fun i => (i.hwMtu, i.autoconfigureMtu, i.fixedMtu)) hout
  simp only [InterfaceStub.untimed, Prod.mk.injEq] at hfields
  have hreceiving : (p.receivingInterface.bind (findInterface s'.interfaces)).bind (·.hwMtu) =
      (p.receivingInterface.bind (findInterface s.interfaces)).bind (·.hwMtu) := by
    cases p.receivingInterface with
    | none => rfl
    | some name =>
        have hmtu := congrArg (fun i => i.bind InterfaceStub.hwMtu) (h.findInterface name)
        simp only [Option.bind_map] at hmtu
        exact hmtu
  unfold clampMtu
  rw [hfields.1, hfields.2.1, hfields.2.2, hreceiving]

theorem clampSignalling_of_sameRoutes (h : SameRoutes s s') (outbound : Option String)
    (newRaw : Bytes) :
    clampSignalling s' p outbound newRaw = clampSignalling s p outbound newRaw := by
  unfold clampSignalling
  cases outbound with
  | none => rfl
  | some name =>
      have hfind := h.findInterface name
      simp only [Option.bind_some]
      cases hout : findInterface s.interfaces name with
      | none =>
          rw [hout] at hfind
          rw [Option.map_eq_none_iff.mp hfind]
      | some out =>
          rw [hout] at hfind
          obtain ⟨out', hout', heq⟩ := Option.map_eq_some_iff.mp hfind
          rw [hout']
          cases Link.mtuFromLrPacket p.data with
          | none => rfl
          | some mtu => simp only [clampMtu_of_sameRoutes h heq]

/-- Transit forwarding reads the routes and what the interfaces can carry. -/
theorem transitFrames_of_sameRoutes (h : SameRoutes s s') :
    transitFrames s' r p destinationHash = transitFrames s r p destinationHash := by
  unfold transitFrames transitVia transitFrame
  rw [h.identityHash, h.transitRoute]
  simp only [clampSignalling_of_sameRoutes h]

section

variable (hdest : p.destinationHash = some destinationHash)

include hdest

section

variable (htype : p.packetType ≠ Wire.announce)

include htype

/-- The frames of transit forwarding, and what it changes. -/
theorem transit_spec :
    (transit c s r (injectTransportId s p)).2 = transitFrames s r p destinationHash ∧
      SameRoutes s (transit c s r (injectTransportId s p)).1 := by
  rw [transit_inject hdest htype]
  unfold transitFrames transitVia
  by_cases hfires : s.identityHash.isSome ∧ s.pathTable.contains destinationHash
  · rw [if_pos hfires, if_pos hfires.1]
    exact ⟨rfl, sameRoutes_noteTransit _ _ _⟩
  · rw [if_neg hfires]
    refine ⟨?_, SameRoutes.refl⟩
    by_cases hidentity : s.identityHash.isSome
    · have hcontains : s.pathTable.contains destinationHash = false :=
        Bool.eq_false_iff.mpr fun h => hfires ⟨hidentity, h⟩
      rw [if_pos hidentity, transitRoute_of_not_contains hcontains]
      rfl
    · rw [if_neg hidentity]
      rfl

/-- Transit forwarding of anything but a link request leaves the link table alone. -/
theorem transit_linkTable (hrequest : p.packetType ≠ Wire.linkRequest) :
    (transit c s r (injectTransportId s p)).1.linkTable = s.linkTable := by
  rw [transit_inject hdest htype]
  split
  · simp only [noteTransit, if_neg hrequest]
  · rfl

/-- What transit forwarding leaves in the reverse table for the destination of a
packet. -/
theorem transit_reverseTable (hrequest : p.packetType ≠ Wire.linkRequest) :
    (transit c s r (injectTransportId s p)).1.reverseTable destinationHash =
      reverseEntry c s r p destinationHash := by
  rw [transit_inject hdest htype]
  unfold reverseEntry
  by_cases hfires : s.identityHash.isSome ∧ s.pathTable.contains destinationHash
  · rw [if_pos hfires]
    simp only [noteTransit, if_neg hrequest]
    by_cases hself : destinationHash = p.getTruncatedHash c
    · rw [if_pos ⟨hself, hfires⟩]
      subst hself
      exact Table.insert_self _ (p.getTruncatedHash c) _
    · rw [if_neg fun h => hself h.1]
      exact Table.insert_of_ne _ hself _
  · rw [if_neg hfires, if_neg fun h => hfires h.2]

end

end

theorem findInterface_name (interfaces : List InterfaceStub) (name : String) :
    (findInterface interfaces name).map (·.name) =
      (findInterface interfaces name).map fun _ => name := by
  cases hfind : findInterface interfaces name with
  | none => rfl
  | some found =>
      have hname := List.find?_some hfind
      simpa using hname

/-- The names of registered interfaces are the same. -/
theorem SameRoutes.interfaceName (h : SameRoutes s s') (name : String) :
    (Transport.findInterface s'.interfaces name).map (·.name) =
      (Transport.findInterface s.interfaces name).map (·.name) := by
  have hname := congrArg (Option.map InterfaceStub.name) (h.findInterface name)
  simpa [InterfaceStub.untimed, Function.comp_def] using hname

theorem fallback_via (destinationHash : Bytes) :
    fallback s r p destinationHash = hoppedFrames p (pathVia s r destinationHash) := rfl

/-- The frames of the link relay, and what it changes. -/
theorem relayLink_spec (hdest : p.destinationHash = some destinationHash)
    (htype : p.packetType ≠ Wire.announce) :
    (relayLink s r p).2 = hoppedFrames p (relayVia s r p destinationHash) ∧
      SameRoutes s (relayLink s r p).1 ∧
      (relayLink s r p).1.reverseTable = s.reverseTable := by
  unfold relayLink relayVia linkVia
  simp only [hdest, htype, ne_eq, not_false_eq_true, true_and]
  split
  · cases hentry : s.linkTable destinationHash with
    | none =>
        exact ⟨rfl, SameRoutes.refl, rfl⟩
    | some entry =>
        simp only [Option.bind_some]
        cases relayInterface entry p with
        | none =>
            exact ⟨rfl, SameRoutes.refl, rfl⟩
        | some name =>
            refine ⟨?_, ⟨rfl, rfl, rfl, rfl, rfl, rfl⟩, rfl⟩
            dsimp only [Option.map_some]
            rw [findInterface_name]
            cases findInterface s.interfaces name <;> rfl
  · exact ⟨rfl, SameRoutes.refl, rfl⟩

/-- The link relay leaves the proofs of links alone. -/
theorem relayLink_of_lrproof (hcontext : p.context = Wire.lrproof) : relayLink s r p = (s, []) := by
  simp [relayLink, hcontext]

theorem localReceives_isEmpty (hdest : p.destinationHash = some destinationHash) :
    (localReceives s p).isEmpty = true ↔ destinationHash ∉ s.destinations := by
  unfold localReceives
  rw [hdest]
  simp only [List.isEmpty_iff, List.map_eq_nil_iff, List.filter_eq_nil_iff]
  constructor
  · intro h hmem
    exact h destinationHash hmem (by simp)
  · intro h hash hmem heq
    obtain rfl : destinationHash = hash := by simpa using heq
    exact h hmem

/-- The frames that a data packet is forwarded in, and what this changes. -/
theorem handleData_spec (hdest : p.destinationHash = some destinationHash) :
    (handleData s r p).2.1 = hoppedFrames p (dataVia s r p destinationHash) ∧
      SameRoutes s (handleData s r p).1 := by
  unfold handleData dataVia
  by_cases hdata : p.packetType = Wire.data
  swap
  · simp only [hdata, false_and, if_false]
    exact ⟨rfl, SameRoutes.refl⟩
  by_cases hlink : p.destinationType = some .link
  · simp only [hdata, hlink, if_true, ne_eq, not_true_eq_false, false_and, and_false, if_false]
    exact ⟨rfl, SameRoutes.refl⟩
  simp only [hdata, hlink, hdest, if_true, if_false, localReceives_isEmpty hdest, ne_eq,
    not_false_eq_true, true_and]
  by_cases hlocal : destinationHash ∈ s.destinations
  · simp only [hlocal, not_true_eq_false, if_false]
    exact ⟨rfl, SameRoutes.refl⟩
  simp only [hlocal, not_false_eq_true, if_true]
  rw [fallback_via]
  cases hvia : pathVia s r destinationHash with
  | none => exact ⟨rfl, SameRoutes.refl⟩
  | some name =>
      refine ⟨rfl, SameRoutes.of_insert ?_⟩
      cases hroutes : s.pathTable destinationHash with
      | none => simp [pathVia, hroutes, minByHops] at hvia
      | some routes => simp [PathEntry.untimed, Function.comp_def]

/-- Anything but data is not handled as data. -/
theorem handleData_of_ne (hdata : p.packetType ≠ Wire.data) : (handleData s r p).1 = s := by
  simp [handleData, hdata]

/-- The frames of the proof of a link. -/
theorem relayLrproof_spec (hdest : p.destinationHash = some destinationHash) :
    (relayLrproof c s p).2 = hoppedFrames p (lrproofVia c s p destinationHash) := by
  unfold relayLrproof lrproofVia
  rw [hdest]
  dsimp only
  cases s.linkTable destinationHash with
  | none => rfl
  | some entry =>
      dsimp only [Option.bind_some]
      split
      · split
        · rename_i hnone
          rw [hnone]
          rfl
        · rename_i name hname
          rw [hname]
          rfl
      · rfl

/-- The frames of the proof of a packet. -/
theorem returnProof_spec (hdest : p.destinationHash = some destinationHash) :
    (returnProof s r p).2 =
      hoppedFrames p (returnVia s r p destinationHash (s.reverseTable destinationHash)) := by
  unfold returnProof returnVia
  rw [hdest]
  dsimp only
  cases s.reverseTable destinationHash with
  | some entry =>
      dsimp only
      by_cases hout : p.receivingInterface = entry.outboundInterface
      · rw [if_pos hout, if_pos hout]
        cases entry.receivedInterface.bind (findInterface s.interfaces) <;> rfl
      · rw [if_neg hout, if_neg hout]
        split <;> rfl
  | none =>
      dsimp only
      cases (selectPath s.pathTable s.interfaces destinationHash r.now).bind
          (·.receivingInterface) with
      | none => rfl
      | some name =>
          by_cases hname : p.receivingInterface = some name
          · simp [hname, hoppedFrames]
          · simp [hname, hoppedFrames, Option.filter]

/-- Where a link proof goes reads the link table and the known identities. -/
theorem lrproofVia_congr (hlink : s'.linkTable = s.linkTable)
    (hknown : s'.knownDestinations = s.knownDestinations) :
    lrproofVia c s' p destinationHash = lrproofVia c s p destinationHash := by
  unfold lrproofVia validateLrproofSignature recallIdentity
  rw [hlink, hknown]

section

variable (h : SameRoutes s s')

include h

theorem returnVia_of_sameRoutes (found : Option ReverseEntry) :
    returnVia s' r p destinationHash found = returnVia s r p destinationHash found := by
  have hselect : (selectPath s'.pathTable s'.interfaces destinationHash r.now).bind
      (·.receivingInterface) =
        (selectPath s.pathTable s.interfaces destinationHash r.now).bind
          (·.receivingInterface) := by
    have hvia := congrArg (fun e => e.bind PathEntry.receivingInterface)
      (h.selectPathExcluding destinationHash r.now none)
    simp only [Option.bind_map] at hvia
    exact hvia
  have hname : ∀ name : Option String,
      (name.bind (findInterface s'.interfaces)).map (·.name) =
        (name.bind (findInterface s.interfaces)).map (·.name) := by
    intro name
    cases name with
    | none => rfl
    | some name => exact h.interfaceName name
  unfold returnVia
  rw [hselect]
  cases found with
  | none => rfl
  | some entry =>
      dsimp only
      rw [hname]

theorem relayVia_congr (hlink : p.packetType ≠ Wire.linkRequest → s'.linkTable = s.linkTable) :
    relayVia s' r p destinationHash = relayVia s r p destinationHash := by
  unfold relayVia linkVia
  split
  · rename_i happlies
    rw [hlink happlies.1, h.pathVia]
    cases (s.linkTable destinationHash).bind fun entry => relayInterface entry p with
    | none => rfl
    | some name => exact h.interfaceName name
  · rfl

theorem dataVia_of_sameRoutes :
    dataVia s' r p destinationHash = dataVia s r p destinationHash := by
  unfold dataVia
  rw [h.destinations, h.pathVia]

theorem reverseEntry_congr (hreverse : s'.reverseTable = s.reverseTable) :
    reverseEntry c s' r p destinationHash = reverseEntry c s r p destinationHash := by
  unfold reverseEntry
  rw [h.identityHash, h.contains, h.transitRoute, hreverse]

theorem proofVia_congr (hlink : s'.linkTable = s.linkTable)
    (hreverse : s'.reverseTable = s.reverseTable) :
    proofVia c s' r p destinationHash = proofVia c s r p destinationHash := by
  unfold proofVia
  rw [lrproofVia_congr hlink h.knownDestinations, returnVia_of_sameRoutes h,
    reverseEntry_congr h hreverse]

end

/-- The frames of a proof, handled after the blocks before it. -/
theorem handleProof_spec (hdest : p.destinationHash = some destinationHash) (h : SameRoutes s s')
    (hlink : p.context = Wire.lrproof → s'.linkTable = s.linkTable)
    (hreverse : s'.reverseTable destinationHash = reverseEntry c s r p destinationHash)
    (hproof : p.packetType = Wire.proof) :
    (handleProof c s' r p).2.1 = hoppedFrames p (proofVia c s r p destinationHash) := by
  unfold handleProof proofVia
  rw [if_pos hproof, if_pos hproof]
  by_cases hcontext : p.context = Wire.lrproof
  · simp only [hcontext, true_or, if_true]
    rw [relayLrproof_spec hdest, lrproofVia_congr (hlink hcontext) h.knownDestinations]
  by_cases htype : p.destinationType = some .link
  · simp only [hcontext, htype, or_true, if_true, if_false]
    rfl
  · simp only [hcontext, htype, or_self, if_false]
    rw [returnProof_spec hdest, returnVia_of_sameRoutes h, hreverse]

/-- The frames that a packet is queued in, block after block, as the tables before the
call give them. -/
theorem outbound_of_inboundPacket (hdest : p.destinationHash = some destinationHash)
    (htype : p.packetType ≠ Wire.announce) :
    (inboundPacket c s r p).1.outbound = queued c s r p destinationHash := by
  let s₀ := rememberPacketHash s p
  let q := injectTransportId s₀ p
  let s₁ := (transit c s₀ r q).1
  let s₂ := (relayLink s₁ r q).1
  let s₃ := (handleData s₂ r q).1
  obtain ⟨hashlist, hremember⟩ := rememberPacketHash_eq s p
  have hsame : SameRoutes s s₀ := SameRoutes.rememberPacketHash
  have htables : s₀.linkTable = s.linkTable ∧ s₀.reverseTable = s.reverseTable := by
    change (rememberPacketHash s p).linkTable = _ ∧ (rememberPacketHash s p).reverseTable = _
    rw [hremember]
    exact ⟨rfl, rfl⟩
  obtain ⟨transportId, hq⟩ : ∃ transportId, q = { p with transportId := transportId } :=
    injectTransportId_eq s₀ p
  have hdest' : q.destinationHash = some destinationHash := by rw [hq, ← hdest]
  have htype' : q.packetType ≠ Wire.announce := by rw [hq]; exact htype
  obtain ⟨htransit, hsame₁⟩ := transit_spec (c := c) (s := s₀) (r := r) hdest htype
  obtain ⟨hrelay, hsame₂, hreverse₂⟩ := relayLink_spec (s := s₁) (r := r) hdest' htype'
  obtain ⟨hdata, hsame₃⟩ := handleData_spec (s := s₂) (r := r) hdest'
  have hto₁ : SameRoutes s s₁ := hsame.trans hsame₁
  have hto₂ : SameRoutes s s₂ := hto₁.trans hsame₂
  have hlink₁ : q.packetType ≠ Wire.linkRequest → s₁.linkTable = s.linkTable := by
    intro hrequest
    rw [hq] at hrequest
    exact (transit_linkTable hdest htype hrequest).trans htables.1
  have hproof : (handleProof c s₃ r q).2.1 =
      hoppedFrames q (proofVia c s r q destinationHash) := by
    by_cases hproof : q.packetType = Wire.proof
    · have hrequest : q.packetType ≠ Wire.linkRequest := by
        rw [hproof]
        decide
      have hs₃ : s₃ = s₂ := handleData_of_ne (by rw [hproof]; decide)
      refine handleProof_spec hdest' (hto₂.trans hsame₃) ?_ ?_ hproof
      · intro hcontext
        rw [hs₃]
        change (relayLink s₁ r q).1.linkTable = _
        rw [relayLink_of_lrproof hcontext]
        exact hlink₁ hrequest
      · rw [hs₃, hreverse₂]
        rw [hq] at hrequest ⊢
        exact (transit_reverseTable hdest htype hrequest).trans
          (reverseEntry_congr hsame htables.2)
    · simp [handleProof, proofVia, hproof, hoppedFrames]
  rw [transitFrames_of_sameRoutes hsame] at htransit
  rw [relayVia_congr hto₁ hlink₁] at hrelay
  rw [dataVia_of_sameRoutes hto₂] at hdata
  change (transit c s₀ r q).2 ++ (relayLink s₁ r q).2 ++ (handleData s₂ r q).2.1 ++
    (handleProof c s₃ r q).2.1 = _
  rw [htransit, hrelay, hdata, hproof, hq]
  rfl

theorem queued_congr (h : SameRoutes s s') (hlink : s'.linkTable = s.linkTable)
    (hreverse : s'.reverseTable = s.reverseTable) :
    queued c s' r p destinationHash = queued c s r p destinationHash := by
  unfold queued
  rw [transitFrames_of_sameRoutes h, relayVia_congr h fun _ => hlink, dataVia_of_sameRoutes h,
    proofVia_congr h hlink hreverse]

/-- A link request has a route in no block but transit forwarding. -/
theorem vias_of_linkRequest (hrequest : p.packetType = Wire.linkRequest) (destinationHash : Bytes) :
    relayVia s r p destinationHash = none ∧ dataVia s r p destinationHash = none ∧
      proofVia c s r p destinationHash = none := by
  refine ⟨if_neg fun h => h.1 hrequest, if_neg ?_, if_neg ?_⟩
  · rintro ⟨hdata, -⟩
    exact absurd (hrequest.symm.trans hdata) (by decide)
  · intro hproof
    exact absurd (hrequest.symm.trans hproof) (by decide)

/-- The filter leaves the routes, the link table and the reverse table alone. -/
theorem sameRoutes_admitted : SameRoutes s (admitted s r p) ∧
    (admitted s r p).linkTable = s.linkTable ∧
    (admitted s r p).reverseTable = s.reverseTable := by
  obtain ⟨table, hadmitted⟩ := admitted_eq s r p
  have hnote : SameRoutes s (noteInbound s r p.receivingInterface) := .noteInbound _
  rw [hadmitted]
  exact ⟨⟨hnote.interfaces, hnote.paths, rfl, rfl, rfl, rfl⟩, rfl, rfl⟩

theorem queued_admitted (q : Wire.Packet) :
    queued c (admitted s r p) r q destinationHash = queued c s r q destinationHash := by
  obtain ⟨hsame, hlink, hreverse⟩ := sameRoutes_admitted (s := s) (r := r) (p := p)
  exact queued_congr hsame hlink hreverse

/-- A frame that is neither an announce nor for a control destination, past the filter and
the packet cache. -/
theorem inbound_of_passed {raw : Bytes} (hread : readFrame c raw receivingInterface = some p)
    (htype : p.packetType ≠ Wire.announce) (hcontrol : controlAspects s p = none)
    (hfilter : packetFilter s p = true) (hcached : cachedPacket c s p = none) :
    inbound c s r raw receivingInterface =
      (.processed (inboundPacket c (admitted s r p) r (hopped p)).1,
        (inboundPacket c (admitted s r p) r (hopped p)).2) := by
  have hignored : ignoredAnnounce s p = false := by
    simp [ignoredAnnounce, htype]
  rw [inbound_eq hread, hignored, hcontrol]
  simp only [hcached, admitPacket, hfilter, htype, if_true, if_false, Bool.false_eq_true,
    Bool.true_eq_false]

/-- What is queued for a frame that is neither an announce nor for a control destination. -/
theorem outbound_of_readFrame {raw : Bytes} (hread : readFrame c raw receivingInterface = some p)
    (hdest : p.destinationHash = some destinationHash) (htype : p.packetType ≠ Wire.announce)
    (hcontrol : controlAspects s p = none) :
    (inbound c s r raw receivingInterface).1.outbound =
      if packetFilter s p = true ∧ cachedPacket c s p = none then
        queued c s r (hopped p) destinationHash
      else [] := by
  have hignored : ignoredAnnounce s p = false := by
    simp [ignoredAnnounce, htype]
  cases hfilter : packetFilter s p with
  | false =>
      rw [inbound_eq hread, hignored]
      simp [admitPacket, hfilter, Outcome.outbound]
  | true =>
      cases hcached : cachedPacket c s p with
      | some entry =>
          rw [inbound_eq hread, hignored, hcontrol]
          simp [admitPacket, hfilter, htype, hcached, Outcome.outbound]
      | none =>
          rw [inbound_of_passed hread htype hcontrol hfilter hcached, if_pos ⟨rfl, rfl⟩]
          change (inboundPacket c (admitted s r p) r (hopped p)).1.outbound = _
          rw [outbound_of_inboundPacket (p := hopped p) hdest htype, queued_admitted]

/-- A frame for a control destination is left to its handler. -/
theorem outbound_of_control {raw : Bytes} {aspects : List String}
    (hread : readFrame c raw receivingInterface = some p) (htype : p.packetType ≠ Wire.announce)
    (hcontrol : controlAspects s p = some aspects) :
    (inbound c s r raw receivingInterface).1.outbound = [] := by
  have hignored : ignoredAnnounce s p = false := by
    simp [ignoredAnnounce, htype]
  rw [inbound_eq hread, hignored, hcontrol]
  cases (admitPacket s r p).1 <;> rfl

/-- A frame that is queued was read, and is past the control destinations, the filter and the
packet cache. -/
theorem passed_of_outbound {raw : Bytes}
    (hunpack : (Wire.Packet.holding raw receivingInterface).unpack c = some p)
    (hdest : p.destinationHash = some destinationHash) (htype : p.packetType ≠ Wire.announce)
    (hsent : (inbound c s r raw receivingInterface).1.outbound ≠ []) :
    readFrame c raw receivingInterface = some p ∧ controlAspects s p = none ∧
      packetFilter s p = true ∧ cachedPacket c s p = none ∧
      (inbound c s r raw receivingInterface).1.outbound =
        queued c s r (hopped p) destinationHash := by
  have hread := readFrame_of_unpack hunpack
  split at hread
  · refine absurd ?_ hsent
    unfold inbound
    rw [hread]
    rfl
  · cases hcontrol : controlAspects s p with
    | some aspects => exact absurd (outbound_of_control hread htype hcontrol) hsent
    | none =>
        have hout := outbound_of_readFrame (s := s) (r := r) hread hdest htype hcontrol
        split at hout
        · rename_i hpassed
          exact ⟨hread, rfl, hpassed.1, hpassed.2, hout⟩
        · exact absurd hout hsent

end Blocks

end Reticulum.Transport
