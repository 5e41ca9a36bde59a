import Reticulum.Link.Rejection
import Reticulum.Transport.Receive

/-!
# A link frame that comes again

The filter of `Transport::inbound` refuses a packet whose hash is remembered, but
the hash of a packet for a link is remembered by the link relay alone
(`src/transport.rs`). So a frame for a link of this node is handed to the link as
often as it comes, unless its hash is known from elsewhere or the relay takes it
as well (`replaySafe_iff`).
-/

namespace Reticulum.Transport

/-- What the filter goes by is kept, and the identity: no hash is forgotten. -/
structure Remembers (s s' : TransportState) : Prop where
  hashes : s.packetHashlist ⊆ s'.packetHashlist
  previous : s'.packetHashlistPrev = s.packetHashlistPrev
  control : s'.controlHashes = s.controlHashes
  shared : s'.isConnectedToSharedInstance = s.isConnectedToSharedInstance
  identity : s'.identityHash = s.identityHash

namespace Remembers

variable {c : Crypto} {s s' s'' : TransportState} {r : Reading} {p : Wire.Packet}

theorem refl : Remembers s s := ⟨List.Subset.refl _, rfl, rfl, rfl, rfl⟩

theorem trans (h : Remembers s s') (h' : Remembers s' s'') : Remembers s s'' where
  hashes := fun _ hmem => h'.hashes (h.hashes hmem)
  previous := h'.previous.trans h.previous
  control := h'.control.trans h.control
  shared := h'.shared.trans h.shared
  identity := h'.identity.trans h.identity

theorem of_noted (h : Noted s s') : Remembers s s' := by
  obtain ⟨_, _, _, rfl, -, -⟩ := h
  exact ⟨List.Subset.refl _, rfl, rfl, rfl, rfl⟩

theorem of_forwarded (h : Forwarded s s') : Remembers s s' := by
  obtain ⟨_, _, _, _, rfl, hsub, -⟩ := h
  exact ⟨hsub, rfl, rfl, rfl, rfl⟩

theorem processAnnounce : Remembers s (processAnnounce s r p).1 := by
  obtain ⟨table, ⟨-, heq⟩ | ⟨hash, requests, pacing, pending, -, heq⟩⟩ :=
    processAnnounce_cases s r p <;>
  · rw [heq]
    exact ⟨List.Subset.refl _, rfl, rfl, rfl, rfl⟩

theorem inboundAnnounce : Remembers s (inboundAnnounce c s r p).2 := by
  obtain ⟨validated, known, ratchets, hashlist, hsub, ⟨-, heq, -⟩ | ⟨-, heq, -⟩⟩ :=
    inboundAnnounce_cases c s r p
  · rw [heq]
    refine trans ?_ processAnnounce
    exact ⟨hsub, rfl, rfl, rfl, rfl⟩
  · rw [heq]
    exact ⟨hsub, rfl, rfl, rfl, rfl⟩

theorem inbound (raw : Bytes) (receivingInterface : Option String) :
    Remembers s (inbound c s r raw receivingInterface).2 := by
  obtain ⟨-, hnoted⟩ | ⟨p, -, ⟨-, heq⟩ | ⟨-, heq⟩⟩ :=
    inbound_cases c s r raw receivingInterface
  · exact of_noted hnoted
  · rw [heq]
    exact (of_noted noted_admitted).trans inboundAnnounce
  · rw [heq]
    exact (of_noted noted_admitted).trans (of_forwarded .inboundPacket)

/-- No frame makes a node forget a hash, whatever its handler does. -/
theorem receive (n : Instance) (call : Call) (raw : Bytes) (receivingInterface : Option String) :
    Remembers n.toTransportState (receive c n call raw receivingInterface).1.toTransportState := by
  have hinbound := inbound (c := c) (s := n.toTransportState) (r := call.reading) raw
    receivingInterface
  obtain ⟨-, heq | ⟨p, -, heq⟩ | ⟨p, -, heq⟩⟩ := receive_cases c n call raw receivingInterface
  · rw [heq]
    exact hinbound
  · rw [heq]
    obtain ⟨_, hstate⟩ := pathRequestHandler_state c
      { n with
        toTransportState := (Transport.inbound c n.toTransportState call.reading raw
          receivingInterface).2 } call p
    rw [hstate]
    exact hinbound.trans ⟨List.Subset.refl _, rfl, rfl, rfl, rfl⟩
  · rw [heq]
    unfold tunnelSynthesizeHandler
    split
    · exact hinbound
    · rename_i tunnelId interface _
      obtain ⟨_, _, _, _, hstate⟩ := handleTunnel_eq
        (Transport.inbound c n.toTransportState call.reading raw receivingInterface).2
        call.reading tunnelId interface call.tunnelPaths
      dsimp only
      rw [hstate]
      exact hinbound.trans ⟨List.Subset.refl _, rfl, rfl, rfl, rfl⟩

theorem after (n : Instance) (frames : List Incoming) :
    Remembers n.toTransportState (n.after c frames).toTransportState := by
  induction frames generalizing n with
  | nil => exact refl
  | cons frame frames ih => exact (receive n frame.call frame.raw _).trans (ih _)

end Remembers

/-- What a node hands to its links for a frame. -/
def delivered (c : Crypto) (n : Instance) (frame : Incoming) : List Wire.Packet :=
  (receive c n frame.call frame.raw frame.receivingInterface).2.1.linkPackets

/-- A frame that comes again is not handed to a link the second time, whatever comes in
between and wherever it comes from. -/
def ReplaySafe (c : Crypto) (n : Instance) (frame : Incoming) : Prop :=
  ∀ (between : List Incoming) (again : Incoming), again.raw = frame.raw →
    delivered c (n.after c (frame :: between)) again = []

/-- A packet for a link: data, or the proof of a packet, in a context that the filter does
not exempt. -/
structure LinkPacket (p : Wire.Packet) : Prop where
  link : p.destinationType = some .link
  context : exemptContext p.context = false
  type : p.packetType = Wire.data ∨ (p.packetType = Wire.proof ∧ p.context ≠ Wire.lrproof)

/-- The hash of a packet is remembered. -/
def HashKnown (s : TransportState) (p : Wire.Packet) : Prop :=
  ∃ hash, p.packetHash = some hash ∧
    (hash ∈ s.packetHashlist ∨ hash ∈ s.packetHashlistPrev)

/-- The link relay passes a packet on, and so remembers its hash. -/
def RelayTakes (s : TransportState) (p : Wire.Packet) : Prop :=
  p.context ≠ Wire.lrproof ∧
    ∃ linkId, p.destinationHash = some linkId ∧ (linkVia s p linkId).isSome

section Replay

variable {c : Crypto} {s : TransportState} {n : Instance} {r : Reading} {p : Wire.Packet}
  {frame : Incoming}

section

variable (hp : LinkPacket p)

include hp

/-- The filter refuses a packet for a link exactly when its hash is remembered. -/
theorem packetFilter_of_linkPacket (hhash : p.packetHash.isSome) :
    packetFilter s p = false ↔ s.isConnectedToSharedInstance = false ∧ HashKnown s p := by
  obtain ⟨hash, hhash⟩ := Option.isSome_iff_exists.mp hhash
  have htype : p.packetType ≠ Wire.announce := by
    rcases hp.type with htype | ⟨htype, -⟩ <;>
    · rw [htype]
      decide
  unfold packetFilter HashKnown
  cases s.isConnectedToSharedInstance <;>
    simp [hp.link, hp.context, hhash, htype, or_iff_not_imp_left]

/-- A packet for a link that is processed is handed to the link. -/
theorem linkPackets_inboundPacket :
    (inboundPacket c s r p).1.linkPackets ≠ [] := by
  obtain ⟨transportId, hq⟩ := injectTransportId_eq (rememberPacketHash s p) p
  unfold inboundPacket
  dsimp only
  rw [hq]
  rcases hp.type with htype | ⟨htype, hcontext⟩
  · simp [handleData, htype, hp.link]
  · have hne : Wire.proof ≠ Wire.data := by decide
    simp [handleData, handleProof, htype, hp.link, hcontext, hne]

/-- A packet for a link is neither an announce nor a link request. -/
theorem LinkPacket.type_ne :
    p.packetType ≠ Wire.announce ∧ p.packetType ≠ Wire.linkRequest := by
  rcases hp.type with htype | ⟨htype, -⟩ <;>
  · rw [htype]
    decide

/-- What comes after the link relay changes nothing for a packet for a link. -/
theorem handled_of_linkPacket :
    (handleProof c (handleData s r p).1 r p).1 = s := by
  rcases hp.type with hdata | ⟨hproof, hcontext⟩
  · have hne : Wire.data ≠ Wire.proof := by decide
    simp [handleData, handleProof, hdata, hp.link, hne]
  · have hne : Wire.proof ≠ Wire.data := by decide
    simp [handleData, handleProof, hproof, hcontext, hp.link, hne]

/-- The link relay remembers the hash of what it takes. -/
theorem hashlist_relayLink :
    (RelayTakes s p → (relayLink s r p).1.packetHashlist =
        insertHash s.packetHashlist p.packetHash) ∧
      (¬ RelayTakes s p → (relayLink s r p).1.packetHashlist = s.packetHashlist) := by
  unfold relayLink RelayTakes linkVia
  by_cases hcontext : p.context = Wire.lrproof
  · simp [hcontext]
  simp only [hp.type_ne.1, hp.type_ne.2, hcontext, ne_eq, not_false_eq_true, and_self, if_true,
    true_and]
  cases p.destinationHash with
  | none => simp
  | some linkId =>
      simp only [Option.some.injEq, exists_eq_left']
      cases s.linkTable linkId with
      | none => simp
      | some entry =>
          simp only [Option.bind_some]
          cases relayInterface entry p <;> simp

/-- The link relay alone remembers the hash of a packet for a link. -/
theorem hashlist_inboundPacket {linkId : Bytes} (hdest : p.destinationHash = some linkId) :
    (RelayTakes s p → (inboundPacket c s r p).2.packetHashlist =
        insertHash s.packetHashlist p.packetHash) ∧
      (¬ RelayTakes s p → (inboundPacket c s r p).2.packetHashlist = s.packetHashlist) := by
  have hremember : rememberPacketHash s p = s := by
    simp [rememberPacketHash, hp.link]
  obtain ⟨transportId, hq⟩ := injectTransportId_eq s p
  have hq' : LinkPacket (injectTransportId s p) := by
    rw [hq]
    exact ⟨hp.link, hp.context, hp.type⟩
  have hlast : (inboundPacket c s r p).2 =
      (relayLink (transit c s r (injectTransportId s p)).1 r (injectTransportId s p)).1 := by
    unfold inboundPacket
    dsimp only
    rw [hremember]
    exact handled_of_linkPacket hq'
  -- Transit forwarding comes first and touches neither the link table nor the hashes.
  have hlink := transit_linkTable (c := c) (s := s) (r := r) hdest hp.type_ne.1 hp.type_ne.2
  have hhashes : (transit c s r (injectTransportId s p)).1.packetHashlist = s.packetHashlist := by
    rw [transit_inject hdest hp.type_ne.1]
    split <;> rfl
  have htakes : RelayTakes (transit c s r (injectTransportId s p)).1 (injectTransportId s p) ↔
      RelayTakes s p := by
    unfold RelayTakes linkVia
    rw [hlink, hq]
    rfl
  have hhash : (injectTransportId s p).packetHash = p.packetHash := by rw [hq]
  have hrelay := hashlist_relayLink (s := (transit c s r (injectTransportId s p)).1) (r := r) hq'
  rw [htakes, hhashes, hhash] at hrelay
  rw [hlast]
  exact hrelay

end

/-- The same bytes from another interface are the same packet. -/
theorem readFrame_interface {raw : Bytes} {receivingInterface : Option String}
    (hread : readFrame c raw receivingInterface = some p) (other : Option String) :
    readFrame c raw other = some { p with receivingInterface := other } := by
  unfold readFrame at hread ⊢
  split at hread
  · cases hread
  · rename_i hflags
    rw [if_neg hflags]
    obtain ⟨f, hraw, rfl⟩ := Wire.Frame.unpack_eq_some_iff.mp hread
    exact Wire.Frame.unpack_encode hraw

theorem controlAspects_eq_none_iff :
    controlAspects s p = none ↔ ∀ hash ∈ p.destinationHash, hash ∉ s.controlHashes := by
  unfold controlAspects
  cases p.destinationHash with
  | none => simp
  | some hash =>
      simp only [Option.bind_some, List.contains_iff_mem, Option.mem_some_iff, forall_eq']
      split
      · rename_i hmem
        simp only [hmem, not_true_eq_false, iff_false]
        split <;> simp
      · rename_i hmem
        simp [hmem]

/-- A frame for a link that is not stopped is processed. -/
theorem receive_of_passed (hread : readFrame c frame.raw frame.receivingInterface = some p)
    (hp : LinkPacket p) (hcontrol : controlAspects n.toTransportState p = none)
    (hfilter : packetFilter n.toTransportState p = true) :
    delivered c n frame ≠ [] ∧
      (receive c n frame.call frame.raw frame.receivingInterface).1.toTransportState =
        (inboundPacket c (admitted n.toTransportState frame.call.reading p) frame.call.reading
          (hopped p)).2 := by
  have hcontext : p.context ≠ Wire.cacheRequest := by
    intro h
    have hexempt := hp.context
    rw [h] at hexempt
    exact absurd hexempt (by decide)
  have hcached : cachedPacket c n.toTransportState p = none := by
    simp [cachedPacket, hcontext]
  have hinbound := inbound_of_passed (r := frame.call.reading) hread hp.type_ne.1 hcontrol hfilter
    hcached
  unfold delivered receive
  rw [hinbound]
  exact ⟨linkPackets_inboundPacket (p := hopped p) ⟨hp.link, hp.context, hp.type⟩, rfl⟩

/-- A frame for a link is not delivered when it is for a control destination or the filter
refuses it. -/
theorem delivered_of_stopped
    (hread : readFrame c frame.raw frame.receivingInterface = some p) (hp : LinkPacket p)
    (hstop : controlAspects n.toTransportState p ≠ none ∨
      packetFilter n.toTransportState p = false) :
    delivered c n frame = [] := by
  have hignored : ignoredAnnounce n.toTransportState p = false := by
    simp [ignoredAnnounce, hp.type_ne.1]
  unfold delivered
  rw [(receive_cases c n frame.call frame.raw frame.receivingInterface).1, inbound_eq hread,
    if_neg (by simp [hignored])]
  split
  · rfl
  · rename_i hpass
    have hcontrol : controlAspects n.toTransportState p ≠ none := by
      refine hstop.resolve_right fun hfilter => hpass ?_
      simp [admitPacket, hfilter]
    obtain ⟨aspects, hsome⟩ := Option.ne_none_iff_exists'.mp hcontrol
    rw [hsome]
    rfl

theorem HashKnown.mono {s' : TransportState} (h : Remembers s s') (hknown : HashKnown s p) :
    HashKnown s' p := by
  obtain ⟨hash, hhash, hmem⟩ := hknown
  refine ⟨hash, hhash, hmem.imp (fun hmem => h.hashes hmem) fun hmem => ?_⟩
  rw [h.previous]
  exact hmem

section

variable (hread : readFrame c frame.raw frame.receivingInterface = some p)

include hread

/-- After a frame for a link that was processed, its hash is remembered exactly when it was
before or the link relay took it. -/
theorem hashKnown_receive (hp : LinkPacket p)
    (hcontrol : controlAspects n.toTransportState p = none)
    (hfilter : packetFilter n.toTransportState p = true) :
    HashKnown (receive c n frame.call frame.raw frame.receivingInterface).1.toTransportState p ↔
      HashKnown n.toTransportState p ∨ RelayTakes n.toTransportState (hopped p) := by
  obtain ⟨⟨linkId, hdest⟩, hash, hhash⟩ := fields_of_readFrame hread
  have hkeeps := Remembers.receive (c := c) n frame.call frame.raw frame.receivingInterface
  obtain ⟨-, hstate⟩ := receive_of_passed hread hp hcontrol hfilter
  have hq : LinkPacket (hopped p) := ⟨hp.link, hp.context, hp.type⟩
  have hlist := hashlist_inboundPacket (c := c)
    (s := admitted n.toTransportState frame.call.reading p) (r := frame.call.reading) hq hdest
  rw [← hstate] at hlist
  obtain ⟨_, _, _, hadmitted, -, -⟩ := noted_admitted (s := n.toTransportState)
    (r := frame.call.reading) (p := p)
  rw [hadmitted] at hlist
  have hprevious := hkeeps.previous
  by_cases htakes : RelayTakes n.toTransportState (hopped p)
  · have hmem := hlist.1 htakes
    simp only [htakes, or_true, iff_true]
    refine ⟨hash, hhash, .inl ?_⟩
    rw [hmem]
    change hash ∈ insertHash n.packetHashlist p.packetHash
    rw [hhash]
    exact List.mem_insert_self
  · have hsame := hlist.2 htakes
    simp only [htakes, or_false]
    unfold HashKnown
    rw [hsame, hprevious]

/-- A frame that passes once and whose hash is not remembered passes again. -/
theorem not_replaySafe (hp : LinkPacket p)
    (hcontrol : controlAspects n.toTransportState p = none)
    (hforgets : n.isConnectedToSharedInstance = true ∨
      (¬ HashKnown n.toTransportState p ∧ ¬ RelayTakes n.toTransportState (hopped p))) :
    ¬ ReplaySafe c n frame := by
  obtain ⟨-, hash, hhash⟩ := fields_of_readFrame hread
  have hsome : p.packetHash.isSome := by rw [hhash]; rfl
  have hkeeps := Remembers.receive (c := c) n frame.call frame.raw frame.receivingInterface
  intro hsafe
  have hagain := hsafe [] frame rfl
  refine (receive_of_passed (n := n.after c [frame]) hread hp ?_ ?_).1 hagain
  · rw [controlAspects_eq_none_iff] at hcontrol ⊢
    rw [show (n.after c [frame]).controlHashes = n.controlHashes from hkeeps.control]
    exact hcontrol
  · rw [← Bool.not_eq_false, packetFilter_of_linkPacket hp hsome]
    rintro ⟨hshared, hknown⟩
    have hshared' : n.isConnectedToSharedInstance = false := hkeeps.shared.symm.trans hshared
    obtain ⟨hbefore, htakes⟩ := hforgets.resolve_left (by simp [hshared'])
    cases hfilter : packetFilter n.toTransportState p with
    | false => exact hbefore ((packetFilter_of_linkPacket hp hsome).mp hfilter).2
    | true =>
        obtain hsame | htaken := (hashKnown_receive hread hp hcontrol hfilter).mp hknown
        · exact hbefore hsame
        · exact htakes htaken

/-- A frame whose hash is remembered, or that the link relay takes, is stopped from then
on. -/
theorem replaySafe_of_known (hp : LinkPacket p)
    (hcond : controlAspects n.toTransportState p ≠ none ∨
      (n.isConnectedToSharedInstance = false ∧
        (HashKnown n.toTransportState p ∨ RelayTakes n.toTransportState (hopped p)))) :
    ReplaySafe c n frame := by
  obtain ⟨-, hash, hhash⟩ := fields_of_readFrame hread
  have hsome : p.packetHash.isSome := by rw [hhash]; rfl
  intro between again hraw
  have hkeeps := Remembers.after (c := c) n (frame :: between)
  have hread' : readFrame c again.raw again.receivingInterface =
      some { p with receivingInterface := again.receivingInterface } := by
    rw [hraw]
    exact readFrame_interface hread _
  refine delivered_of_stopped hread' ⟨hp.link, hp.context, hp.type⟩ ?_
  by_cases hcontrol : controlAspects n.toTransportState p = none
  swap
  · left
    intro hnone
    apply hcontrol
    rw [controlAspects_eq_none_iff] at hnone ⊢
    rw [hkeeps.control] at hnone
    exact hnone
  · right
    obtain ⟨hshared, hknown⟩ := hcond.resolve_left (not_not.mpr hcontrol)
    refine (packetFilter_of_linkPacket
      (p := { p with receivingInterface := again.receivingInterface })
      ⟨hp.link, hp.context, hp.type⟩ hsome).mpr ⟨hkeeps.shared.trans hshared, ?_⟩
    change HashKnown _ p
    cases hfilter : packetFilter n.toTransportState p with
    | false =>
        exact HashKnown.mono hkeeps ((packetFilter_of_linkPacket hp hsome).mp hfilter).2
    | true =>
        exact HashKnown.mono (Remembers.after _ between)
          ((hashKnown_receive hread hp hcontrol hfilter).mpr hknown)

end

/-- A frame for a link that comes again is kept from the link exactly when its destination
is a control destination, or the filter is in use and the hash is remembered already or
the link relay takes the frame as well. -/
theorem replaySafe_iff
    (hread : readFrame c frame.raw frame.receivingInterface = some p) (hp : LinkPacket p) :
    ReplaySafe c n frame ↔
      controlAspects n.toTransportState p ≠ none ∨
        (n.isConnectedToSharedInstance = false ∧
          (HashKnown n.toTransportState p ∨ RelayTakes n.toTransportState (hopped p))) := by
  constructor
  · intro hsafe
    by_contra hnot
    rw [not_or, not_not, not_and_or, not_or, Bool.not_eq_false] at hnot
    exact not_replaySafe hread hp hnot.1 hnot.2 hsafe
  · exact replaySafe_of_known hread hp

end Replay

/-- A data frame for the link with the zero id, from the left. -/
def sampleLinkFrame : Incoming :=
  { call := { reading := .zero, randomHash := [], tunnelPaths := [] }
    raw := [0x0C, 0x00] ++ List.replicate 16 0 ++ [0x00, 0x07]
    receivingInterface := some "left" }

/-- The packet of that frame. -/
def sampleLinkPacket : Wire.Packet :=
  let p := Wire.Packet.holding sampleLinkFrame.raw sampleLinkFrame.receivingInterface
  (p.unpack (Link.sampleCrypto [])).getD p

theorem readFrame_sampleLinkFrame :
    readFrame (Link.sampleCrypto []) sampleLinkFrame.raw sampleLinkFrame.receivingInterface =
      some sampleLinkPacket := rfl

theorem linkPacket_sample : LinkPacket sampleLinkPacket := ⟨rfl, by decide, .inl (by decide)⟩

/-- A node that relays the link with the zero id from the left to the right. -/
def sampleLinkRelay : Instance :=
  { Instance.start with
    linkTable := Instance.start.linkTable.insert (List.replicate 16 0)
      { timestamp := 0, nextHopTransport := [], nextHopInterface := some "right"
        remainingHops := 2, receivedInterface := some "left", takenHops := 1
        destinationHash := [], validated := true, proofTimeout := 0 } }

/-- A relay passes a frame of its link on once, and hands it to no link the second time. -/
theorem replaySafe_relay : ReplaySafe (Link.sampleCrypto []) sampleLinkRelay sampleLinkFrame :=
  (replaySafe_iff readFrame_sampleLinkFrame linkPacket_sample).mpr
    (.inr ⟨rfl, .inr ⟨by decide, List.replicate 16 0, rfl, by decide⟩⟩)

/-- At the end of a link every copy of a frame is handed over. -/
theorem replaySafe_false :
    ¬ ∀ (c : Crypto) (n : Instance) (frame : Incoming) (p : Wire.Packet),
      readFrame c frame.raw frame.receivingInterface = some p → LinkPacket p →
      ReplaySafe c n frame := by
  intro hall
  have hsafe := hall _ Instance.start _ _ readFrame_sampleLinkFrame linkPacket_sample
  refine not_replaySafe readFrame_sampleLinkFrame linkPacket_sample rfl (.inr ⟨?_, ?_⟩) hsafe
  · rintro ⟨hash, -, hmem | hmem⟩ <;> cases hmem
  · rintro ⟨-, linkId, -, hvia⟩
    cases hvia

end Reticulum.Transport
