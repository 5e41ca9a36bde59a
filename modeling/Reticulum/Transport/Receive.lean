import Reticulum.Transport.Blocks
import Reticulum.Transport.Jobs

/-!
# A frame and its handlers

`Transport::inbound` with the handlers of the two control destinations, and what
each part of it can change. A packet that is forwarded or delivered changes the
hash list, the link table, the reverse table and the times of routes; an announce
changes what is known of its destination; a path request changes the announce
table and the requests; a tunnel changes routes and tunnels.
-/

namespace Reticulum.Transport

/-- What a node makes of a frame: its new state, how the call goes on, and what the
handler of a control packet sends. -/
def receive (c : Crypto) (n : Instance) (call : Call) (raw : Bytes)
    (receivingInterface : Option String) : Instance × Outcome × Answer :=
  let (outcome, s) := inbound c n.toTransportState call.reading raw receivingInterface
  let n := { n with toTransportState := s }
  match outcome with
  | .control aspects p =>
      if aspects = ["path", "request"] then
        let (n, answer) := pathRequestHandler c n call p
        (n, outcome, answer)
      else if aspects = ["tunnel", "synthesize"] then
        (tunnelSynthesizeHandler c n call p, outcome, .none)
      else (n, outcome, .none)
  | _ => (n, outcome, .none)

/-- A frame that comes in, and what the call reads. -/
structure Incoming where
  call : Call
  raw : Bytes
  receivingInterface : Option String

/-- The node after these frames, one after the other. -/
def Instance.after (c : Crypto) (n : Instance) (frames : List Incoming) : Instance :=
  frames.foldl (fun n frame => (receive c n frame.call frame.raw frame.receivingInterface).1) n

/-- What a call hands to the links of this node. -/
def Outcome.linkPackets : Outcome → List Wire.Packet
  | .processed effects => effects.linkPackets
  | _ => []

/-- What a frame says that is read: a destination and a hash. -/
theorem fields_of_readFrame {c : Crypto} {p : Wire.Packet} {raw : Bytes}
    {receivingInterface : Option String} (hread : readFrame c raw receivingInterface = some p) :
    (∃ hash, p.destinationHash = some hash) ∧ ∃ hash, p.packetHash = some hash := by
  unfold readFrame at hread
  split at hread
  · cases hread
  · obtain ⟨f, -, rfl⟩ := Wire.Frame.unpack_eq_some_iff.mp hread
    exact ⟨⟨_, rfl⟩, ⟨_, rfl⟩⟩

/-- A frame that is read came from the interface it came from. -/
theorem receivingInterface_of_readFrame {c : Crypto} {p : Wire.Packet} {raw : Bytes}
    {receivingInterface : Option String} (hread : readFrame c raw receivingInterface = some p) :
    p.receivingInterface = receivingInterface := by
  unfold readFrame at hread
  split at hread
  · cases hread
  · obtain ⟨f, -, rfl⟩ := Wire.Frame.unpack_eq_some_iff.mp hread
    rfl

/-- The hash list grows. -/
theorem rememberPacketHash_grows (s : TransportState) (p : Wire.Packet) :
    ∃ hashlist, s.packetHashlist ⊆ hashlist ∧
      rememberPacketHash s p = { s with packetHashlist := hashlist } := by
  unfold rememberPacketHash
  split
  · exact ⟨_, List.Subset.refl _, rfl⟩
  · split
    · exact ⟨_, List.Subset.refl _, rfl⟩
    · split
      · exact ⟨_, List.Subset.refl _, rfl⟩
      · exact ⟨_, fun _ h => List.mem_insert_of_mem h, rfl⟩

/-- A packet that is not an announce was forwarded or delivered. -/
def Forwarded (s s' : TransportState) : Prop :=
  ∃ hashlist linkTable reverseTable pathTable,
    s' = { s with
      packetHashlist := hashlist, linkTable := linkTable, reverseTable := reverseTable
      pathTable := pathTable } ∧
    s.packetHashlist ⊆ hashlist ∧ untimedTable pathTable = untimedTable s.pathTable

namespace Forwarded

variable {c : Crypto} {s s' s'' : TransportState} {r : Reading} {p : Wire.Packet}

theorem refl : Forwarded s s := ⟨_, _, _, _, rfl, List.Subset.refl _, rfl⟩

theorem trans (h : Forwarded s s') (h' : Forwarded s' s'') : Forwarded s s'' := by
  obtain ⟨_, _, _, _, rfl, hsub, hpaths⟩ := h
  obtain ⟨hashlist, linkTable, reverseTable, pathTable, rfl, hsub', hpaths'⟩ := h'
  exact ⟨hashlist, linkTable, reverseTable, pathTable, rfl, fun _ h => hsub' (hsub h),
    hpaths'.trans hpaths⟩

theorem rememberPacketHash : Forwarded s (rememberPacketHash s p) := by
  obtain ⟨hashlist, hsub, heq⟩ := rememberPacketHash_grows s p
  rw [heq]
  exact ⟨_, _, _, _, rfl, hsub, rfl⟩

theorem transit : Forwarded s (transit c s r p).1 := by
  unfold Transport.transit
  split
  swap
  · exact refl
  split
  · exact refl
  rename_i destinationHash _
  dsimp only
  split
  swap
  · exact refl
  have hsame := @sameRoutes_noteTransit c s r p destinationHash
    (transitRoute s r p destinationHash).1 (transitRoute s r p destinationHash).2.1
    (transitRoute s r p destinationHash).2.2
  exact ⟨_, _, _, _, rfl, List.Subset.refl _, hsame.paths⟩

theorem relayLink : Forwarded s (relayLink s r p).1 := by
  have hinsert : s.packetHashlist ⊆ insertHash s.packetHashlist p.packetHash := by
    cases p.packetHash with
    | none => exact List.Subset.refl _
    | some hash => exact fun _ h => List.mem_insert_of_mem h
  unfold Transport.relayLink
  split
  · split
    · exact refl
    · split
      · exact ⟨_, _, _, _, rfl, hinsert, rfl⟩
      · exact refl
  · exact refl

theorem handleData : Forwarded s (handleData s r p).1 := by
  obtain ⟨pathTable, htable⟩ : ∃ pathTable,
      (Transport.handleData s r p).1 = { s with pathTable := pathTable } := by
    unfold Transport.handleData
    repeat' split
    all_goals exact ⟨_, rfl⟩
  cases hdest : p.destinationHash with
  | none =>
      have hsame : (Transport.handleData s r p).1 = s := by
        unfold Transport.handleData
        simp only [hdest]
        repeat' split
        all_goals rfl
      rw [hsame]
      exact refl
  | some destinationHash =>
      have hpaths := (handleData_spec (s := s) (r := r) hdest).2.paths
      rw [htable] at hpaths ⊢
      exact ⟨_, _, _, _, rfl, List.Subset.refl _, hpaths⟩

theorem handleProof : Forwarded s (handleProof c s r p).1 := by
  have hproof : Forwarded s (relayLrproof c s p).1 := by
    unfold relayLrproof
    repeat' split
    all_goals exact ⟨_, _, _, _, rfl, List.Subset.refl _, rfl⟩
  have hreturn : Forwarded s (returnProof s r p).1 := by
    unfold returnProof
    repeat' split
    all_goals exact ⟨_, _, _, _, rfl, List.Subset.refl _, rfl⟩
  unfold Transport.handleProof
  split
  · split
    · dsimp only
      split
      · exact hproof
      · exact refl
    · exact hreturn
  · exact refl

/-- Any packet that is not an announce. -/
theorem inboundPacket : Forwarded s (inboundPacket c s r p).2 := by
  unfold Transport.inboundPacket
  exact rememberPacketHash.trans (transit.trans (relayLink.trans (handleData.trans handleProof)))

end Forwarded

/-- The times of the interfaces and the counts of announces were noted. -/
def Noted (s s' : TransportState) : Prop :=
  ∃ interfaces clients rates,
    s' = { s with
      interfaces := interfaces, localClientInterfaces := clients, announceRateTable := rates } ∧
    interfaces.map InterfaceStub.untimed = s.interfaces.map InterfaceStub.untimed ∧
    clients.map InterfaceStub.untimed = s.localClientInterfaces.map InterfaceStub.untimed

/-- Nothing is left to be done by this call. -/
def Outcome.isQuiet : Outcome → Bool
  | .processed _ => false
  | _ => true

section Cases

variable {c : Crypto} {s : TransportState} {r : Reading} {p : Wire.Packet} {raw : Bytes}
  {receivingInterface : Option String}

theorem noted_noteInbound (receivingInterface : Option String) :
    Noted s (noteInbound s r receivingInterface) := by
  have hmodify : ∀ (interfaces : List InterfaceStub) (k : Nat),
      (interfaces.modify k fun i => { i with lastInboundAt := r.now }).map InterfaceStub.untimed =
        interfaces.map InterfaceStub.untimed := by
    intro interfaces k
    apply List.ext_getElem
    · simp
    · intro k h₁ h₂
      simp only [List.getElem_map, List.getElem_modify]
      split <;> rfl
  refine ⟨_, _, _, rfl, ?_, ?_⟩
  · dsimp only
    split
    · rfl
    · exact hmodify _ _
  · dsimp only
    split
    · rfl
    · exact hmodify _ _

theorem noted_admitted : Noted s (admitted s r p) := by
  obtain ⟨table, heq⟩ := admitted_eq s r p
  obtain ⟨interfaces, clients, rates, hnote, hinterfaces, hclients⟩ :=
    noted_noteInbound (s := s) (r := r) p.receivingInterface
  rw [heq, hnote]
  exact ⟨interfaces, clients, table, rfl, hinterfaces, hclients⟩

/-- What `inbound` makes of a frame: it is let go, left to a handler, or processed as an
announce or as any other packet. -/
theorem inbound_cases (c : Crypto) (s : TransportState) (r : Reading) (raw : Bytes)
    (receivingInterface : Option String) :
    ((inbound c s r raw receivingInterface).1.isQuiet = true ∧
      Noted s (inbound c s r raw receivingInterface).2) ∨
    ∃ p, readFrame c raw receivingInterface = some p ∧
      ((p.packetType = Wire.announce ∧ inbound c s r raw receivingInterface =
        (.processed (inboundAnnounce c (admitted s r p) r (hopped p)).1,
          (inboundAnnounce c (admitted s r p) r (hopped p)).2)) ∨
      (p.packetType ≠ Wire.announce ∧ inbound c s r raw receivingInterface =
        (.processed (inboundPacket c (admitted s r p) r (hopped p)).1,
          (inboundPacket c (admitted s r p) r (hopped p)).2))) := by
  cases hread : readFrame c raw receivingInterface with
  | none =>
      left
      unfold inbound
      rw [hread]
      exact ⟨rfl, _, _, _, rfl, rfl, rfl⟩
  | some p =>
      rw [inbound_eq hread]
      split
      · exact .inl ⟨rfl, noted_noteInbound _⟩
      split
      · exact .inl ⟨rfl, noted_admitted⟩
      split
      · exact .inl ⟨rfl, noted_admitted⟩
      split
      · exact .inl ⟨rfl, noted_admitted⟩
      right
      refine ⟨p, rfl, ?_⟩
      by_cases htype : p.packetType = Wire.announce
      · rw [if_pos htype]
        exact .inl ⟨htype, rfl⟩
      · rw [if_neg htype]
        exact .inr ⟨htype, rfl⟩

/-- A control packet that `inbound` hands to its handler. -/
theorem exists_of_control {aspects : List String} {q : Wire.Packet}
    (h : (inbound c s r raw receivingInterface).1 = .control aspects q) :
    ∃ p, readFrame c raw receivingInterface = some p ∧ ignoredAnnounce s p = false ∧
      (admitPacket s r p).1 = true ∧ controlAspects s p = some aspects ∧ q = hopped p := by
  cases hread : readFrame c raw receivingInterface with
  | none =>
      unfold inbound at h
      rw [hread] at h
      cases h
  | some p =>
      rw [inbound_eq hread] at h
      split at h
      · cases h
      rename_i hconsidered
      split at h
      · cases h
      rename_i hpasses
      split at h
      · rename_i found hcontrol
        cases h
        exact ⟨p, rfl, by simpa using hconsidered, by simpa using hpasses, hcontrol, rfl⟩
      · split at h <;> cases h

/-- A packet that is processed is not for a control destination. -/
theorem controlAspects_of_processed {effects : Effects}
    (hread : readFrame c raw receivingInterface = some p)
    (h : (inbound c s r raw receivingInterface).1 = .processed effects) :
    controlAspects s p = none := by
  rw [inbound_eq hread] at h
  split at h
  · cases h
  split at h
  · cases h
  split at h
  · cases h
  · assumption

/-- A packet that is processed has passed the filter, and is neither for a control destination nor
a request for the cache. -/
theorem passes_of_processed {effects : Effects}
    (hread : readFrame c raw receivingInterface = some p) (htype : p.packetType ≠ Wire.announce)
    (h : (inbound c s r raw receivingInterface).1 = .processed effects) :
    packetFilter s p = true ∧ controlAspects s p = none ∧ cachedPacket c s p = none := by
  have hcontrol := controlAspects_of_processed hread h
  rw [inbound_eq hread, hcontrol] at h
  split at h
  · cases h
  split at h
  · cases h
  rename_i hpass
  refine ⟨?_, hcontrol, ?_⟩
  · by_contra hfilter
    apply hpass
    unfold admitPacket
    rw [if_neg hfilter]
  · cases hcached : cachedPacket c s p with
    | none => rfl
    | some entry =>
        rw [hcached] at h
        cases h

/-- What an announce changes before it is processed, and whether it is. -/
theorem inboundAnnounce_cases (c : Crypto) (s : TransportState) (r : Reading) (p : Wire.Packet) :
    ∃ validated known ratchets hashlist, s.packetHashlist ⊆ hashlist ∧
      let t := { s with
        validatedAnnounceHashes := validated, knownDestinations := known
        knownRatchets := ratchets, packetHashlist := hashlist }
      (announceShouldAdd c s p = true ∧ (inboundAnnounce c s r p).2 = (processAnnounce t r p).1 ∧
        (inboundAnnounce c s r p).1.outbound = (processAnnounce t r p).2) ∨
      (announceShouldAdd c s p = false ∧ (inboundAnnounce c s r p).2 = t ∧
        (inboundAnnounce c s r p).1.outbound = []) := by
  obtain ⟨validated, hnote⟩ : ∃ validated,
      noteValidated c s p = { s with validatedAnnounceHashes := validated } := by
    unfold noteValidated
    split <;> exact ⟨_, rfl⟩
  obtain ⟨known, ratchets, hremember⟩ := rememberAnnounce_eq c (noteValidated c s p) r p
  unfold inboundAnnounce
  dsimp only
  cases hadd : announceShouldAdd c s p with
  | true =>
      obtain ⟨hashlist, hsub, hhash⟩ := rememberPacketHash_grows
        (rememberAnnounce c (noteValidated c s p) r p) p
      refine ⟨validated, known, ratchets, hashlist, ?_, .inl ⟨rfl, ?_⟩⟩
      · rw [hremember, hnote] at hsub
        exact hsub
      · rw [if_pos rfl, hhash, hremember, hnote]
        exact ⟨rfl, rfl⟩
  | false =>
      obtain ⟨hashlist, hsub, hhash⟩ := rememberPacketHash_grows (noteValidated c s p) p
      refine ⟨validated, s.knownDestinations, s.knownRatchets, hashlist, ?_, .inr ⟨rfl, ?_⟩⟩
      · rw [hnote] at hsub
        exact hsub
      · rw [if_neg (by simp), hhash, hnote]
        exact ⟨rfl, rfl⟩

/-- A node that receives a frame takes it in, and runs the handler of a control packet. -/
theorem receive_cases (c : Crypto) (n : Instance) (call : Call) (raw : Bytes)
    (receivingInterface : Option String) :
    let result := inbound c n.toTransportState call.reading raw receivingInterface
    let m := { n with toTransportState := result.2 }
    (receive c n call raw receivingInterface).2.1 = result.1 ∧
      ((receive c n call raw receivingInterface).1 = m ∨
      (∃ p, result.1 = .control ["path", "request"] p ∧
        (receive c n call raw receivingInterface).1 = (pathRequestHandler c m call p).1) ∨
      ∃ p, result.1 = .control ["tunnel", "synthesize"] p ∧
        (receive c n call raw receivingInterface).1 = tunnelSynthesizeHandler c m call p) := by
  dsimp only
  unfold receive
  dsimp only
  split
  · rename_i aspects p houtcome
    split
    · rename_i haspects
      subst haspects
      exact ⟨rfl, .inr (.inl ⟨p, houtcome, rfl⟩)⟩
    · split
      · rename_i haspects
        subst haspects
        exact ⟨rfl, .inr (.inr ⟨p, houtcome, rfl⟩)⟩
      · exact ⟨rfl, .inl rfl⟩
  · exact ⟨rfl, .inl rfl⟩

end Cases

end Reticulum.Transport
