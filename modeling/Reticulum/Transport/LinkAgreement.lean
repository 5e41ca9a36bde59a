import Reticulum.Transport.LinkChain

/-!
# A chain of relays agrees on a link

Each relay of a chain that a link request has travelled counts the hops for
itself, and the counts fit together: what one relay sends is what the next one
expects, for the packets of the link in both directions and for its proof. The
proof is checked at every relay as the initiator checks it.

## Implementation notes

A packet that repeats one the relay has passed on is dropped, and a cache request
is answered from the packet cache; neither goes along the chain (`Passes`).
-/

namespace Reticulum.Transport

open Wire (Frame)

/-- Every relay passes on what it gets from the one before, once and nowhere else. -/
def CarriedDown (c : Crypto) (relays : List Relay) (frames : Nat → Bytes) : Prop :=
  ∀ i x, relays[i]? = some x →
    (x.receive c x.up (frames i)).1.outbound = [(x.down, frames (i + 1))]

/-- Every relay passes back what it gets from the one after, once and nowhere else. -/
def CarriedUp (c : Crypto) (relays : List Relay) (frames : Nat → Bytes) : Prop :=
  ∀ i x, relays[i]? = some x →
    (x.receive c x.down (frames (i + 1))).1.outbound = [(x.up, frames i)]

/-! ## The packets of the link -/

/-- The frame with so many hops. -/
def atHops (f : Frame) (n : Nat) : Bytes := setHops f.encode (UInt8.ofNat n)

/-- Every relay of a chain carries the link, with the hops of its place. -/
def Linked (linkId destinationHash : Bytes) (relays : List Relay) : Prop :=
  ∀ i x, relays[i]? = some x →
    x.Carries linkId destinationHash (relays.length - i) (i + 1) ∧ x.up ≠ x.down ∧ i < 128

section Packets

variable {c : Crypto} {linkId destinationHash : Bytes} {relays : List Relay} {f : Frame}

/-- A frame with other hops, below the limit. -/
theorem exists_withHops (f : Frame) {n : Nat} (h : n < 128) :
    ∃ hlt : UInt8.ofNat n < Wire.pathfinderM,
      atHops f n = (Frames.withHops f (UInt8.ofNat n) hlt).encode ∧
        (UInt8.ofNat n).toNat = n ∧
        setHops (atHops f n) (UInt8.ofNat n + 1) = atHops f (n + 1) := by
  have hnat : (UInt8.ofNat n).toNat = n := by
    rw [UInt8.toNat_ofNat']
    omega
  have hlt : UInt8.ofNat n < Wire.pathfinderM := by
    rw [UInt8.lt_iff_toNat_lt, hnat]
    exact h
  have hsucc : UInt8.ofNat n + 1 = UInt8.ofNat (n + 1) := by
    apply UInt8.toNat_inj.mp
    rw [UInt8.toNat_add, hnat, UInt8.toNat_ofNat', UInt8.toNat_one]
  refine ⟨hlt, rfl, hnat, ?_⟩
  rw [hsucc]
  exact List.set_set ..

theorem LinkFrame.withHops (hf : LinkFrame f linkId) {hops : UInt8} (h : hops < Wire.pathfinderM) :
    LinkFrame (Frames.withHops f hops h) linkId :=
  ⟨hf.destination, hf.link, hf.packetType, hf.context, hf.access⟩

theorem ProofFrame.withHops (hf : ProofFrame f linkId) {hops : UInt8}
    (h : hops < Wire.pathfinderM) : ProofFrame (Frames.withHops f hops h) linkId :=
  ⟨hf.destination, hf.link, hf.packetType, hf.context, hf.access⟩

section

variable (hlinked : Linked linkId destinationHash relays)

include hlinked

/-- A packet of the link goes from the initiator's end to the other. -/
theorem carriedDown_of_linked (hf : LinkFrame f linkId) (hpasses : ∀ x ∈ relays, x.Passes c f) :
    CarriedDown c relays (atHops f) := by
  intro i x hx
  obtain ⟨hcarries, hsides, hi⟩ := hlinked i x hx
  obtain ⟨hlt, hraw, hnat, hnext⟩ := exists_withHops f hi
  rw [← hnext, hraw]
  exact Relay.receive_up hcarries.unclaimed hcarries.entry hsides (hf.withHops hlt)
    (Relay.passes_withHops hf.link hlt (hpasses x (List.mem_of_getElem? hx)))
    (congrArg (· + 1) hnat)

/-- The place of a relay counted from the other end. -/
theorem place_from_end {i : Nat} (hi : i < relays.length) :
    relays.length - (i + 1) < 128 ∧ relays.length - (i + 1) + 1 = relays.length - i := by
  have hlast : relays[relays.length - 1]? = some relays[relays.length - 1] :=
    List.getElem?_eq_getElem (by omega)
  have hbound := (hlinked _ _ hlast).2.2
  omega

/-- A packet of the link goes from the destination's end to the other. -/
theorem carriedUp_of_linked (hf : LinkFrame f linkId) (hpasses : ∀ x ∈ relays, x.Passes c f) :
    CarriedUp c relays fun i => atHops f (relays.length - i) := by
  intro i x hx
  obtain ⟨hcarries, hsides, -⟩ := hlinked i x hx
  obtain ⟨hbound, hplace⟩ := place_from_end hlinked (List.getElem?_eq_some_iff.mp hx).1
  obtain ⟨hlt, hraw, hnat, hnext⟩ := exists_withHops f hbound
  dsimp only
  rw [← hplace, ← hnext, hraw]
  refine Relay.receive_down hcarries.unclaimed hcarries.entry hsides (hf.withHops hlt)
    (Relay.passes_withHops hf.link hlt (hpasses x (List.mem_of_getElem? hx))) ?_
  rw [← hplace]
  exact congrArg (· + 1) hnat

/-- A proof of the link that every relay finds valid goes back to the initiator. -/
theorem proof_carriedUp
    (hf : ProofFrame f linkId) (hpasses : ∀ x ∈ relays, x.Passes c f)
    (hvalid : ∀ x ∈ relays,
      validateLrproofSignature c x.state f.data linkId destinationHash = true) :
    CarriedUp c relays fun i => atHops f (relays.length - i) := by
  intro i x hx
  have hmem := List.mem_of_getElem? hx
  obtain ⟨hcarries, -, -⟩ := hlinked i x hx
  obtain ⟨hbound, hplace⟩ := place_from_end hlinked (List.getElem?_eq_some_iff.mp hx).1
  obtain ⟨hlt, hraw, hnat, hnext⟩ := exists_withHops f hbound
  dsimp only
  rw [← hplace, ← hnext, hraw]
  refine Relay.receive_proof hcarries.unclaimed hcarries.entry (hf.withHops hlt)
    (Relay.passes_withHops hf.link hlt (hpasses x hmem)) ?_ (hvalid x hmem)
  rw [← hplace]
  exact congrArg (· + 1) hnat

end

end Packets

/-! ## The proof of the link -/

/-- A proof that the initiator accepts is valid at a relay that knows the same identity. -/
theorem validate_of_accepted {c : Crypto} {s : TransportState} {l : Link}
    {packet : Reticulum.Packet} {r : Readings} {publicKey destinationHash : Bytes}
    (hinitiator : l.initiator = true) (hstate : l.state = .pending)
    (hcontext : packet.context ≠ Reticulum.Packet.resourcePrf)
    (haccepts : (Link.handleProofPacket c l packet r).2.state = .active)
    (hkey : Link.destinationKey l = .ok publicKey)
    (hknown : recallIdentity c s destinationHash = some publicKey) :
    validateLrproofSignature c s packet.data l.linkId destinationHash = true := by
  obtain ⟨-, e, he⟩ | ⟨publicKey', hnot, hkey', ⟨-, e, he⟩ | ⟨e, l', he, hshake, -⟩ |
      ⟨prv, length, signed, -, -, -, hsigned, hvalid, -⟩⟩ :=
    Link.handleProofPacket_cases (c := c) (r := r) hinitiator hstate hcontext
  · rw [he, hstate] at haccepts
    cases haccepts
  · rw [he] at haccepts
    exact absurd (hstate.symm.trans haccepts) (by decide)
  · rw [he, hshake] at haccepts
    cases haccepts
  obtain rfl : publicKey = publicKey' := Except.ok.inj (hkey.symm.trans hkey')
  have hlength : Link.proofLength packet.data = true := by
    by_contra h
    exact hnot (.inl (by simpa using h))
  unfold validateLrproofSignature
  rw [if_neg (not_not.mpr hlength), hknown]
  dsimp only
  unfold Link.expectedSignedData at hsigned
  dsimp only at hsigned
  split at hsigned
  · rename_i hsignalled
    -- the MTU is there, so that neither end falls back to its default
    obtain ⟨mtu, hmtu⟩ : ∃ mtu, Link.mtuFromLpPacket packet.data = some mtu := by
      have hdrop : (packet.data.drop (Link.sigLength + Link.ecPubSize / 2)).length = 3 := by
        rw [List.length_drop, hsignalled]
        rfl
      obtain ⟨a, b, c, habc⟩ := List.length_eq_three.mp hdrop
      unfold Link.mtuFromLpPacket Link.mtuAt
      rw [habc]
      exact ⟨_, rfl⟩
    rw [if_pos hsignalled, hmtu, Option.getD_some]
    rw [hmtu, Option.getD_some] at hsigned
    cases hbytes : Link.signallingBytes mtu (Link.modeFromLpPacket packet.data) with
    | error e =>
        rw [hbytes] at hsigned
        cases hsigned
    | ok bytes =>
        rw [hbytes] at hsigned
        obtain rfl := Except.ok.inj hsigned
        exact hvalid
  · rename_i hplain
    obtain rfl := Except.ok.inj hsigned
    rw [if_neg hplain]
    exact hvalid

/-! ## Agreement -/

/-- The relays some time after the request has passed them. -/
def LaterChain (c : Crypto) (linkId : Bytes) (relays : List Relay) (frames : Nat → Bytes)
    (later : List Relay) : Prop :=
  later.length = relays.length ∧
    ∀ i (x y : Relay), relays[i]? = some x → later[i]? = some y →
      ∃ next, (x.after c ⟨x.up, frames i, next⟩).Later c linkId y

/-- A chain that the request has travelled carries the link from then on. -/
theorem linked_of_travels {c : Crypto} {linkId destinationHash : Bytes} {relays later : List Relay}
    {frames : Nat → Bytes} (hagree : Agree destinationHash relays)
    (htravels : Travels c relays frames) (hstart : RequestAt c linkId destinationHash 0 (frames 0))
    (hunclaimed : ∀ x ∈ relays, x.Unclaimed linkId)
    (hlater : LaterChain c linkId relays frames later) :
    Linked linkId destinationHash later := by
  intro i y hy
  have hi : i < relays.length := by
    rw [← hlater.1]
    exact (List.getElem?_eq_some_iff.mp hy).1
  have hx : relays[i]? = some relays[i] := List.getElem?_eq_getElem hi
  obtain ⟨next, hrun⟩ := hlater.2 i _ y hx hy
  obtain ⟨hcarries, hbound⟩ := carries_of_travels hagree htravels hstart hunclaimed hx next
  obtain ⟨hcarries', hup, hdown⟩ := Relay.carries_of_later hcarries hrun
  rw [hlater.1]
  refine ⟨hcarries', ?_, hbound⟩
  rw [hup, hdown]
  exact (hagree i _ hx).1

/-- Once the request of an initiator has travelled a chain of relays that agree, and whatever
frames that spare the link they have received since: every relay has an entry under the link
id of both ends; a proof that the initiator accepts is valid at every relay that knows the
identity, and goes back along the chain; every packet of the link that a relay takes for no
repetition goes along the chain, once at each relay, in either direction; and any other packet
for the link id is sent nowhere. -/
theorem linkRelay_agreement {c : Crypto} {l l' : Link} {prv sigPub : Bytes.Block 32}
    {destType : Wire.DestinationType} {destHash : Bytes.Block 16} {packet : Reticulum.Packet}
    {p : Wire.Packet} {s : TransportState} {r : Reading} {name : String}
    {relays later : List Relay} {frames : Nat → Bytes}
    (hprepare : Link.initiatePrepare c l prv sigPub destType.toUInt8 destHash =
      (.ok packet, l'))
    (hpacket : (Wire.Packet.holding packet.raw none).unpack c = some p)
    (hroutes : ∀ e ∈ selectAllPaths s.pathTable s.interfaces destHash.1 r.now,
      e.nextHop.length = Wire.dstLen)
    (hsent : (name, frames 0) ∈ (outbound s r p destHash.1).2.1)
    (hagree : Agree destHash.1 relays) (htravels : Travels c relays frames)
    (hunclaimed : ∀ x ∈ relays, x.Unclaimed l'.linkId)
    (hlater : LaterChain c l'.linkId relays frames later) :
    (∀ i (y : Relay), later[i]? = some y →
      y.HasEntry l'.linkId destHash.1 (later.length - i) (i + 1)) ∧
    (∀ receivingInterface q publicKey sign prv' placeholder now responder proof,
      (Wire.Packet.holding (frames relays.length) receivingInterface).unpack c = some q →
      Link.validateRequest c (.key publicKey) sign (linkPacket q) prv' placeholder now =
        .ok (responder, proof) → responder.linkId = l'.linkId) ∧
    (∀ f waiting proof readings publicKey, ProofFrame f l'.linkId →
      waiting.linkId = l'.linkId → waiting.initiator = true → waiting.state = .pending →
      proof.data = f.data → proof.context = f.context →
      (Link.handleProofPacket c waiting proof readings).2.state = .active →
      Link.destinationKey waiting = .ok publicKey →
      (∀ y ∈ later, recallIdentity c y.state destHash.1 = some publicKey →
        validateLrproofSignature c y.state f.data l'.linkId destHash.1 = true) ∧
      ((∀ y ∈ later, recallIdentity c y.state destHash.1 = some publicKey ∧ y.Passes c f) →
        CarriedUp c later fun i => atHops f (later.length - i))) ∧
    (∀ f, LinkFrame f l'.linkId → (∀ y ∈ later, y.Passes c f) →
      CarriedDown c later (atHops f) ∧
        CarriedUp c later fun i => atHops f (later.length - i)) ∧
    (∀ i (y : Relay) raw arrival q, later[i]? = some y →
      (Wire.Packet.holding raw (some arrival)).unpack c = some q →
      q.packetType ≠ Wire.announce → q.destinationHash = some l'.linkId →
      ¬ (arrival = y.up ∧ q.hops.toNat = i) →
      ¬ (arrival = y.down ∧ q.hops.toNat + 1 = later.length - i) →
      (y.receive c arrival raw).1.outbound = []) := by
  have hstart := requestAt_of_initiator hprepare hpacket hroutes hsent
  have hlinked := linked_of_travels hagree htravels hstart hunclaimed hlater
  refine ⟨?_, ?_, ?_, ?_, ?_⟩
  · intro i y hy
    exact (hlinked i y hy).1.entry
  · intro receivingInterface q publicKey sign prv' placeholder now responder proof hread hresponds
    obtain ⟨-, -, length, hid, -⟩ := Link.validateRequest_fields hresponds
    rw [hid]
    exact (request_delivered hagree htravels hstart hread).linkId
  · intro f waiting proof readings publicKey hf hid hinitiator hstate hdata hcontext haccepts hkey
    have hvalid : ∀ y ∈ later, recallIdentity c y.state destHash.1 = some publicKey →
        validateLrproofSignature c y.state f.data l'.linkId destHash.1 = true := by
      intro y _ hknown
      have hplain : proof.context ≠ Reticulum.Packet.resourcePrf := by
        rw [hcontext, hf.context]
        decide
      rw [← hdata, ← hid]
      exact validate_of_accepted hinitiator hstate hplain haccepts hkey hknown
    refine ⟨hvalid, fun hknown => ?_⟩
    exact proof_carriedUp hlinked hf (fun y hy => (hknown y hy).2)
      fun y hy => hvalid y hy (hknown y hy).1
  · intro f hf hpasses
    exact ⟨carriedDown_of_linked hlinked hf hpasses, carriedUp_of_linked hlinked hf hpasses⟩
  · intro i y raw arrival q hy hunpack htype hdest hup hdown
    obtain ⟨hcarries, hsides, -⟩ := hlinked i y hy
    exact Relay.receive_other hcarries.unclaimed hcarries.entry hsides hunpack htype hdest
      (fun h => hup ⟨h.1, Nat.succ.inj h.2⟩) hdown

section Samples

set_option maxRecDepth 4096

/-- The stand-in for the cryptographic crates, with a hash that tells requests of one link with
different signalling bytes apart. -/
def chainCrypto : Crypto :=
  { Link.sampleCrypto [Link.sampleSigned] with
    fullHash := fun data => Link.pad 32 (data.take 16 ++ [UInt8.ofNat data.length]) }

/-- The request of the sample initiator, and its link. -/
def chainInitiator : Except String Reticulum.Packet × Link :=
  Link.initiatePrepare chainCrypto
    (Link.new true (.key (List.replicate 64 7)) Link.modeDefault [] 0) (Link.pad 32 [1])
    (Link.pad 32 [2]) 0 (Link.pad 16 [3])

/-- The destination of the request. -/
def chainHash : Bytes := (Link.pad 16 [3]).1

/-- The route to it with so many hops. -/
def chainRoute (hops : UInt8) (nextHop : Bytes) : PathEntry :=
  { timestamp := 0, nextHop := nextHop, hops := hops, expires := 60
    receivingInterface := some "right", packetHash := [] }

/-- A node with that route, which knows the destination. -/
def chainState (hops : UInt8) (nextHop : Bytes) : TransportState :=
  { sampleRelay with
    pathTable := TransportState.start.pathTable.insert chainHash [chainRoute hops nextHop]
    knownDestinations := TransportState.start.knownDestinations.insert chainHash
      { publicKey := List.replicate 64 7, appData := none, lastSeen := 0 } }

/-- The frames of the request before and after the one relay: on the way to it with a transport
id, behind it without, and without its signalling bytes. -/
def chainFrames (i : Nat) : Bytes :=
  let keys := (Link.pad 32 [1]).1 ++ (Link.pad 32 [2]).1
  if i = 0 then
    [0x52, 0x00] ++ List.replicate 16 9 ++ chainHash ++ [0x00] ++ keys ++ [0x20, 0x01, 0xF4]
  else [0x02, 0x01] ++ chainHash ++ [0x00] ++ keys

/-- The relay before the request. -/
def chainRelay (s : TransportState) : Relay :=
  { state := s, reading := .zero, up := "left", down := "right" }

/-- The relay after the request. -/
def chainCarrier (s : TransportState) : Relay :=
  (chainRelay s).after chainCrypto ⟨"left", chainFrames 0, .zero⟩

/-- A frame of the sample link. -/
def chainFrame (flags context : UInt8) (data : Bytes) (h : data ≠ [])
    (hflags : Wire.headerTypeOf flags ≠ Wire.header2) : Frame :=
  { flags := flags, hops := 0, transportId := none
    destinationHash := Link.linkIdFromLrPacket chainCrypto
      (chainInitiator.1.toOption.getD (Link.sampleProof (Link.pad 64 [])))
    context := context, data := data
    headerType := Frames.headerType_none hflags
    hops_lt := by decide
    data_ne := h }

/-- A chain of one relay agrees, when the relay has the route of one hop and two sides. -/
theorem agree_chainRelay {s : TransportState}
    (hroute : selectPathExcluding s.pathTable s.interfaces chainHash 0 (some "left") =
      some (chainRoute 1 chainHash)) : Agree chainHash [chainRelay s] := by
  intro i x hx
  cases i with
  | zero =>
      obtain rfl : chainRelay s = x := by simpa using hx
      have hsides : "left" ≠ "right" := by decide
      refine ⟨hsides, chainRoute 1 chainHash, hroute, rfl, rfl, ?_⟩
      simp
  | succ i => simp at hx

theorem travels_chainRelay {s : TransportState}
    (hsent : ((chainRelay s).receive chainCrypto "left" (chainFrames 0)).1.outbound =
      [("right", chainFrames 1)]) : Travels chainCrypto [chainRelay s] chainFrames := by
  intro i x hx
  cases i with
  | zero =>
      obtain rfl : chainRelay s = x := by simpa using hx
      change ("right", chainFrames 1) ∈
        ((chainRelay s).receive chainCrypto "left" (chainFrames 0)).1.outbound
      rw [hsent]
      exact List.mem_singleton_self _
  | succ i => simp at hx

/-- The data of the sample link. -/
def chainData : Frame := chainFrame 0x0C 0x00 [0x01] (by decide) (by decide)

/-- The proof of the sample link. -/
def chainProof : Frame :=
  chainFrame 0x0F 0xFF (Link.sampleProof (Link.pad 64 (List.replicate 64 1))).data (by decide)
    (by decide)

/-- Two relays in front of the destination. -/
def chainTwo : List Relay :=
  [chainRelay (chainState 2 (List.replicate 16 9)), chainRelay (chainState 1 chainHash)]

/-- The frames of the request before, between and behind them: with a transport id up to the
second, and with its signalling bytes up to the first. -/
def twoFrames (i : Nat) : Bytes :=
  if i < 2 then
    [0x52, UInt8.ofNat i] ++ List.replicate 16 9 ++ (chainFrames 1).drop 2 ++
      if i = 0 then [0x20, 0x01, 0xF4] else []
  else [0x02, 0x02] ++ (chainFrames 1).drop 2

/-- A relay in this place after the request. -/
def carrier (i : Nat) (s : TransportState) : Relay :=
  (chainRelay s).after chainCrypto ⟨"left", twoFrames i, .zero⟩

/-- The two relays after the request. -/
def carryingTwo : List Relay :=
  [carrier 0 (chainState 2 (List.replicate 16 9)), carrier 1 (chainState 1 chainHash)]

theorem forall_pair {P : Nat → Relay → Prop} {x y : Relay} (hx : P 0 x) (hy : P 1 y) :
    ∀ i z, [x, y][i]? = some z → P i z := by
  rintro (_ | _ | i) z hz
  · exact Option.some.inj hz ▸ hx
  · exact Option.some.inj hz ▸ hy
  · simp at hz

theorem agree_chainTwo : Agree chainHash chainTwo := by
  have hsides : "left" ≠ "right" := by decide
  refine forall_pair ⟨hsides, chainRoute 2 (List.replicate 16 9), by decide +kernel, rfl, rfl, ?_⟩
    ⟨hsides, chainRoute 1 chainHash, by decide +kernel, rfl, rfl, fun y hy => by cases hy⟩
  intro y hy
  obtain rfl := Option.some.inj hy
  exact ⟨rfl, rfl⟩

theorem travels_chainTwo : Travels chainCrypto chainTwo twoFrames :=
  forall_pair (by decide +kernel) (by decide +kernel)

/-- The initiator's link goes through two relays: the proof comes back, data goes both ways, and
data with other hops goes nowhere. -/
theorem linkRelay_agreement_twoRelays :
    CarriedUp chainCrypto carryingTwo (fun i => atHops chainProof (2 - i)) ∧
      CarriedDown chainCrypto carryingTwo (atHops chainData) ∧
      ((carrier 0 (chainState 2 (List.replicate 16 9))).receive chainCrypto "left"
        (atHops chainData 1)).1.outbound = [] := by
  have hprepare : Link.initiatePrepare chainCrypto
      (Link.new true (.key (List.replicate 64 7)) Link.modeDefault [] 0) (Link.pad 32 [1])
      (Link.pad 32 [2]) (Wire.DestinationType.toUInt8 .single) (Link.pad 16 [3]) =
        (.ok (chainInitiator.1.toOption.getD (Link.sampleProof (Link.pad 64 []))),
          chainInitiator.2) := rfl
  have hpacket : (Wire.Packet.holding (chainInitiator.1.toOption.getD
      (Link.sampleProof (Link.pad 64 []))).raw none).unpack chainCrypto =
        some (((Wire.Packet.holding (chainInitiator.1.toOption.getD
          (Link.sampleProof (Link.pad 64 []))).raw none).unpack chainCrypto).getD
            (.holding [] none)) := rfl
  have hpaths : selectAllPaths (chainState 3 (List.replicate 16 9)).pathTable
      (chainState 3 (List.replicate 16 9)).interfaces chainHash Reading.zero.now =
        [chainRoute 3 (List.replicate 16 9)] := List.mergeSort_singleton _
  have hunclaimed : ∀ x ∈ chainTwo, x.Unclaimed chainInitiator.2.linkId := by
    intro x hx
    simp only [chainTwo, List.mem_cons, List.not_mem_nil, or_false] at hx
    obtain rfl | rfl := hx <;> exact ⟨by decide, rfl, rfl, rfl, rfl⟩
  have hlater : LaterChain chainCrypto chainInitiator.2.linkId chainTwo twoFrames carryingTwo := by
    refine ⟨rfl, fun i x y hx hy => ⟨.zero, [], by simp, ?_⟩⟩
    exact (forall_pair (P := fun i x => carryingTwo[i]? =
      some (x.after chainCrypto ⟨x.up, twoFrames i, .zero⟩)) rfl rfl i x hx).symm.trans hy
  obtain ⟨-, -, hproof, hdata, hother⟩ :=
    linkRelay_agreement (s := chainState 3 (List.replicate 16 9)) (r := .zero) hprepare hpacket
      (by
        intro e he
        change e ∈ selectAllPaths _ _ chainHash _ at he
        rw [hpaths] at he
        obtain rfl := List.mem_singleton.mp he
        rfl)
      (show ("right", twoFrames 0) ∈ _ by
        unfold outbound
        change _ ∈ (sendAlong _ _ chainHash _ (selectAllPaths _ _ chainHash _)).2.1
        rw [hpaths]
        decide +kernel)
      agree_chainTwo travels_chainTwo hunclaimed hlater
  refine ⟨?_, (hdata chainData ?_ ?_).1, ?_⟩
  · obtain ⟨-, hback⟩ := hproof chainProof chainInitiator.2
      (Link.sampleProof (Link.pad 64 (List.replicate 64 1))) Link.sampleReadings
      (List.replicate 64 7) ⟨rfl, by decide, by decide, rfl, by decide⟩ rfl rfl rfl rfl rfl rfl rfl
    refine hback fun y hy => ?_
    simp only [carryingTwo, List.mem_cons, List.not_mem_nil, or_false] at hy
    obtain rfl | rfl := hy <;> exact ⟨by decide +kernel, by decide +kernel, rfl⟩
  · exact ⟨rfl, by decide, .inl (by decide), by decide, by decide⟩
  · intro y hy
    simp only [carryingTwo, List.mem_cons, List.not_mem_nil, or_false] at hy
    obtain rfl | rfl := hy <;> exact ⟨by decide +kernel, rfl⟩
  · have hunpack := Frame.unpack_encode (c := chainCrypto)
      (p := .holding (atHops chainData 1) (some "left"))
      (f := Frames.withHops chainData 1 (by decide)) rfl
    refine hother 0 _ _ _ _ rfl hunpack (by decide) rfl ?_ ?_
    · rintro ⟨-, hhops⟩
      exact absurd hhops (by decide)
    · rintro ⟨hside, -⟩
      exact absurd hside (by decide)

/-- The relay with a packet in its cache. -/
def chainCached : TransportState :=
  { chainState 1 chainHash with
    packetCache := TransportState.start.packetCache.insert (List.replicate 32 0)
      { raw := chainData.encode, interfaceName := none } }

/-- The relay with the link id as a control destination. -/
def chainControlled : TransportState :=
  { chainState 1 chainHash with controlHashes := [chainInitiator.2.linkId] }

/-- The relay without the interface of the initiator's side. -/
def chainOneSided : TransportState :=
  { chainState 1 chainHash with interfaces := sampleRelay.interfaces.drop 1 }

/-- The relay with a route to the link id. -/
def chainRouted : TransportState :=
  { chainState 1 chainHash with
    pathTable := (chainState 1 chainHash).pathTable.insert chainInitiator.2.linkId
      [chainRoute 1 chainInitiator.2.linkId] }

/-- The relay with an entry for the link id in its reverse table. -/
def chainReversed : TransportState :=
  { chainState 1 chainHash with
    reverseTable := TransportState.start.reverseTable.insert chainInitiator.2.linkId
      { receivedInterface := some "left", outboundInterface := some "other", timestamp := 0 } }

/-- Chains of one relay that agree and that the request has travelled. A repetition of data is
dropped, a cache request is answered by the relay, and data for a link id that is a control
destination is left to its handler; data for an interface that is not registered is not sent;
data with other hops is sent when the link id has a route, a proof from another interface when
it has an entry in the reverse table; and a second request for the link takes its entry. -/
theorem linkRelay_agreement_false :
    (∀ s ∈ [chainState 1 chainHash, chainCached, chainControlled, chainOneSided, chainRouted,
        chainReversed],
      Agree chainHash [chainRelay s] ∧ Travels chainCrypto [chainRelay s] chainFrames) ∧
    (((chainCarrier (chainState 1 chainHash)).after chainCrypto
        ⟨"left", chainData.encode, .zero⟩).receive chainCrypto "left"
          chainData.encode).1.outbound = [] ∧
    ((chainCarrier chainCached).receive chainCrypto "left"
        (chainFrame 0x0C Wire.cacheRequest (List.replicate 32 0) (by decide)
          (by decide)).encode).1.outbound = [] ∧
    ((chainCarrier chainControlled).receive chainCrypto "left"
        chainData.encode).1.outbound = [] ∧
    ((chainCarrier chainOneSided).receive chainCrypto "right"
        chainData.encode).1.outbound = [] ∧
    ((chainCarrier chainRouted).receive chainCrypto "left"
        (atHops chainData 7)).1.outbound ≠ [] ∧
    ((chainCarrier chainReversed).receive chainCrypto "other"
        (chainFrame 0x03 0x00 [0x01] (by decide) (by decide)).encode).1.outbound ≠ [] ∧
    (((chainCarrier (chainState 1 chainHash)).after chainCrypto
        ⟨"right", (chainFrames 0).take 99, .zero⟩).receive chainCrypto "left"
          chainData.encode).1.outbound = [] := by
  refine ⟨?_, by decide +kernel, by decide +kernel, by decide +kernel, by decide +kernel,
    by decide +kernel, by decide +kernel, by decide +kernel⟩
  intro s hs
  simp only [List.mem_cons, List.not_mem_nil, or_false] at hs
  obtain rfl | rfl | rfl | rfl | rfl | rfl := hs <;>
    exact ⟨agree_chainRelay (by decide +kernel), travels_chainRelay (by decide +kernel)⟩

end Samples

end Reticulum.Transport
