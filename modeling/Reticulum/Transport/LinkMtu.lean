import Reticulum.Transport.LinkChain

/-!
# The MTU of a link along its path

What the relays of a link request make of its data. A relay whose outgoing interface
cannot signal an MTU cuts the signalling bytes off, any other relay lowers the MTU to what
its two interfaces carry (`clampedData`). A destination that gets signalling bytes takes
an MTU that every interface on the way carries, and any other destination takes the
default MTU (`linkMtu_clamped`).

## Implementation notes

The packets of a passage are what the relays, and at the end the destination, read of the
frames that are sent.
-/

namespace Reticulum.Transport

open Wire (Frame)

/-- Whether an interface can signal an MTU. -/
def InterfaceStub.discoversMtu (i : InterfaceStub) : Bool :=
  i.hwMtu.isSome && (i.autoconfigureMtu || i.fixedMtu)

/-- The `hw_mtu` of the interface with a name. -/
def hwMtuOf (interfaces : List InterfaceStub) (name : String) : Option Nat :=
  (findInterface interfaces name).bind (·.hwMtu)

/-- The mode of a request with signalling bytes is enabled. -/
def ModeEnabled (data : Bytes) : Prop :=
  Link.mtuFromLrPacket data ≠ none →
    Link.modeFromLrPacket data = Link.modeAes256Cbc ∨
      Link.modeFromLrPacket data = Link.modeAes128Cbc

/-- What a relay may change in the data of a request that came in on an interface with this
`hw_mtu`, and goes out on another. -/
structure Clamps (phMtu : Option Nat) (out : InterfaceStub) (data data' : Bytes) : Prop where
  keys : data'.take Link.ecPubSize = data.take Link.ecPubSize
  unsignalled : Link.mtuFromLrPacket data = none → data' = data
  removed : Link.mtuFromLrPacket data ≠ none →
    (data' = data.take Link.ecPubSize ↔ out.discoversMtu = false)
  signalled : ∀ mtu, Link.mtuFromLrPacket data = some mtu → out.discoversMtu = true →
    ∃ mtu', Link.mtuFromLrPacket data' = some mtu' ∧
      Link.modeFromLrPacket data' = Link.modeFromLrPacket data ∧ mtu' ≤ mtu ∧
      (∀ hw, phMtu = some hw → mtu' ≤ hw) ∧ ∀ hw, out.hwMtu = some hw → mtu' ≤ hw

/-- Every route leads to an address. -/
def AddressedRoutes (table : Table (List PathEntry)) : Prop :=
  ∀ destinationHash entries, table destinationHash = some entries →
    ∀ e ∈ entries, e.nextHop.length = Wire.dstLen

/-- A link request passes the relays one after the other. -/
structure RequestPassage (c : Crypto) (relays : List Relay) (frames : Nat → Bytes)
    (packets : Nat → Wire.Packet) : Prop where
  travels : Travels c relays frames
  reads : ∀ i ≤ relays.length,
    ∃ via, (Wire.Packet.holding (frames i) via).unpack c = some (packets i)
  request : (packets 0).packetType = Wire.linkRequest
  addressed : ∀ x ∈ relays, AddressedRoutes x.state.pathTable

/-- The outgoing interface of a relay can signal an MTU. -/
def Relay.discoversMtu (x : Relay) : Bool :=
  (findInterface x.state.interfaces x.down).any (·.discoversMtu)

/-! ## The data that one relay sends -/

/-- The data of a link request that goes out on an interface. -/
def clampedData (phMtu : Option Nat) (out : InterfaceStub) (data : Bytes) : Bytes :=
  match Link.mtuFromLrPacket data with
  | none => data
  | some mtu =>
      if out.discoversMtu then
        let clamp := min (min mtu (phMtu.getD mtu)) (out.hwMtu.getD mtu)
        if clamp < mtu then
          match Link.signallingBytes clamp (Link.modeFromLrPacket data) with
          | .ok signalling => data.take Link.ecPubSize ++ signalling
          | .error _ => data
        else data
      else data.take Link.ecPubSize

section Data

variable {phMtu : Option Nat} {out : InterfaceStub} {data : Bytes} {mtu : Nat}

theorem length_keys (h : Link.mtuFromLrPacket data = some mtu) :
    (data.take Link.ecPubSize).length = Link.ecPubSize := by
  rw [List.length_take, Frames.length_of_mtuFromLrPacket h]
  rfl

theorem mtuFromLrPacket_keys (data : Bytes) :
    Link.mtuFromLrPacket (data.take Link.ecPubSize) = none := by
  have hdrop : (data.take Link.ecPubSize).drop Link.ecPubSize = [] :=
    List.drop_of_length_le (List.length_take_le _ _)
  unfold Link.mtuFromLrPacket Link.mtuAt
  rw [hdrop]

theorem clampedData_unsignalled (h : Link.mtuFromLrPacket data = none) :
    clampedData phMtu out data = data := by
  unfold clampedData
  rw [h]

theorem clampedData_removed (h : Link.mtuFromLrPacket data ≠ none)
    (hout : out.discoversMtu = false) : clampedData phMtu out data = data.take Link.ecPubSize := by
  obtain ⟨mtu, hmtu⟩ := Option.ne_none_iff_exists'.mp h
  unfold clampedData
  rw [hmtu]
  dsimp only
  rw [if_neg (by simp [hout])]

/-- What an interface that can signal an MTU sends: the data as it was, or with a lower
MTU. -/
theorem clampedData_cases (phMtu : Option Nat)
    (hmtu : Link.mtuFromLrPacket data = some mtu) (hout : out.discoversMtu = true) :
    (clampedData phMtu out data = data ∧
      (ModeEnabled data → ∀ hw, phMtu = some hw ∨ out.hwMtu = some hw → mtu ≤ hw)) ∨
    ∃ clamp signalling, clampedData phMtu out data = data.take Link.ecPubSize ++ signalling ∧
      Link.signallingBytes clamp (Link.modeFromLrPacket data) = .ok signalling ∧ clamp ≤ mtu ∧
      ∀ hw, phMtu = some hw ∨ out.hwMtu = some hw → clamp ≤ hw := by
  let clamp := min (min mtu (phMtu.getD mtu)) (out.hwMtu.getD mtu)
  have hclamp : ∀ hw, phMtu = some hw ∨ out.hwMtu = some hw → clamp ≤ hw := by
    rintro hw (rfl | h)
    · exact (min_le_left _ _).trans (min_le_right _ _)
    · exact (min_le_right _ _).trans_eq (by rw [h, Option.getD_some])
  unfold clampedData
  rw [hmtu]
  dsimp only
  rw [if_pos hout]
  by_cases hlower : clamp < mtu
  · rw [if_pos hlower]
    cases hsignalling : Link.signallingBytes clamp (Link.modeFromLrPacket data) with
    | ok signalling => exact .inr ⟨clamp, signalling, rfl, hsignalling, hlower.le, hclamp⟩
    | error e =>
        refine .inl ⟨rfl, fun hmode => ?_⟩
        rw [Link.signallingBytes_eq (hmode (by simp [hmtu]))] at hsignalling
        cases hsignalling
  · rw [if_neg hlower]
    exact .inl ⟨rfl, fun _ hw hhw => (not_lt.mp hlower).trans (hclamp hw hhw)⟩

/-- Lowered signalling bytes are read as the mode and the lower MTU. -/
theorem read_lowered {clamp : Nat} {signalling : Bytes}
    (hmtu : Link.mtuFromLrPacket data = some mtu) (hclamp : clamp ≤ mtu)
    (hsignalling : Link.signallingBytes clamp (Link.modeFromLrPacket data) = .ok signalling) :
    Link.mtuFromLrPacket (data.take Link.ecPubSize ++ signalling) = some clamp ∧
      Link.modeFromLrPacket (data.take Link.ecPubSize ++ signalling) =
        Link.modeFromLrPacket data := by
  have hkeys := length_keys hmtu
  have hlt : clamp < 2 ^ 21 := hclamp.trans_lt (Link.mtuAt_lt hmtu)
  refine ⟨?_, Link.modeFromLrPacket_signallingBytes hsignalling hkeys⟩
  have hread := Link.mtuAt_signallingBytes hsignalling (data.take Link.ecPubSize)
  rw [hkeys, Nat.mod_eq_of_lt hlt] at hread
  exact hread

theorem keys_clampedData :
    (clampedData phMtu out data).take Link.ecPubSize = data.take Link.ecPubSize := by
  cases hmtu : Link.mtuFromLrPacket data with
  | none => rw [clampedData_unsignalled hmtu]
  | some mtu =>
      cases hout : out.discoversMtu with
      | false =>
          rw [clampedData_removed (by simp [hmtu]) hout, List.take_take, min_self]
      | true =>
          obtain ⟨hsame, -⟩ | ⟨clamp, signalling, hsame, -, -, -⟩ :=
            clampedData_cases phMtu hmtu hout
          · rw [hsame]
          · rw [hsame, List.take_append_of_le_length (length_keys hmtu).ge, List.take_take,
              min_self]

/-- A request keeps its mode for as long as it keeps its signalling bytes, and its MTU does
not grow. -/
theorem signalled_clampedData (phMtu : Option Nat)
    (hmtu : Link.mtuFromLrPacket data = some mtu) (hout : out.discoversMtu = true) :
    ∃ mtu', Link.mtuFromLrPacket (clampedData phMtu out data) = some mtu' ∧
      Link.modeFromLrPacket (clampedData phMtu out data) = Link.modeFromLrPacket data ∧
      mtu' ≤ mtu ∧
      (ModeEnabled data → ∀ hw, phMtu = some hw ∨ out.hwMtu = some hw → mtu' ≤ hw) := by
  obtain ⟨hsame, hle⟩ | ⟨clamp, signalling, hsame, hsignalling, hclamp, hle⟩ :=
    clampedData_cases phMtu hmtu hout
  · rw [hsame]
    exact ⟨mtu, hmtu, rfl, le_rfl, hle⟩
  · obtain ⟨hread, hmode⟩ := read_lowered hmtu hclamp hsignalling
    rw [hsame]
    exact ⟨clamp, hread, hmode, hclamp, fun _ => hle⟩

/-- A request whose mode is enabled is clamped. -/
theorem clamps_clampedData (hmode : ModeEnabled data) :
    Clamps phMtu out data (clampedData phMtu out data) where
  keys := keys_clampedData
  unsignalled := clampedData_unsignalled
  removed := by
    intro hne
    refine ⟨fun heq => ?_, clampedData_removed hne⟩
    by_contra hout
    rw [Bool.not_eq_false] at hout
    obtain ⟨mtu, hmtu⟩ := Option.ne_none_iff_exists'.mp hne
    obtain ⟨mtu', hread, -⟩ := signalled_clampedData phMtu hmtu hout
    rw [heq, mtuFromLrPacket_keys] at hread
    cases hread
  signalled := by
    intro mtu hmtu hout
    obtain ⟨mtu', hread, hsame, hle, hhw⟩ := signalled_clampedData phMtu hmtu hout
    exact ⟨mtu', hread, hsame, hle, fun hw h => hhw hmode hw (.inl h),
      fun hw h => hhw hmode hw (.inr h)⟩

end Data

/-! ## The frame that one relay sends -/

section Frames

variable {c : Crypto} {s : TransportState} {r : Reading} {p q : Wire.Packet} {f g : Frame}

theorem clampMtu_eq (s : TransportState) (p : Wire.Packet) (out : InterfaceStub) (mtu : Nat) :
    clampMtu s p out mtu =
      if out.discoversMtu then
        some (min (min mtu ((p.receivingInterface.bind (hwMtuOf s.interfaces)).getD mtu))
          (out.hwMtu.getD mtu))
      else none := by
  have hph : (p.receivingInterface.bind (findInterface s.interfaces)).bind (·.hwMtu) =
      p.receivingInterface.bind (hwMtuOf s.interfaces) := Option.bind_assoc _ _ _
  unfold clampMtu InterfaceStub.discoversMtu
  rw [hph]
  cases out.hwMtu <;> cases out.autoconfigureMtu <;> cases out.fixedMtu <;> rfl

/-- The signalling bytes at the end of the frame are those at the end of the data. -/
theorem exists_clampedFrame {name : String} {out : InterfaceStub} (hdata : g.data = p.data)
    (hout : findInterface s.interfaces name = some out) :
    ∃ g' : Frame, clampSignalling s p (some name) g.encode = g'.encode ∧ g'.flags = g.flags ∧
      g'.data = clampedData (p.receivingInterface.bind (hwMtuOf s.interfaces)) out p.data := by
  unfold clampSignalling clampedData
  rw [Option.bind_some, hout]
  cases hmtu : Link.mtuFromLrPacket p.data with
  | none => exact ⟨g, rfl, rfl, hdata⟩
  | some mtu =>
      dsimp only
      have hlength := Frames.length_of_mtuFromLrPacket hmtu
      rw [← hdata] at hlength
      have hlong : Link.linkMtuSize ≤ g.encode.length := by
        simp only [Frame.encode, List.length_cons, List.length_append]
        unfold Link.linkMtuSize at *
        omega
      -- What is cut off the frame is cut off the data.
      have hcut : ∀ signalling : Bytes, ∃ g' : Frame,
          g.encode.take (g.encode.length - Link.linkMtuSize) ++ signalling = g'.encode ∧
            g'.flags = g.flags ∧ g'.data = p.data.take Link.ecPubSize ++ signalling := by
        intro signalling
        have hkeys : g.data.length - Link.linkMtuSize = Link.ecPubSize := by omega
        have hne : g.data.take (g.data.length - Link.linkMtuSize) ++ signalling ≠ [] := by
          rw [hkeys, hdata]
          intro hnil
          have hzero := length_keys hmtu
          rw [(List.append_eq_nil_iff.mp hnil).1] at hzero
          cases hzero
        refine ⟨_, Frames.take_encode (by omega) signalling hne, rfl, ?_⟩
        change g.data.take (g.data.length - Link.linkMtuSize) ++ signalling = _
        rw [hkeys, hdata]
      rw [clampMtu_eq]
      by_cases hdiscovers : out.discoversMtu = true
      · rw [if_pos hdiscovers, if_pos hdiscovers]
        dsimp only
        generalize min (min mtu _) _ = clamp
        by_cases hlower : clamp < mtu
        · rw [if_pos hlower, if_pos hlower]
          cases Link.signallingBytes clamp (Link.modeFromLrPacket p.data) with
          | ok signalling =>
              dsimp only
              rw [if_pos hlong]
              exact hcut signalling
          | error e => exact ⟨g, rfl, rfl, hdata⟩
        · rw [if_neg hlower, if_neg hlower]
          exact ⟨g, rfl, rfl, hdata⟩
      · rw [if_neg hdiscovers, if_neg hdiscovers]
        dsimp only
        rw [if_pos hlong]
        simpa using hcut []

/-- What transit forwarding makes of a frame that is read at the next node is a frame with the
same types and data. -/
theorem exists_transitRaw (hp : Reads p f) {nextHop : Bytes} {remainingHops : UInt8}
    (hnext : 1 < remainingHops → nextHop.length = Wire.dstLen) {outbound : Option String}
    {u : Wire.Packet} (hraw : q.raw = transitFrame s p nextHop remainingHops outbound)
    (hread : q.unpack c = some u) :
    ∃ g : Frame, transitRaw p nextHop remainingHops = g.encode ∧
      g.flags &&& 0x0F = f.flags &&& 0x0F ∧ g.data = f.data := by
  by_cases hcounted : remainingHops ≠ 1 ∨ Wire.headerTypeOf f.flags = Wire.header2
  · have hhops := Frames.hops_lt_of_unpack hp hnext hcounted hraw hread
    obtain ⟨g, hg, htransited⟩ := Frames.exists_transited hp hhops hnext
    exact ⟨g, hg, htransited.address.flags, htransited.data⟩
  · -- One hop remains and there is no transport id: the frame is sent as it is.
    rw [not_or, not_not] at hcounted
    refine ⟨f, ?_, rfl, rfl⟩
    unfold transitRaw
    rw [hcounted.1, if_neg (by decide), if_neg (by simp [hp.headerType, hcounted.2]),
      if_neg (by decide)]
    exact hp.raw

/-- The request that the next node reads is the clamped one. -/
theorem clamped_of_forwarded {raw : Bytes} {receivingInterface via : Option String}
    {frame : String × Bytes}
    (hunpack : (Wire.Packet.holding raw receivingInterface).unpack c = some p)
    (hrequest : p.packetType = Wire.linkRequest) (haddressed : AddressedRoutes s.pathTable)
    (hmem : frame ∈ (inbound c s r raw receivingInterface).1.outbound)
    (hread : (Wire.Packet.holding frame.2 via).unpack c = some q) :
    q.packetType = Wire.linkRequest ∧ ∃ out, findInterface s.interfaces frame.1 = some out ∧
      q.data = clampedData (receivingInterface.bind (hwMtuOf s.interfaces)) out p.data := by
  obtain ⟨f, hraw, rfl⟩ := Frame.unpack_eq_some_iff.mp hunpack
  let p' := hopped (f.fill c (.holding raw receivingInterface))
  have hrequest' : p'.packetType = Wire.linkRequest := hrequest
  have htype : (f.fill c (.holding raw receivingInterface)).packetType ≠ Wire.announce := by
    rw [hrequest]
    decide
  have hqueued := (passed_of_outbound hunpack rfl htype (List.ne_nil_of_mem hmem)).2.2.2.2
  rw [hqueued, queued_linkRequest hrequest'] at hmem
  obtain ⟨e, hselect, hvia, hframe⟩ := exists_route_of_mem_transitFrames hmem
  obtain ⟨entries, hentries, hentry, husable⟩ := usable_of_selectPathExcluding hselect
  have hnext : 1 < e.hops → e.nextHop.length = Wire.dstLen :=
    fun _ => haddressed _ entries hentries e hentry
  obtain ⟨out, hout⟩ : ∃ out, findInterface s.interfaces frame.1 = some out := by
    unfold usable at husable
    rw [hvia] at husable
    cases hfind : findInterface s.interfaces frame.1 with
    | none => simp [hfind] at husable
    | some out => exact ⟨out, rfl⟩
  have hreads : Reads p' f := reads_hopped (reads_fill hraw)
  obtain ⟨g, hg, hflags, hdata⟩ := exists_transitRaw hreads hnext (q := .holding frame.2 via)
    hframe hread
  obtain ⟨g', hclamped, hflags', hdata'⟩ := exists_clampedFrame (s := s) (g := g) (p := p')
    hdata hout
  have hsent : frame.2 = g'.encode := by
    rw [hframe, transitFrame, if_pos hrequest', hg, hvia, hclamped]
  have hfill : (Wire.Packet.holding frame.2 via).unpack c =
      some (g'.fill c (.holding frame.2 via)) := Frame.unpack_encode hsent
  obtain rfl := Option.some.inj (hfill.symm.trans hread)
  refine ⟨?_, out, hout, hdata'⟩
  change g'.flags &&& 0x03 = _
  rw [hflags', (fields_of_lowFlags hflags).1]
  exact hrequest

end Frames

/-! ## The data behind a chain of relays -/

section Chain

variable {c : Crypto} {relays : List Relay} {frames : Nat → Bytes} {packets : Nat → Wire.Packet}

/-- The data that a relay sends. -/
def Relay.clampedData (x : Relay) (data : Bytes) : Bytes :=
  match findInterface x.state.interfaces x.down with
  | some out => Transport.clampedData (hwMtuOf x.state.interfaces x.up) out data
  | none => data

/-- The data that the last relay sends. -/
def clampedAlong (relays : List Relay) (data : Bytes) : Bytes :=
  relays.foldl (fun data x => x.clampedData data) data

/-- Every relay reads the request of the one before. -/
theorem RequestPassage.step (h : RequestPassage c relays frames packets) {i : Nat} {x : Relay}
    (hx : relays[i]? = some x) (hrequest : (packets i).packetType = Wire.linkRequest) :
    (packets (i + 1)).packetType = Wire.linkRequest ∧
      ∃ out, findInterface x.state.interfaces x.down = some out ∧
        (packets (i + 1)).data =
          clampedData (hwMtuOf x.state.interfaces x.up) out (packets i).data := by
  have hi : i < relays.length := (List.getElem?_eq_some_iff.mp hx).1
  obtain ⟨via, hread⟩ := h.reads i hi.le
  obtain ⟨via', hread'⟩ := h.reads (i + 1) hi
  obtain ⟨f, hraw, hfill⟩ := Frame.unpack_eq_some_iff.mp hread
  have hunpack : (Wire.Packet.holding (frames i) (some x.up)).unpack c =
      some (f.fill c (.holding (frames i) (some x.up))) := Frame.unpack_encode hraw
  have hsame : (packets i).packetType = (f.fill c (.holding (frames i) (some x.up))).packetType ∧
      (packets i).data = (f.fill c (.holding (frames i) (some x.up))).data := by
    rw [hfill]
    exact ⟨rfl, rfl⟩
  rw [hsame.1] at hrequest
  rw [hsame.2]
  exact clamped_of_forwarded hunpack hrequest (h.addressed x (List.mem_of_getElem? hx))
    (h.travels i x hx) hread'

/-- What is read at a place of the chain. -/
theorem RequestPassage.data (h : RequestPassage c relays frames packets) {i : Nat}
    (hi : i ≤ relays.length) :
    (packets i).packetType = Wire.linkRequest ∧
      (packets i).data = clampedAlong (relays.take i) (packets 0).data ∧
      ∀ x ∈ relays.take i, (findInterface x.state.interfaces x.down).isSome = true := by
  induction i with
  | zero => exact ⟨h.request, rfl, by simp⟩
  | succ i ih =>
      obtain ⟨hrequest, hdata, hfound⟩ := ih (by omega)
      have hx : relays[i]? = some relays[i] := List.getElem?_eq_getElem hi
      obtain ⟨hnext, out, hout, hsent⟩ := h.step hx hrequest
      rw [List.take_succ_eq_append_getElem hi]
      refine ⟨hnext, ?_, ?_⟩
      · rw [clampedAlong, List.foldl_append, List.foldl_cons, List.foldl_nil, hsent, hdata]
        unfold Relay.clampedData
        rw [hout]
        rfl
      · intro x hmem
        obtain hmem | hmem := List.mem_append.mp hmem
        · exact hfound x hmem
        · rw [List.mem_singleton.mp hmem, hout]
          rfl

theorem Relay.clampedData_eq {x : Relay} {out : InterfaceStub}
    (hout : findInterface x.state.interfaces x.down = some out) (data : Bytes) :
    x.clampedData data = Transport.clampedData (hwMtuOf x.state.interfaces x.up) out data ∧
      x.discoversMtu = out.discoversMtu ∧ hwMtuOf x.state.interfaces x.down = out.hwMtu := by
  unfold Relay.clampedData Relay.discoversMtu hwMtuOf
  rw [hout]
  exact ⟨rfl, rfl, rfl⟩

/-- A request that a relay sends with signalling bytes had them. -/
theorem Relay.signalled {x : Relay} {data : Bytes} {mtu' : Nat}
    (hfound : (findInterface x.state.interfaces x.down).isSome = true)
    (h : Link.mtuFromLrPacket (x.clampedData data) = some mtu') :
    x.discoversMtu = true ∧
      Link.modeFromLrPacket (x.clampedData data) = Link.modeFromLrPacket data ∧
      ∃ mtu, Link.mtuFromLrPacket data = some mtu ∧ mtu' ≤ mtu ∧
        (ModeEnabled data → ∀ name, name = x.up ∨ name = x.down →
          ∀ hw, hwMtuOf x.state.interfaces name = some hw → mtu' ≤ hw) := by
  obtain ⟨out, hout⟩ := Option.isSome_iff_exists.mp hfound
  obtain ⟨hdata, hdiscovers, hhw⟩ := x.clampedData_eq hout data
  rw [hdata] at h ⊢
  rw [hdiscovers]
  cases hmtu : Link.mtuFromLrPacket data with
  | none =>
      rw [clampedData_unsignalled hmtu, hmtu] at h
      cases h
  | some mtu =>
      cases hcan : out.discoversMtu with
      | false =>
          rw [clampedData_removed (by simp [hmtu]) hcan, mtuFromLrPacket_keys] at h
          cases h
      | true =>
          obtain ⟨mtu'', hread, hmode, hle, hcarry⟩ :=
            signalled_clampedData (hwMtuOf x.state.interfaces x.up) hmtu hcan
          obtain rfl := Option.some.inj (hread.symm.trans h)
          refine ⟨rfl, hmode, mtu, rfl, hle, fun henabled name hname hw hname' => ?_⟩
          refine hcarry henabled hw ?_
          obtain rfl | rfl := hname
          · exact .inl hname'
          · exact .inr (hhw.symm.trans hname')

/-- Signalling bytes behind the relays: every outgoing interface can signal an MTU, the mode is
that of the request, and the MTU is no more than the one asked for and, when the mode is
enabled, than what any interface carries. -/
theorem signalled_clampedAlong {data : Bytes} {mtu' : Nat}
    (hfound : ∀ x ∈ relays, (findInterface x.state.interfaces x.down).isSome = true)
    (h : Link.mtuFromLrPacket (clampedAlong relays data) = some mtu') :
    (∀ x ∈ relays, x.discoversMtu = true) ∧
      Link.modeFromLrPacket (clampedAlong relays data) = Link.modeFromLrPacket data ∧
      ∃ mtu, Link.mtuFromLrPacket data = some mtu ∧ mtu' ≤ mtu ∧
        (ModeEnabled data → ∀ x ∈ relays, ∀ name, name = x.up ∨ name = x.down →
          ∀ hw, hwMtuOf x.state.interfaces name = some hw → mtu' ≤ hw) := by
  induction relays generalizing data with
  | nil => exact ⟨by simp, rfl, mtu', h, le_rfl, by simp⟩
  | cons x relays ih =>
      change Link.mtuFromLrPacket (clampedAlong relays (x.clampedData data)) = some mtu' at h
      obtain ⟨hrest, hmode, mtu₁, hmtu₁, hle₁, hcarry₁⟩ :=
        ih (fun y hy => hfound y (List.mem_cons_of_mem _ hy)) h
      obtain ⟨hx, hmode', mtu, hmtu, hle, hcarry⟩ :=
        Relay.signalled (hfound x List.mem_cons_self) hmtu₁
      refine ⟨List.forall_mem_cons.mpr ⟨hx, hrest⟩, hmode.trans hmode', mtu, hmtu,
        hle₁.trans hle, fun henabled => List.forall_mem_cons.mpr ⟨?_, hcarry₁ fun _ => ?_⟩⟩
      · exact fun name hname hw hhw => hle₁.trans (hcarry henabled name hname hw hhw)
      · rw [hmode']
        exact henabled (by simp [hmtu])

/-- Signalling bytes stay when every outgoing interface can signal an MTU. -/
theorem signalled_of_discovers {data : Bytes} (hdata : Link.mtuFromLrPacket data ≠ none)
    (h : ∀ x ∈ relays, x.discoversMtu = true) :
    Link.mtuFromLrPacket (clampedAlong relays data) ≠ none := by
  induction relays generalizing data with
  | nil => exact hdata
  | cons x relays ih =>
      refine ih ?_ fun y hy => h y (List.mem_cons_of_mem _ hy)
      have hx := h x List.mem_cons_self
      obtain ⟨mtu, hmtu⟩ := Option.ne_none_iff_exists'.mp hdata
      cases hout : findInterface x.state.interfaces x.down with
      | none => simp [Relay.discoversMtu, hout] at hx
      | some out =>
          obtain ⟨hsent, hdiscovers, -⟩ := x.clampedData_eq hout data
          obtain ⟨mtu', hread, -⟩ := signalled_clampedData (hwMtuOf x.state.interfaces x.up)
            hmtu (hdiscovers.symm.trans hx)
          change Link.mtuFromLrPacket (x.clampedData data) ≠ none
          rw [hsent, hread]
          exact Option.some_ne_none _

end Chain

/-! ## The MTU that the destination accepts -/

/-- The link of a destination takes the MTU and the mode of the request that it got. -/
theorem mtu_of_validateRequest {c : Crypto} {owner : DestinationKey} {sign : Bytes → Bytes}
    {packet : Packet} {prv : Bytes.Block 32} {placeholder : Bytes} {now : Nat} {l : Link}
    {proof : Bytes}
    (h : Link.validateRequest c owner sign packet prv placeholder now = .ok (l, proof)) :
    l.mtu = (Link.mtuFromLrPacket packet.data).getD Link.defaultMtu ∧ ModeEnabled packet.data := by
  cases owner with
  | key publicKey =>
      obtain ⟨-, -, length, hmode, -, rfl⟩ := Link.validateRequest_eq h
      refine ⟨rfl, fun _ => ?_⟩
      unfold Link.derivedKeyLength at hmode
      split at hmode
      · rename_i hmode128
        exact .inr hmode128
      · split at hmode
        · rename_i hmode256
          exact .inl hmode256
        · cases hmode
  | _ =>
      unfold Link.validateRequest at h
      split at h <;> cases h

/-- Along a chain of relays, every relay sends a request whose mode is enabled with the same
keys, without signalling bytes exactly when its outgoing interface cannot signal an MTU, and
otherwise with the same mode and an MTU that its interfaces carry. The destination accepts an
MTU that all interfaces carry when signalling bytes reach it, and the default MTU otherwise. -/
theorem linkMtu_clamped {c : Crypto} {relays : List Relay} {frames : Nat → Bytes}
    {packets : Nat → Wire.Packet} (h : RequestPassage c relays frames packets) :
    (ModeEnabled (packets 0).data → ∀ i x, relays[i]? = some x →
      ∃ out, findInterface x.state.interfaces x.down = some out ∧
        Clamps (hwMtuOf x.state.interfaces x.up) out (packets i).data (packets (i + 1)).data) ∧
    ∀ (owner : DestinationKey) (sign : Bytes → Bytes) (prv : Bytes.Block 32)
      (placeholder : Bytes) (now : Nat) (l : Link) (proof : Bytes),
      Link.validateRequest c owner sign (linkPacket (packets relays.length)) prv placeholder now =
        .ok (l, proof) →
      (Link.mtuFromLrPacket (packets 0).data ≠ none ∧ (∀ x ∈ relays, x.discoversMtu = true) →
        (∀ mtu, Link.mtuFromLrPacket (packets 0).data = some mtu → l.mtu ≤ mtu) ∧
        ∀ x ∈ relays, ∀ name, name = x.up ∨ name = x.down →
          ∀ hw, hwMtuOf x.state.interfaces name = some hw → l.mtu ≤ hw) ∧
      (¬(Link.mtuFromLrPacket (packets 0).data ≠ none ∧ ∀ x ∈ relays, x.discoversMtu = true) →
        l.mtu = Link.defaultMtu) := by
  constructor
  · intro henabled i x hx
    have hi : i < relays.length := (List.getElem?_eq_some_iff.mp hx).1
    obtain ⟨hrequest, hdata, hfound⟩ := h.data hi.le
    obtain ⟨-, out, hout, hsent⟩ := h.step hx hrequest
    refine ⟨out, hout, ?_⟩
    rw [hsent]
    refine clamps_clampedData fun hsignalled => ?_
    obtain ⟨mtu', hread⟩ := Option.ne_none_iff_exists'.mp hsignalled
    rw [hdata] at hread ⊢
    obtain ⟨-, hmode, mtu, hmtu, -⟩ := signalled_clampedAlong hfound hread
    rw [hmode]
    exact henabled (by simp [hmtu])
  · intro owner sign prv placeholder now l proof hvalid
    obtain ⟨hmtu, henabled⟩ := mtu_of_validateRequest hvalid
    obtain ⟨-, hdata, hfound⟩ := h.data le_rfl
    rw [List.take_length] at hdata hfound
    change l.mtu = (Link.mtuFromLrPacket (packets relays.length).data).getD _ at hmtu
    change ModeEnabled (packets relays.length).data at henabled
    rw [hdata] at hmtu henabled
    constructor
    · rintro ⟨hsignalled, hdiscovers⟩
      obtain ⟨mtu', hread⟩ := Option.ne_none_iff_exists'.mp
        (signalled_of_discovers hsignalled hdiscovers)
      obtain ⟨-, hmode, mtu, hasked, hle, hcarry⟩ := signalled_clampedAlong hfound hread
      rw [hread, Option.getD_some] at hmtu
      rw [hmtu]
      refine ⟨fun asked hread' => ?_, hcarry fun _ => ?_⟩
      · obtain rfl := Option.some.inj (hasked.symm.trans hread')
        exact hle
      · rw [← hmode]
        exact henabled (by simp [hread])
    · intro hnot
      cases hread : Link.mtuFromLrPacket (clampedAlong relays (packets 0).data) with
      | none => rw [hmtu, hread, Option.getD_none]
      | some mtu' =>
          obtain ⟨hdiscovers, -, mtu, hasked, -⟩ := signalled_clampedAlong hfound hread
          exact absurd ⟨by simp [hasked], hdiscovers⟩ hnot

section Samples

set_option maxRecDepth 4096

/-- An interface with a fixed MTU, or one that cannot signal an MTU. -/
def mtuInterface (name : String) (hwMtu : Option Nat) : InterfaceStub :=
  { name := name, online := true, bitrate := none, hwMtu := hwMtu, autoconfigureMtu := false
    fixedMtu := true, mode := 0, tunnelId := none, lastInboundAt := 0 }

/-- A relay between two such interfaces, one hop before the destination. -/
def mtuRelay (left right : Option Nat) : Relay :=
  { state := { sampleRelay with
      interfaces := [mtuInterface "left" left, mtuInterface "right" right] }
    reading := .zero, up := "left", down := "right" }

/-- Frames of a request with these signalling bytes, before and behind the relay. -/
def mtuFrames (signalling sent : Bytes) (i : Nat) : Bytes :=
  if i = 0 then
    [0x52, 0x00] ++ List.replicate 16 9 ++ List.replicate 16 0 ++ [0x00] ++ List.replicate 64 3 ++
      signalling
  else [0x02, 0x01] ++ List.replicate 16 0 ++ [0x00] ++ List.replicate 64 3 ++ sent

/-- What is read of the frames. -/
def mtuPackets (signalling sent : Bytes) (i : Nat) : Wire.Packet :=
  ((Wire.Packet.holding (mtuFrames signalling sent i) none).unpack
    (Link.sampleCrypto [])).getD (.holding [] none)

/-- The link of the sample destination. -/
def mtuAccepted (signalling sent : Bytes) : Except String (Link × Bytes) :=
  Link.validateRequest (Link.sampleCrypto []) (.key (List.replicate 64 7))
    (fun _ => List.replicate 64 1) (linkPacket (mtuPackets signalling sent 1)) (Link.pad 32 [4])
    [] 0

theorem mtuPassage {left right : Option Nat} {signalling sent : Bytes}
    (hsent : ((mtuRelay left right).receive (Link.sampleCrypto []) "left"
      (mtuFrames signalling sent 0)).1.outbound = [("right", mtuFrames signalling sent 1)])
    (hreads : ∀ i ≤ 1, ((Wire.Packet.holding (mtuFrames signalling sent i) none).unpack
      (Link.sampleCrypto [])).isSome = true)
    (hrequest : (mtuPackets signalling sent 0).packetType = Wire.linkRequest) :
    RequestPassage (Link.sampleCrypto []) [mtuRelay left right] (mtuFrames signalling sent)
      (mtuPackets signalling sent) where
  travels := by
    intro i x hx
    cases i with
    | zero =>
        obtain rfl : mtuRelay left right = x := by simpa using hx
        change ("right", mtuFrames signalling sent 1) ∈
          ((mtuRelay left right).receive (Link.sampleCrypto []) "left"
            (mtuFrames signalling sent 0)).1.outbound
        rw [hsent]
        exact List.mem_singleton_self _
    | succ i => simp at hx
  reads := by
    intro i hi
    obtain ⟨q, hq⟩ := Option.isSome_iff_exists.mp (hreads i hi)
    refine ⟨none, ?_⟩
    rw [hq, mtuPackets, hq]
    rfl
  request := hrequest
  addressed := by
    intro x hx destinationHash entries hentries e he
    obtain rfl := List.mem_singleton.mp hx
    change (TransportState.start.pathTable.insert (List.replicate 16 0) _) destinationHash = _
      at hentries
    by_cases hhash : destinationHash = List.replicate 16 0
    · rw [hhash, Table.insert_self] at hentries
      obtain rfl := Option.some.inj hentries
      obtain rfl := List.mem_singleton.mp he
      rfl
    · rw [Table.insert_of_ne _ hhash] at hentries
      cases hentries

/-- The sample destination accepts the request that it gets. -/
theorem exists_accepted (signalling sent : Bytes) (h : (mtuAccepted signalling sent).isOk = true) :
    ∃ l proof, mtuAccepted signalling sent = .ok (l, proof) := by
  cases haccepted : mtuAccepted signalling sent with
  | ok accepted => exact ⟨accepted.1, accepted.2, rfl⟩
  | error e =>
      rw [haccepted] at h
      cases h

/-- A request for 500 bytes is lowered to 400. -/
theorem linkMtu_clamped_sample :
    (∃ out, findInterface (mtuRelay (some 1064) (some 400)).state.interfaces "right" = some out ∧
      Clamps (some 1064) out (mtuPackets [0x20, 0x01, 0xF4] [0x20, 0x01, 0x90] 0).data
        (mtuPackets [0x20, 0x01, 0xF4] [0x20, 0x01, 0x90] 1).data) ∧
    ∃ l proof, mtuAccepted [0x20, 0x01, 0xF4] [0x20, 0x01, 0x90] = .ok (l, proof) ∧
      l.mtu ≤ 400 := by
  have hpassage : RequestPassage (Link.sampleCrypto []) [mtuRelay (some 1064) (some 400)]
      (mtuFrames [0x20, 0x01, 0xF4] [0x20, 0x01, 0x90])
      (mtuPackets [0x20, 0x01, 0xF4] [0x20, 0x01, 0x90]) :=
    mtuPassage (by decide +kernel) (by decide +kernel) (by decide +kernel)
  obtain ⟨hclamps, haccepts⟩ := linkMtu_clamped hpassage
  refine ⟨hclamps (fun _ => .inl (by decide +kernel)) 0 _ rfl, ?_⟩
  obtain ⟨l, proof, haccepted⟩ := exists_accepted [0x20, 0x01, 0xF4] [0x20, 0x01, 0x90]
    (by decide +kernel)
  have hdiscovers : ∀ x ∈ [mtuRelay (some 1064) (some 400)], x.discoversMtu = true := by
    intro x hx
    obtain rfl := List.mem_singleton.mp hx
    decide +kernel
  obtain ⟨-, hcarry⟩ :=
    (haccepts _ _ _ _ _ l proof haccepted).1 ⟨by decide +kernel, hdiscovers⟩
  exact ⟨l, proof, haccepted, hcarry _ List.mem_cons_self "right" (.inr rfl) 400 rfl⟩

/-- A mode that is not enabled is not clamped, and a destination that gets no signalling bytes
takes the default MTU whatever the interfaces carry. -/
theorem linkMtu_clamped_false :
    (¬∀ (c : Crypto) (relays : List Relay) (frames : Nat → Bytes) (packets : Nat → Wire.Packet),
      RequestPassage c relays frames packets → ∀ i x, relays[i]? = some x →
        ∃ out, findInterface x.state.interfaces x.down = some out ∧
          Clamps (hwMtuOf x.state.interfaces x.up) out (packets i).data (packets (i + 1)).data) ∧
    ¬∀ (c : Crypto) (relays : List Relay) (frames : Nat → Bytes) (packets : Nat → Wire.Packet),
      RequestPassage c relays frames packets →
      ∀ (owner : DestinationKey) (sign : Bytes → Bytes) (prv : Bytes.Block 32)
        (placeholder : Bytes) (now : Nat) (l : Link) (proof : Bytes),
        Link.validateRequest c owner sign (linkPacket (packets relays.length)) prv placeholder
          now = .ok (l, proof) →
        ∀ x ∈ relays, ∀ name, name = x.up ∨ name = x.down → ∀ i,
          findInterface x.state.interfaces name = some i → i.discoversMtu = true →
            ∀ hw, i.hwMtu = some hw → l.mtu ≤ hw := by
  constructor
  · intro h
    have hpassage : RequestPassage (Link.sampleCrypto []) [mtuRelay (some 1064) (some 400)]
        (mtuFrames [0xA0, 0x01, 0xF4] [0xA0, 0x01, 0xF4])
        (mtuPackets [0xA0, 0x01, 0xF4] [0xA0, 0x01, 0xF4]) :=
      mtuPassage (by decide +kernel) (by decide +kernel) (by decide +kernel)
    obtain ⟨out, hout, hclamps⟩ := h _ _ _ _ hpassage 0 _ rfl
    obtain rfl := Option.some.inj hout
    obtain ⟨mtu', hread, -, -, -, hle⟩ := hclamps.signalled 500 (by decide +kernel) rfl
    have hsame : Link.mtuFromLrPacket
        (mtuPackets [0xA0, 0x01, 0xF4] [0xA0, 0x01, 0xF4] 1).data = some 500 := by decide +kernel
    obtain rfl := Option.some.inj (hread.symm.trans hsame)
    exact absurd (hle 400 rfl) (by decide)
  · intro h
    have hpassage : RequestPassage (Link.sampleCrypto []) [mtuRelay (some 400) none]
        (mtuFrames [0x20, 0x01, 0xF4] []) (mtuPackets [0x20, 0x01, 0xF4] []) :=
      mtuPassage (by decide +kernel) (by decide +kernel) (by decide +kernel)
    obtain ⟨l, proof, haccepted⟩ := exists_accepted [0x20, 0x01, 0xF4] [] (by decide +kernel)
    have hle := h _ _ _ _ hpassage _ _ _ _ _ l proof haccepted _ List.mem_cons_self "left"
      (.inl rfl) _ rfl rfl 400 rfl
    have hmtu := (mtu_of_validateRequest haccepted).1
    have hnone : Link.mtuFromLrPacket (linkPacket (mtuPackets [0x20, 0x01, 0xF4] [] 1)).data =
        none := by decide +kernel
    rw [hmtu, hnone] at hle
    exact absurd hle (by decide)

end Samples

end Reticulum.Transport
