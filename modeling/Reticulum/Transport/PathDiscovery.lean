import Reticulum.Transport.Learning
import Reticulum.Transport.ProofChain

/-!
# Path discovery along a line of nodes

A destination announces itself at the end of a line of transport nodes that do not know it
yet. Each of them learns a route and passes the announce on at its next pass, and every node
that hears the announce at the other end has a route then. The routes of the line agree, which
is what links and proofs along a chain of relays rely on.

## Implementation notes

The nodes are listed from the initiator to the destination, as in a chain of relays; the
announce goes the other way. A line is no longer than the hops that a frame can count.
-/

namespace Reticulum.Transport

open Wire (Frame DestinationType)

/-- A node of a line: it hears the announce on one side, makes a pass, and is a relay from
then on. -/
structure Learner where
  node : Instance
  identity : Bytes.Block Wire.dstLen
  up : String
  down : String
  call : Call
  pass : Pass
  later : Reading

namespace Learner

/-- What the node does with the announce, up to the end of its pass. -/
def hears (c : Crypto) (x : Learner) (raw : Bytes) : Instance × JobsOutput :=
  jobs (receive c x.node x.call raw (some x.down)).1 x.pass

/-- The node afterwards. -/
def relay (c : Crypto) (x : Learner) (raw : Bytes) : Relay where
  state := (x.hears c raw).1.toTransportState
  reading := x.later
  up := x.up
  down := x.down

/-- The node does not know the destination, and has time to pass the announce on. -/
structure Ready (x : Learner) (destinationHash : Bytes) : Prop where
  unaware : Unaware x.node.toTransportState x.call.reading x.down destinationHash
  passesOn : PassesOn x.node x.call.reading x.pass destinationHash
  identity : x.node.identityHash = some x.identity.1
  sides : x.up ≠ x.down
  lasts : x.later.now < x.call.reading.now + destinationTimeout

end Learner

/-- The announce goes along the line, last node first: the relays that the nodes become, and
the frame that leaves the first of them. -/
def spread (c : Crypto) (destinationHash raw : Bytes) : List Learner → Option (List Relay × Bytes)
  | [] => some ([], raw)
  | x :: xs => do
      let (relays, heard) ← spread c destinationHash raw xs
      let sent ← (x.hears c heard).2.rebroadcasts destinationHash
      some (x.relay c heard :: relays, sent.raw)

/-! ## The announce -/

section Announce

variable {c : Crypto} {destinationHash : Bytes} {f : Frame} {x : Learner} {e : PathEntry}
  {s : TransportState} {interfaces : List InterfaceStub}

/-- The one route of a destination is the one that is chosen, if it can be used. -/
theorem selectPathExcluding_of_single {now : ℚ} {exclude : Option String}
    (hpath : s.pathTable destinationHash = some [e])
    (husable : usable s.interfaces now exclude e = true) :
    selectPathExcluding s.pathTable s.interfaces destinationHash now exclude = some e := by
  unfold selectPathExcluding
  rw [hpath]
  simp [husable, betterPath]

/-- A route over an interface that is online can be used until it expires. -/
theorem usable_of_online {name : String} {now : ℚ} {exclude : Option String}
    (hsame : s.interfaces.map InterfaceStub.untimed = interfaces.map InterfaceStub.untimed)
    (honline : (findInterface interfaces name).map (·.online) = some true)
    (hvia : e.receivingInterface = some name) (hfresh : now < e.expires)
    (hexclude : exclude ≠ some name) : usable s.interfaces now exclude e = true := by
  have hunexpired : e.isExpired now = false := decide_eq_false (not_le.mpr hfresh)
  have husable : usable interfaces now exclude e = true := by
    unfold usable
    rw [hunexpired, hvia]
    dsimp only
    rw [honline]
    simp [hexclude]
  rw [← usable_untimed, hsame, usable_untimed]
  exact husable

/-- A relay whose route to the destination has this length and leads to this address. -/
structure Directed (x : Relay) (destinationHash : Bytes) (hops : Nat) (nextHop : Bytes) :
    Prop where
  sides : x.up ≠ x.down
  identity : x.state.identityHash.isSome = true
  route : ∃ e, selectPathExcluding x.state.pathTable x.state.interfaces destinationHash
      x.reading.now (some x.up) = some e ∧
    e.receivingInterface = some x.down ∧ e.hops.toNat = hops ∧ e.nextHop = nextHop

/-- Where the next node of the line is found: the last one has the destination itself. -/
def nextAddress (destinationHash : Bytes) (xs : List Learner) : Bytes :=
  (xs.head?.map fun x => x.identity.1).getD destinationHash

/-- The route that a node learns from a frame of the line. -/
theorem newRoute_packetOf {xs : List Learner} (hid : f.transportId = xs.head?.map Learner.identity)
    (r : Reading) (name : String) :
    (newRoute r (packetOf c f name) destinationHash).nextHop = nextAddress destinationHash xs := by
  change (f.transportId.map Subtype.val).getD destinationHash = _
  rw [hid]
  unfold nextAddress
  cases xs <;> rfl

/-- A node that hears the announce from the rest of the line is a relay towards it, and passes
the announce on. -/
theorem directed_of_ready {xs : List Learner} (hx : x.Ready destinationHash)
    (hf : AnnounceFrame c destinationHash f) (hhops : f.hops.toNat = xs.length)
    (hlt : f.hops < 127) (hid : f.transportId = xs.head?.map Learner.identity) :
    Directed (x.relay c f.encode) destinationHash (xs.length + 1)
        (nextAddress destinationHash xs) ∧
      (x.relay c f.encode).state.identityHash = some x.identity.1 ∧
      ∃ g sent, (x.hears c f.encode).2.rebroadcasts destinationHash = some sent ∧
        sent.raw = g.encode ∧ AnnounceFrame c destinationHash g ∧
        g.hops.toNat = xs.length + 1 ∧ g.transportId = some x.identity := by
  obtain ⟨hsucc, hlimit⟩ := saturatingSucc_of_lt hlt
  have hcount : (f.hops + 1).toNat = xs.length + 1 := by
    rw [(Relay.saturatingSucc_hops f).2, hhops]
  obtain ⟨hpath, hinterfaces, hidentity, hsent⟩ :=
    learns hx.unaware hx.passesOn hf hx.identity hsucc.symm hlimit
  obtain ⟨sent, hrebroadcast, hraw⟩ := Option.map_eq_some_iff.mp hsent
  refine ⟨⟨hx.sides, ?_, ?_⟩, hidentity, passedOn f x.identity (f.hops + 1) hlimit, sent,
    hrebroadcast, hraw, announceFrame_passedOn hf hlimit, hcount, rfl⟩
  · exact Option.isSome_iff_exists.mpr ⟨_, hidentity⟩
  · refine ⟨_, selectPathExcluding_of_single hpath ?_, rfl, ?_, newRoute_packetOf hid _ _⟩
    · refine usable_of_online hinterfaces hx.unaware.online rfl hx.lasts ?_
      intro heq
      exact hx.sides (Option.some.inj heq)
    · change (saturatingSucc f.hops).toNat = _
      rw [hsucc]
      exact hcount

/-- The announce reaches every node of the line. -/
theorem spread_of_ready {xs : List Learner} (hf : AnnounceFrame c destinationHash f)
    (hhops : f.hops = 0) (hid : f.transportId = none)
    (hready : ∀ x ∈ xs, x.Ready destinationHash) (hlength : xs.length < 128) :
    ∃ relays g, spread c destinationHash f.encode xs = some (relays, g.encode) ∧
      AnnounceFrame c destinationHash g ∧ g.hops.toNat = xs.length ∧
      g.transportId = xs.head?.map Learner.identity ∧ relays.length = xs.length ∧
      ∀ i y, relays[i]? = some y →
        Directed y destinationHash (xs.length - i) (nextAddress destinationHash (xs.drop (i + 1))) ∧
        y.state.identityHash = (xs[i]?).map fun x => x.identity.1 := by
  induction xs with
  | nil =>
      refine ⟨[], f, rfl, hf, ?_, hid, rfl, ?_⟩
      · rw [hhops]
        rfl
      · intro i y hy
        cases hy
  | cons x xs ih =>
      rw [List.length_cons] at hlength
      obtain ⟨relays, g, hspread, hg, hghops, hgid, hsame, hdirected⟩ :=
        ih (fun x hx => hready x (List.mem_cons_of_mem _ hx)) (by omega)
      have hlt : g.hops < 127 := by
        rw [UInt8.lt_iff_toNat_lt, hghops]
        change xs.length < 127
        omega
      obtain ⟨hfirst, hidentity, g', sent, hsent, hraw, hg', hghops', hgid'⟩ :=
        directed_of_ready (hready x (List.mem_cons_self ..)) hg hghops hlt hgid
      refine ⟨x.relay c g.encode :: relays, g', ?_, hg', hghops', hgid', ?_, ?_⟩
      · unfold spread
        rw [hspread]
        change ((x.hears c g.encode).2.rebroadcasts destinationHash).bind _ = _
        rw [hsent, Option.bind_some, hraw]
      · rw [List.length_cons, List.length_cons, hsame]
      · intro i y hy
        cases i with
        | zero =>
            obtain rfl := Option.some.inj hy
            exact ⟨hfirst, hidentity⟩
        | succ i =>
            rw [List.length_cons, Nat.add_sub_add_right]
            exact hdirected i y hy

/-- What the node after a relay of the line is called. -/
theorem identityHash_next {xs : List Learner} {relays : List Relay} {i : Nat} {y : Relay}
    (hsame : relays.length = xs.length) (hy : relays[i]? = some y)
    (hidentity : y.state.identityHash = (xs[i]?).map fun x => x.identity.1) :
    y.state.identityHash = some (nextAddress destinationHash (xs.drop i)) ∧
      (nextAddress destinationHash (xs.drop i)).length = Wire.dstLen := by
  have hi : i < xs.length := by
    rw [← hsame]
    exact (List.getElem?_eq_some_iff.mp hy).1
  have hnext : nextAddress destinationHash (xs.drop i) = xs[i].identity.1 := by
    unfold nextAddress
    rw [List.head?_drop, List.getElem?_eq_getElem hi]
    rfl
  rw [hidentity, hnext, List.getElem?_eq_getElem hi]
  exact ⟨rfl, xs[i].identity.2⟩

end Announce

/-! ## The line -/

section Line

variable {c : Crypto} {destinationHash : Bytes} {f g : Frame} {relays : List Relay}
  {address : Nat → Bytes} {i : Nat} {x : Relay}

/-- Every relay of the line is a hop closer to the destination, and its route leads to the next
one. -/
def Heads (destinationHash : Bytes) (relays : List Relay) (address : Nat → Bytes) : Prop :=
  ∀ i y, relays[i]? = some y →
    Directed y destinationHash (relays.length - i) (address (i + 1)) ∧
      y.state.identityHash = some (address i) ∧ (address i).length = Wire.dstLen

theorem agree_of_heads (h : Heads destinationHash relays address) :
    Agree destinationHash relays := by
  intro i x hx
  obtain ⟨hdirected, -, -⟩ := h i x hx
  obtain ⟨e, hroute, hvia, hhops, hnextHop⟩ := hdirected.route
  have hi := (List.getElem?_eq_some_iff.mp hx).1
  refine ⟨hdirected.sides, e, hroute, hvia, by omega, ?_⟩
  intro y hy
  rw [hnextHop]
  exact (h (i + 1) y hy).2

theorem leads_of_heads (h : Heads destinationHash relays address) :
    Leads destinationHash relays := by
  intro i x hx
  obtain ⟨hsides, e, hroute, hvia, -, hnext⟩ := agree_of_heads h i x hx
  exact ⟨(h i x hx).1.identity, hsides, e, hroute, hvia, hnext⟩

end Line

/-- Path discovery. An announce that enters a line of nodes that do not know its destination
leaves it at the other end, and the nodes are relays whose routes agree: each is a hop shorter
than the one before and leads to the next node. Every node that hears the announce there has one
route, over the interface it heard it on, with the hops of the whole line, to the first node. -/
theorem path_discovery {c : Crypto} {destinationHash : Bytes} {f : Frame} {xs : List Learner}
    (hf : AnnounceFrame c destinationHash f) (hhops : f.hops = 0) (hid : f.transportId = none)
    (hready : ∀ x ∈ xs, x.Ready destinationHash) (hlength : xs.length < 128) :
    ∃ (relays : List Relay) (g : Frame),
      spread c destinationHash f.encode xs = some (relays, g.encode) ∧
      relays.length = xs.length ∧ Agree destinationHash relays ∧ Leads destinationHash relays ∧
      ∀ (n : Instance) (call : Call) (name : String),
        Unaware n.toTransportState call.reading name destinationHash →
        ∃ e, (receive c n call g.encode (some name)).1.pathTable destinationHash = some [e] ∧
          e.hops.toNat = xs.length + 1 ∧ e.receivingInterface = some name ∧
          e.nextHop = nextAddress destinationHash xs := by
  obtain ⟨relays, g, hspread, hg, hghops, hgid, hsame, hrelays⟩ :=
    spread_of_ready hf hhops hid hready hlength
  have hheads : Heads destinationHash relays fun i =>
      nextAddress destinationHash (xs.drop i) := by
    intro i y hy
    obtain ⟨hdirected, hidentity⟩ := hrelays i y hy
    rw [hsame]
    exact ⟨hdirected, identityHash_next hsame hy hidentity⟩
  refine ⟨relays, g, hspread, hsame, agree_of_heads hheads, leads_of_heads hheads, ?_⟩
  intro n call name hunaware
  have hlearnt := learnt_of_unaware hunaware hg
  refine ⟨_, hlearnt.path, ?_, rfl, newRoute_packetOf hgid call.reading name⟩
  change (saturatingSucc g.hops).toNat = _
  rw [(Relay.saturatingSucc_hops g).1, (Relay.saturatingSucc_hops g).2, hghops]

section Samples

set_option maxRecDepth 4000

theorem headerTypeOf_zeroAnnounce : Wire.headerTypeOf 0x01 ≠ Wire.header2 := by decide

theorem zeroAnnounceData_ne : zeroAnnounceData ≠ [] := by decide

/-- The announce of the zero destination as it leaves it. -/
def zeroAnnounceFrame : Frame :=
  { chainFrame 0x01 0x00 zeroAnnounceData zeroAnnounceData_ne headerTypeOf_zeroAnnounce with
    destinationHash := ⟨List.replicate 16 0, List.length_replicate⟩ }

theorem announceFrame_zero :
    AnnounceFrame zeroCrypto (List.replicate 16 0) zeroAnnounceFrame where
  packetType := by decide
  single := by decide
  access := by decide
  destination := rfl
  context := by decide
  size := by decide
  valid := by decide +kernel

/-- A call at time zero. -/
def zeroCall : Call := { reading := .zero, randomHash := [], tunnelPaths := [] }

theorem unaware_idle (identity : Option Bytes) {name : String}
    (h : name = "left" ∨ name = "right") :
    Unaware { idleRelay with identityHash := identity }.toTransportState .zero name
      (List.replicate 16 0) where
  path := rfl
  foreign := List.not_mem_nil
  control := rfl
  listens := rfl
  quiet entry hentry := by cases hentry
  online := by
    obtain rfl | rfl := h
    · rfl
    · rfl

/-- A relay between two interfaces, with an identity of one repeated byte. -/
def zeroLearner (byte : UInt8) : Learner where
  node := { idleRelay with identityHash := some (List.replicate 16 byte) }
  identity := ⟨List.replicate 16 byte, List.length_replicate⟩
  up := "left"
  down := "right"
  call := zeroCall
  pass := plainPass 2
  later := { Reading.zero with now := 3 }

theorem ready_zeroLearner (byte : UInt8) : (zeroLearner byte).Ready (List.replicate 16 0) where
  unaware := unaware_idle _ (.inr rfl)
  passesOn := by
    have hdue : idleRelay.announcesLastChecked + idleRelay.announcesCheckInterval < 2 := by
      decide +kernel
    have hlater : (0 : ℚ) < 2 ∧ 0 + 0 * pathfinderRw < 2 := by decide +kernel
    have hfresh : 2 < 0 + roamingPathTime := by decide +kernel
    refine ⟨rfl, ?_, hdue, hlater, hfresh⟩
    intro linkId entry hentry
    cases hentry
  identity := rfl
  sides := (by decide : "left" ≠ "right")
  lasts := (by decide +kernel : 3 < 0 + destinationTimeout)

/-- Two relays learn of the zero destination, and a node behind them has a route of three hops. -/
theorem path_discovery_two : ∃ (relays : List Relay) (g : Frame),
    spread zeroCrypto (List.replicate 16 0) zeroAnnounceFrame.encode
        [zeroLearner 9, zeroLearner 8] = some (relays, g.encode) ∧
      Agree (List.replicate 16 0) relays ∧
      ∃ e, (receive zeroCrypto idleRelay zeroCall g.encode (some "left")).1.pathTable
          (List.replicate 16 0) = some [e] ∧
        e.hops.toNat = 3 ∧ e.nextHop = List.replicate 16 9 := by
  have hready : ∀ x ∈ [zeroLearner 9, zeroLearner 8], x.Ready (List.replicate 16 0) := by
    intro x hx
    obtain rfl | rfl : x = zeroLearner 9 ∨ x = zeroLearner 8 := by simpa using hx
    · exact ready_zeroLearner 9
    · exact ready_zeroLearner 8
  obtain ⟨relays, g, hspread, -, hagree, -, hhears⟩ :=
    path_discovery announceFrame_zero rfl rfl hready (by simp)
  obtain ⟨e, hpath, hhops, -, hnext⟩ := hhears idleRelay zeroCall "left"
    (unaware_idle idleRelay.identityHash (.inl rfl))
  exact ⟨relays, g, hspread, hagree, e, hpath, hhops, hnext⟩

end Samples

end Reticulum.Transport
