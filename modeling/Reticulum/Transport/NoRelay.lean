import Reticulum.Transport.Station

/-!
# A node that is not a transport node

What a node hands to its interfaces is of its own making, or was received and is
passed on. Without transport nothing is to be passed on. The announce table, the
answers to path requests and the local clients ask for transport; the blocks that
forward a packet do not.

## Implementation notes

The announce table, the link table and the reverse table of the start have nothing of
other nodes, as after `Transport::start`. The path table is any.
-/

namespace Reticulum.Transport

open Runs

/-- A node without transport and without local clients, that has nothing of other nodes to pass
on. -/
structure Standalone (n : Instance) : Prop where
  transportEnabled : n.transportEnabled = false
  localClientInterfaces : n.localClientInterfaces = []
  announceTable : ∀ hash, n.announceTable hash = none
  pendingLocalAnnounces : n.pendingLocalAnnounces = []
  linkTable : ∀ linkId entry, n.linkTable linkId = some entry → entry.nextHopInterface = none
  reverseTable : ∀ hash entry, n.reverseTable hash = some entry → entry.outboundInterface = none

/-- The path table has no route to the destination that has not expired. -/
def Unrouted (s : TransportState) (now : ℚ) (destinationHash : Bytes) : Prop :=
  ∀ routes, s.pathTable destinationHash = some routes → ∀ e ∈ routes, e.isExpired now = true

/-- A frame that comes in is an announce, is let go or left to a handler, or there is no route to
its destination. -/
def StaysHere (c : Crypto) (s : Station) : StationEvent → Prop
  | .receive call raw receivingInterface =>
      ∀ p, readFrame c raw (some receivingInterface) = some p →
        p.packetType ≠ Wire.announce → packetFilter s.state.toTransportState p = true →
        controlAspects s.state.toTransportState p = none →
        cachedPacket c s.state.toTransportState p = none →
        ∀ destinationHash, p.destinationHash = some destinationHash →
          Unrouted s.state.toTransportState call.reading.now destinationHash
  | _ => True

/-! ## No route -/

section Routes

variable {c : Crypto} {s : TransportState} {r : Reading} {p : Wire.Packet}
  {destinationHash : Bytes}

section

variable (h : Unrouted s r.now destinationHash)

include h

theorem Unrouted.selectPathExcluding
    (exclude : Option String) :
    selectPathExcluding s.pathTable s.interfaces destinationHash r.now exclude = none := by
  apply Option.eq_none_iff_forall_ne_some.mpr
  intro e hselect
  obtain ⟨routes, hroutes, hmem, husable⟩ := usable_of_selectPathExcluding hselect
  unfold usable at husable
  rw [h routes hroutes e hmem] at husable
  cases husable

theorem Unrouted.transitRoute :
    (transitRoute s r p destinationHash).2.2 = none := by
  unfold Transport.transitRoute
  rw [h.selectPathExcluding]

theorem Unrouted.pathVia :
    pathVia s r destinationHash = none := by
  have hnone : ((s.pathTable destinationHash).getD []).filter (fun e => !e.isExpired r.now) =
      [] := by
    cases hroutes : s.pathTable destinationHash with
    | none => rfl
    | some routes =>
        apply List.filter_eq_nil_iff.mpr
        intro e he
        rw [h routes hroutes e he]
        exact Bool.false_ne_true
  unfold Transport.pathVia
  rw [hnone]
  rfl

end

/-- The link table and the reverse table lead nowhere. -/
structure Undirected (s : TransportState) : Prop where
  linkTable : ∀ linkId entry, s.linkTable linkId = some entry → entry.nextHopInterface = none
  reverseTable : ∀ hash entry, s.reverseTable hash = some entry → entry.outboundInterface = none

/-- An entry without a next hop relays nothing that came from an interface. -/
theorem relayInterface_eq_none {entry : LinkEntry} {name : String}
    (hentry : entry.nextHopInterface = none) (hreceived : p.receivingInterface = some name) :
    relayInterface entry p = none := by
  unfold relayInterface
  rw [hentry, hreceived]
  repeat' split
  all_goals first
    | rfl
    | rename_i h
      cases h.1

/-- Without a route no block queues a frame. -/
theorem Undirected.queued (h : Undirected s) (hunrouted : Unrouted s r.now destinationHash)
    {name : String} (hreceived : p.receivingInterface = some name) :
    queued c s r p destinationHash = [] := by
  have hvia := hunrouted.pathVia
  have htransit : transitVia s r p destinationHash = none := by
    unfold transitVia
    rw [hunrouted.transitRoute, ite_self]
  have hlink : linkVia s p destinationHash = none := by
    unfold linkVia
    cases hentry : s.linkTable destinationHash with
    | none => rfl
    | some entry => exact relayInterface_eq_none (h.linkTable _ _ hentry) hreceived
  have hrelay : relayVia s r p destinationHash = none := by
    unfold relayVia
    rw [hlink, hvia]
    exact ite_self none
  have hdata : dataVia s r p destinationHash = none := by
    unfold dataVia
    rw [hvia, ite_self]
  have hlrproof : lrproofVia c s p destinationHash = none := by
    unfold lrproofVia
    cases hentry : s.linkTable destinationHash with
    | none => rfl
    | some entry =>
        apply if_neg
        rintro ⟨-, hback, -⟩
        rw [h.linkTable _ _ hentry, hreceived] at hback
        cases hback
  have hback : ∀ found : Option ReverseEntry,
      (∀ entry, found = some entry → entry.outboundInterface = none) →
        returnVia s r p destinationHash found = none := by
    intro found hfound
    unfold returnVia
    cases found with
    | none =>
        unfold selectPath
        rw [hunrouted.selectPathExcluding]
        rfl
    | some entry =>
        apply if_neg
        rw [hfound entry rfl, hreceived]
        exact Option.some_ne_none name
  have hproof : proofVia c s r p destinationHash = none := by
    unfold proofVia
    rw [hlrproof, hback]
    · rw [ite_self, ite_self, ite_self]
    · intro entry hentry
      unfold reverseEntry at hentry
      split at hentry
      · obtain rfl := Option.some.inj hentry
        exact hunrouted.transitRoute
      · exact h.reverseTable _ _ hentry
  unfold Transport.queued transitFrames
  rw [htransit, hrelay, hdata, hproof]
  rfl

end Routes

/-! ## What the calls keep -/

section Kept

variable {c : Crypto} {s s' : TransportState} {n : Instance} {r : Reading} {p : Wire.Packet}
  {destinationHash : Bytes}

theorem Undirected.of_tables (h : Undirected s) (hlink : s'.linkTable = s.linkTable)
    (hreverse : s'.reverseTable = s.reverseTable) : Undirected s' :=
  ⟨hlink ▸ h.linkTable, hreverse ▸ h.reverseTable⟩

/-- A value that is put into a table of values with a property. -/
theorem forall_insert {V : Type} {P : V → Prop} {table : Table V} {hash : Bytes} {v : V}
    (h : ∀ key w, table key = some w → P w) (hv : P v) :
    ∀ key w, table.insert hash v key = some w → P w := by
  intro key w hw
  by_cases hkey : key = hash
  · subst hkey
    rw [Table.insert_self] at hw
    exact Option.some.inj hw ▸ hv
  · rw [Table.insert_of_ne _ hkey] at hw
    exact h key w hw

theorem forall_remove {V : Type} {P : V → Prop} {table : Table V} {hash : Bytes}
    (h : ∀ key w, table key = some w → P w) :
    ∀ key w, table.remove hash key = some w → P w := by
  intro key w hw
  unfold Table.remove at hw
  rw [Function.update_apply] at hw
  split at hw
  · cases hw
  · exact h key w hw

section

variable (h : Undirected s)

include h

/-- Transit forwarding without a route writes entries that lead nowhere. -/
theorem Undirected.transit (hdest : p.destinationHash = some destinationHash)
    (htype : p.packetType ≠ Wire.announce) (hunrouted : Unrouted s r.now destinationHash) :
    Undirected (transit c s r (injectTransportId s p)).1 := by
  rw [transit_inject hdest htype]
  split
  · dsimp only
    rw [hunrouted.transitRoute]
    unfold noteTransit
    constructor
    · dsimp only
      split
      · exact forall_insert h.linkTable rfl
      · exact h.linkTable
    · dsimp only
      split
      · exact h.reverseTable
      · exact forall_insert h.reverseTable rfl
  · exact h

theorem Undirected.relayLink : Undirected (relayLink s r p).1 := by
  unfold Transport.relayLink
  split
  · split
    · exact h
    · split
      · rename_i destinationHash _ _ entry name hfound
        obtain ⟨entry', hentry, hrelay⟩ := Option.bind_eq_some_iff.mp hfound
        obtain ⟨name', -, heq⟩ := Option.map_eq_some_iff.mp hrelay
        obtain ⟨rfl, rfl⟩ := Prod.mk.inj heq
        have hnone : entry'.nextHopInterface = none := h.linkTable _ _ hentry
        exact ⟨forall_insert h.linkTable hnone, h.reverseTable⟩
      · exact h
  · exact h

theorem Undirected.handleData : Undirected (handleData s r p).1 := by
  unfold Transport.handleData
  repeat' split
  all_goals exact h.of_tables rfl rfl

theorem Undirected.handleProof : Undirected (handleProof c s r p).1 := by
  have hproof : Undirected (relayLrproof c s p).1 := by
    unfold relayLrproof
    split
    · exact h
    split
    · exact h
    rename_i entry hentry
    have hnone : entry.nextHopInterface = none := h.linkTable _ _ hentry
    split
    · split
      · exact h
      · exact ⟨forall_insert h.linkTable hnone, h.reverseTable⟩
    · exact h
  have hreturn : Undirected (returnProof s r p).1 := by
    unfold returnProof
    repeat' split
    all_goals first
      | exact h
      | exact ⟨h.linkTable, forall_remove h.reverseTable⟩
  unfold Transport.handleProof
  split
  · split
    · dsimp only
      split
      · exact hproof
      · exact h
    · exact hreturn
  · exact h

/-- A packet without a route leaves the tables as they are, or with entries that lead nowhere. -/
theorem Undirected.inboundPacket
    (hdest : p.destinationHash = some destinationHash)
    (htype : p.packetType ≠ Wire.announce) (hunrouted : Unrouted s r.now destinationHash) :
    Undirected (inboundPacket c s r p).2 := by
  obtain ⟨hashlist, hremember⟩ := rememberPacketHash_eq s p
  have hkept : Undirected (rememberPacketHash s p) := by
    rw [hremember]
    exact h.of_tables rfl rfl
  have hstill : Unrouted (rememberPacketHash s p) r.now destinationHash := by
    rw [hremember]
    exact hunrouted
  exact (hkept.transit hdest htype hstill).relayLink.handleData.handleProof

end

end Kept

/-! ## A frame that comes in -/

section Receive

variable {c : Crypto} {s s' : TransportState} {n n' : Instance} {call : Call} {r : Reading}
  {p : Wire.Packet}

theorem Standalone.undirected (h : Standalone n) : Undirected n.toTransportState :=
  ⟨h.linkTable, h.reverseTable⟩

/-- The tables of other nodes' traffic and the settings are the same. -/
structure SameRelaying (s s' : TransportState) : Prop where
  transportEnabled : s'.transportEnabled = s.transportEnabled
  localClientInterfaces : s.localClientInterfaces = [] → s'.localClientInterfaces = []
  announceTable : s'.announceTable = s.announceTable
  pendingLocalAnnounces : s'.pendingLocalAnnounces = s.pendingLocalAnnounces

theorem Standalone.of_same (h : Standalone n)
    (hsame : SameRelaying n.toTransportState n'.toTransportState)
    (hundirected : Undirected n'.toTransportState) : Standalone n' where
  transportEnabled := hsame.transportEnabled.trans h.transportEnabled
  localClientInterfaces := hsame.localClientInterfaces h.localClientInterfaces
  announceTable hash := (congrFun hsame.announceTable hash).trans (h.announceTable hash)
  pendingLocalAnnounces := hsame.pendingLocalAnnounces.trans h.pendingLocalAnnounces
  linkTable := hundirected.linkTable
  reverseTable := hundirected.reverseTable

theorem SameRelaying.trans {s'' : TransportState} (h : SameRelaying s s')
    (h' : SameRelaying s' s'') : SameRelaying s s'' where
  transportEnabled := h'.transportEnabled.trans h.transportEnabled
  localClientInterfaces hnone := h'.localClientInterfaces (h.localClientInterfaces hnone)
  announceTable := h'.announceTable.trans h.announceTable
  pendingLocalAnnounces := h'.pendingLocalAnnounces.trans h.pendingLocalAnnounces

theorem Noted.sameRelaying (h : Noted s s') :
    SameRelaying s s' ∧ s'.linkTable = s.linkTable ∧ s'.reverseTable = s.reverseTable := by
  obtain ⟨interfaces, clients, rates, rfl, -, hclients⟩ := h
  refine ⟨⟨rfl, fun hnone => ?_, rfl, rfl⟩, rfl, rfl⟩
  rw [hnone] at hclients
  exact List.map_eq_nil_iff.mp hclients

theorem Forwarded.sameRelaying (h : Forwarded s s') : SameRelaying s s' := by
  obtain ⟨_, _, _, _, rfl, -, -⟩ := h
  exact ⟨rfl, id, rfl, rfl⟩

/-- An announce is not passed on, and none is queued. -/
theorem processAnnounce_standalone (htransport : s.transportEnabled = false)
    (hclients : s.localClientInterfaces = []) :
    (processAnnounce s r p).2 = [] ∧
      ((processAnnounce s r p).1 = s ∨
        ∃ hash, (processAnnounce s r p).1 = admitAnnounce s r p hash) := by
  unfold processAnnounce
  split
  · exact ⟨rfl, .inl rfl⟩
  rename_i hash _
  have hheard : heardRebroadcast s r p hash = s := by
    unfold heardRebroadcast
    rw [htransport, Bool.false_and]
    rfl
  have hanswer : answerDiscovery (admitAnnounce s r p hash) p hash =
      (admitAnnounce s r p hash, []) := by
    unfold answerDiscovery
    rw [if_neg]
    exact fun henabled => Bool.false_ne_true (htransport.symm.trans henabled)
  have hlocal : fromLocalClient (admitAnnounce s r p hash) p = false := by
    have hnone : (admitAnnounce s r p hash).localClientInterfaces = [] := hclients
    unfold fromLocalClient
    rw [hnone]
    cases p.receivingInterface <;> rfl
  have hqueue : ∀ newEmission, queueRebroadcast (admitAnnounce s r p hash) r p hash newEmission =
      admitAnnounce s r p hash := by
    intro newEmission
    have hdisabled : (admitAnnounce s r p hash).transportEnabled = false := htransport
    unfold queueRebroadcast
    rw [hlocal, hdisabled]
    rfl
  have hforward : forwardToLocalClients (admitAnnounce s r p hash) r p hash =
      (admitAnnounce s r p hash, []) := by
    have hnone : (admitAnnounce s r p hash).localClientInterfaces = [] := hclients
    unfold forwardToLocalClients
    rw [hnone]
    rfl
  dsimp only
  rw [hheard]
  split
  · exact ⟨rfl, .inl rfl⟩
  · rw [hanswer]
    dsimp only
    rw [hqueue, hforward]
    exact ⟨rfl, .inr ⟨hash, rfl⟩⟩

/-- An announce that comes in. -/
theorem inboundAnnounce_standalone (htransport : s.transportEnabled = false)
    (hclients : s.localClientInterfaces = []) :
    (inboundAnnounce c s r p).1.outbound = [] ∧ SameRelaying s (inboundAnnounce c s r p).2 ∧
      (inboundAnnounce c s r p).2.linkTable = s.linkTable ∧
      (inboundAnnounce c s r p).2.reverseTable = s.reverseTable := by
  obtain ⟨validated, known, ratchets, hashlist, -, hcases⟩ := inboundAnnounce_cases c s r p
  obtain ⟨-, hstate, hsent⟩ | ⟨-, hstate, hsent⟩ := hcases
  · rw [hstate, hsent]
    obtain ⟨hnothing, hsame | ⟨hash, hadmitted⟩⟩ := processAnnounce_standalone (r := r) (p := p)
      (s := { s with
        validatedAnnounceHashes := validated, knownDestinations := known
        knownRatchets := ratchets, packetHashlist := hashlist }) htransport hclients
    · rw [hsame]
      exact ⟨hnothing, ⟨rfl, id, rfl, rfl⟩, rfl, rfl⟩
    · rw [hadmitted]
      exact ⟨hnothing, ⟨rfl, id, rfl, rfl⟩, rfl, rfl⟩
  · rw [hstate, hsent]
    exact ⟨rfl, ⟨rfl, id, rfl, rfl⟩, rfl, rfl⟩

/-- A path request is answered for the destinations of this node, and otherwise ignored. -/
theorem pathRequestHandler_standalone (h : Standalone n) :
    ((pathRequestHandler c n call p).1 = n ∨
      ∃ unique, (pathRequestHandler c n call p).1 = recordTag n unique) ∧
    (pathRequestHandler c n call p).2.frames = [] ∧
    (pathRequestHandler c n call p).2.requests = [] := by
  obtain heq | ⟨tag, -, -, -, heq⟩ := pathRequestHandler_cases c n call p
  · rw [heq]
    exact ⟨.inl rfl, rfl, rfl⟩
  rw [heq]
  generalize uniqueTag (parseRequest p.data).destinationHash tag = unique
  have hclients : (recordTag n unique).localClientInterfaces = [] := h.localClientInterfaces
  have hdisabled : (recordTag n unique).transportEnabled = false := h.transportEnabled
  have hlocal : fromLocalClient n.toTransportState p = false := by
    unfold fromLocalClient
    rw [h.localClientInterfaces]
    cases p.receivingInterface <;> rfl
  have hsearches : searchesFor (recordTag n unique) p.receivingInterface = false := by
    unfold searchesFor
    rw [hdisabled, Bool.false_and]
  unfold pathRequest
  dsimp only
  rw [hsearches, hlocal, hclients, List.isEmpty_nil, if_pos rfl, hdisabled]
  split
  · exact ⟨.inr ⟨unique, rfl⟩, rfl, rfl⟩
  · unfold requestUnknown
    rw [hclients]
    exact ⟨.inr ⟨unique, rfl⟩, rfl, rfl⟩

/-- A frame that stays here: nothing is passed on, and the node has still nothing to pass on. -/
theorem receive_standalone (h : Standalone n) {raw : Bytes} {receivingInterface : String}
    (hstays : StaysHere c (.start n) (.receive call raw receivingInterface)) :
    Standalone (receive c n call raw (some receivingInterface)).1 ∧
      (receive c n call raw (some receivingInterface)).2.1.outbound = [] ∧
      (receive c n call raw (some receivingInterface)).2.2.frames = [] := by
  let result := inbound c n.toTransportState call.reading raw (some receivingInterface)
  obtain ⟨hout, hstate⟩ : result.1.outbound = [] ∧
      Standalone { n with toTransportState := result.2 } := by
    obtain ⟨hquiet, hnoted⟩ | ⟨p, hread, ⟨htype, heq⟩ | ⟨htype, heq⟩⟩ :=
      inbound_cases c n.toTransportState call.reading raw (some receivingInterface)
    · obtain ⟨hsame, hlink, hreverse⟩ := hnoted.sameRelaying
      refine ⟨?_, h.of_same hsame (h.undirected.of_tables hlink hreverse)⟩
      change result.1.isQuiet = true at hquiet
      cases hresult : result.1 with
      | processed effects =>
          rw [hresult] at hquiet
          cases hquiet
      | _ => rfl
    · obtain ⟨hsame, hlink, hreverse⟩ :=
        (noted_admitted (s := n.toTransportState) (r := call.reading) (p := p)).sameRelaying
      obtain ⟨hnothing, hsame', hlink', hreverse'⟩ := inboundAnnounce_standalone (c := c)
        (r := call.reading) (p := hopped p) (hsame.transportEnabled.trans h.transportEnabled)
        (hsame.localClientInterfaces h.localClientInterfaces)
      have hresult : result = _ := heq
      rw [hresult]
      exact ⟨hnothing, h.of_same (hsame.trans hsame')
        (h.undirected.of_tables (hlink'.trans hlink) (hreverse'.trans hreverse))⟩
    · obtain ⟨hsame, hlink, hreverse⟩ :=
        (noted_admitted (s := n.toTransportState) (r := call.reading) (p := p)).sameRelaying
      obtain ⟨⟨destinationHash, hdest⟩, -⟩ := fields_of_readFrame hread
      obtain ⟨hfilter, hcontrol, hcached⟩ :=
        passes_of_processed hread htype (congrArg Prod.fst heq)
      have hunrouted : Unrouted (admitted n.toTransportState call.reading p) call.reading.now
          destinationHash := by
        obtain ⟨_, _, _, hadmitted, -, -⟩ :=
          noted_admitted (s := n.toTransportState) (r := call.reading) (p := p)
        rw [hadmitted]
        exact hstays p hread htype hfilter hcontrol hcached destinationHash hdest
      have hundirected := h.undirected.of_tables hlink hreverse
      have hreceived : p.receivingInterface = some receivingInterface :=
        receivingInterface_of_readFrame hread
      have hresult : result = _ := heq
      rw [hresult]
      refine ⟨?_, h.of_same (hsame.trans Forwarded.inboundPacket.sameRelaying)
        (hundirected.inboundPacket hdest htype hunrouted)⟩
      change (inboundPacket c _ _ (hopped p)).1.outbound = []
      rw [outbound_of_inboundPacket (p := hopped p) hdest htype]
      exact hundirected.queued hunrouted hreceived
  obtain ⟨houtcome, hafter⟩ := receive_cases c n call raw (some receivingInterface)
  have hanswers : ∀ p,
      (pathRequestHandler c { n with toTransportState := result.2 } call p).2.frames = [] :=
    fun p => (pathRequestHandler_standalone hstate).2.1
  refine ⟨?_, (congrArg Outcome.outbound houtcome).trans hout, ?_⟩
  · obtain heq | ⟨p, -, heq⟩ | ⟨p, -, heq⟩ := hafter
    · rw [heq]
      exact hstate
    · rw [heq]
      obtain hsame | ⟨unique, hsame⟩ := (@pathRequestHandler_standalone c _ call p hstate).1
      · rw [hsame]
        exact hstate
      · rw [hsame]
        exact hstate.of_same ⟨rfl, id, rfl, rfl⟩ hstate.undirected
    · rw [heq]
      unfold tunnelSynthesizeHandler
      split
      · exact hstate
      · obtain ⟨_, _, _, _, htunnel⟩ := handleTunnel_eq result.2 call.reading _ _ call.tunnelPaths
        refine hstate.of_same ?_ ?_
        · dsimp only
          rw [htunnel]
          exact ⟨rfl, id, rfl, rfl⟩
        · dsimp only
          rw [htunnel]
          exact hstate.undirected.of_tables rfl rfl
  · unfold receive
    dsimp only
    split
    · split
      · exact hanswers _
      · split <;> rfl
    · rfl

end Receive

/-! ## Runs -/

section Runs

variable {c : Crypto} {n : Instance} {s s' : Station} {event : StationEvent}

/-- No stage of a pass gives an entry a way to go. -/
theorem undirected_keptByStages (pass : Pass) :
    KeptByStages pass fun n => Undirected n.toTransportState := by
  refine .of_queues (fun _ _ h => h.of_tables rfl rfl) ?_ ?_ fun n h =>
    ⟨fun linkId entry hentry => h.linkTable linkId entry (Option.filter_eq_some_iff.mp hentry).1,
      fun hash entry hentry => h.reverseTable hash entry (Option.filter_eq_some_iff.mp hentry).1⟩
  · intro n requests hash h
    unfold closeLink
    dsimp only
    repeat' split
    all_goals exact h.of_tables rfl rfl
  · intro n requests task h
    unfold runTask markPathUnresponsive expirePath
    dsimp only
    repeat' split
    all_goals exact h.of_tables rfl rfl

/-- A pass has nothing to pass on. -/
theorem jobs_standalone (h : Standalone n) (pass : Pass) :
    Standalone (jobs n pass).1 ∧ (jobs n pass).2.frames = [] ∧
      ∀ hash, (jobs n pass).2.rebroadcasts hash = none := by
  have hpassed := jobs_passed n pass
  have hundirected : Undirected (jobs n pass).1.toTransportState :=
    (undirected_keptByStages pass).jobs h.undirected
  have hdrained : (drainLocalAnnounces n pass.now).1.pendingLocalAnnounces = [] ∧
      (drainLocalAnnounces n pass.now).2 = [] := by
    unfold drainLocalAnnounces
    rw [h.pendingLocalAnnounces, List.mergeSort_nil]
    exact ⟨rfl, rfl⟩
  have hqueue : ∀ hash, (rebroadcastAnnounces n pass.now).1.announceTable hash = none ∧
      (rebroadcastAnnounces n pass.now).2 hash = none := by
    intro hash
    unfold rebroadcastAnnounces
    split
    · dsimp only
      rw [h.announceTable hash]
      exact ⟨rfl, rfl⟩
    · exact ⟨h.announceTable hash, rfl⟩
  refine ⟨⟨hpassed.transportEnabled.trans h.transportEnabled,
    hpassed.localClientInterfaces.trans h.localClientInterfaces, fun hash => ?_,
    hpassed.pendingLocalAnnounces.trans hdrained.1, hundirected.linkTable,
    hundirected.reverseTable⟩,
    hpassed.frames.trans hdrained.2, fun hash => ?_⟩
  · rw [hpassed.announceTable]
    exact (hqueue hash).1
  · rw [hpassed.rebroadcasts]
    exact (hqueue hash).2

/-- A node that has nothing to pass on, and has passed on nothing. -/
structure Alone (s : Station) : Prop where
  standalone : Standalone s.state
  original : s.Original

theorem Alone.goesOn (h : Alone s) {state : Instance} (hstate : Standalone state)
    {dispatched : List Dispatch} (hown : ∀ d ∈ dispatched, d.isOwn = true) :
    Alone (s.goesOn state dispatched) where
  standalone := hstate
  original d hd := (List.mem_append.mp hd).elim (h.original d) (hown d)

theorem isOwn_dispatched {answer : Answer} (h : answer.frames = []) :
    ∀ d ∈ answer.dispatched, d.isOwn = true := by
  intro d hd
  unfold Answer.dispatched relayed at hd
  rw [h, List.map_nil, List.nil_append] at hd
  obtain hd | hd := List.mem_append.mp hd
  · obtain ⟨_, -, rfl⟩ := List.mem_map.mp hd
    rfl
  · obtain ⟨_, -, rfl⟩ := List.mem_map.mp hd
    rfl

/-- A packet of this node is sent. -/
theorem Alone.send (h : Alone s) (r : Reading) (p : Wire.Packet) (destinationHash : Bytes)
    (broadcast : List String) : Alone (s.send r p destinationHash broadcast) := by
  unfold Station.send
  split
  · obtain ⟨_, _, hsent⟩ := sendAlong_eq r p destinationHash
      (selectAllPaths s.state.pathTable s.state.interfaces destinationHash r.now)
      s.state.toTransportState
    apply h.goesOn
    · refine h.standalone.of_same ?_ ?_
      · dsimp only [outbound]
        rw [hsent]
        exact ⟨rfl, id, rfl, rfl⟩
      · dsimp only [outbound]
        rw [hsent]
        exact h.standalone.undirected.of_tables rfl rfl
    · intro d hd
      obtain hd | hd := List.mem_append.mp hd
      · obtain ⟨_, -, rfl⟩ := List.mem_map.mp hd
        rfl
      · obtain ⟨_, -, rfl⟩ := List.mem_map.mp hd
        rfl
  · apply h.goesOn h.standalone
    intro d hd
    obtain ⟨_, -, rfl⟩ := List.mem_map.mp hd
    rfl

/-- One call. -/
theorem Alone.step (h : Alone s) (hstays : StaysHere c s event)
    (hstep : s.step c event = some s') : Alone s' := by
  cases event with
  | receive call raw receivingInterface =>
      obtain rfl := Option.some.inj hstep
      obtain ⟨hstate, hout, hframes⟩ := receive_standalone h.standalone hstays
      apply h.goesOn hstate
      rw [hout]
      exact isOwn_dispatched hframes
  | requestPath reading request =>
      obtain rfl := Option.some.inj hstep
      apply h.goesOn
      · exact h.standalone.of_same ⟨rfl, id, rfl, rfl⟩ h.standalone.undirected
      · intro d hd
        obtain ⟨_, -, rfl⟩ := List.mem_map.mp hd
        rfl
  | announce answer =>
      obtain rfl := Option.some.inj hstep
      apply h.goesOn h.standalone
      intro d hd
      obtain rfl := List.mem_singleton.mp hd
      rfl
  | send reading packet destinationHash broadcast =>
      obtain rfl := Option.some.inj hstep
      exact h.send reading packet destinationHash broadcast
  | jobs pass order =>
      obtain rfl := Option.some.inj hstep
      obtain ⟨hstate, hframes, hrebroadcasts⟩ := jobs_standalone h.standalone pass
      refine h.goesOn hstate fun d hd => ?_
      unfold JobsOutput.dispatched relayed at hd
      rw [hframes, List.filterMap_eq_nil_iff.mpr fun hash _ => hrebroadcasts hash] at hd
      obtain ⟨hash, -, hd⟩ := List.mem_filterMap.mp hd
      obtain ⟨_, -, rfl⟩ := Option.map_eq_some_iff.mp hd
      rfl

/-- For every node without transport, local clients and traffic of other nodes, with any path
table and identity, and every run of calls in which each frame stays here: all that the node has
dispatched is its own. -/
theorem nothing_relayed (c : Crypto) {n : Instance} (hn : Standalone n) (es : List StationEvent)
    (hes : Meets (Station.step c) (StaysHere c) (.start n) es) :
    Always (Station.step c) Station.Original (.start n) es := by
  have hstart : Alone (.start n) := ⟨hn, fun d hd => absurd hd List.not_mem_nil⟩
  intro done s hdone hrun
  exact (always_of_meets (fun _ _ _ h hstays hstep => Alone.step h hstays hstep) hstart hes done s
    hdone hrun).original

end Runs

/-! ## A leaf with two interfaces -/

section Samples

set_option maxRecDepth 4000

/-- A node without transport, between two interfaces. -/
def leafNode : Instance :=
  { Instance.start with
    toTransportState := { twoInterfaces with identityHash := some (List.replicate 16 9) } }

/-- The call for a frame. -/
def leafCall : Call := { reading := .zero, randomHash := [], tunnelPaths := [] }

/-- A data packet for the destination whose hash repeats this byte. -/
def leafData (destination : UInt8) : Bytes :=
  [0x00, 0x00] ++ List.replicate 16 destination ++ [0x00, 0x07]

/-- The zero destination is announced on the left, and data comes in on the right. -/
def leafEvents (destination : UInt8) : List StationEvent :=
  [.receive leafCall (zeroFrame 1) "left", .receive leafCall (leafData destination) "right"]

theorem standalone_leafNode : Standalone leafNode where
  transportEnabled := rfl
  localClientInterfaces := rfl
  announceTable _ := rfl
  pendingLocalAnnounces := rfl
  linkTable _ _ h := by cases h
  reverseTable _ _ h := by cases h

/-- Data for a destination without a route goes nowhere. -/
theorem nothing_relayed_leaf :
    Always (Station.step zeroCrypto) Station.Original (.start leafNode) (leafEvents 5) := by
  refine nothing_relayed zeroCrypto standalone_leafNode _ ?_
  rintro s ⟨⟩
  refine ⟨?_, ?_⟩
  · intro p hread htype
    have hannounce : (readFrame zeroCrypto (zeroFrame 1) (some "left")).map (·.packetType) =
        some Wire.announce := by decide +kernel
    rw [hread] at hannounce
    exact absurd (Option.some.inj hannounce) htype
  rintro s ⟨⟩
  refine ⟨?_, True.intro⟩
  intro p hread _ _ _ _ destinationHash hdest routes hroutes
  have hdata : (readFrame zeroCrypto (leafData 5) (some "right")).map (·.destinationHash) =
      some (some (List.replicate 16 5)) := by decide +kernel
  rw [hread] at hdata
  obtain rfl := Option.some.inj (hdest.symm.trans (Option.some.inj hdata))
  have hnone : ((Station.start leafNode).receive zeroCrypto leafCall (zeroFrame 1)
      "left").state.pathTable (List.replicate 16 5) = none := by decide +kernel
  cases hnone.symm.trans hroutes

/-- Data for the announced destination is passed on to the left. -/
theorem nothing_relayed_false :
    ¬ ∀ (c : Crypto) (n : Instance) (es : List StationEvent), Standalone n →
      Always (Station.step c) Station.Original (.start n) es := by
  intro hall
  have hrelayed : (Runs.exec (Station.step zeroCrypto) (.start leafNode) (leafEvents 0)).map
      (fun s => s.dispatched.all Dispatch.isOwn) = some false := by decide +kernel
  obtain ⟨s, hrun, hsome⟩ := Option.map_eq_some_iff.mp hrelayed
  have horiginal : s.dispatched.all Dispatch.isOwn = true :=
    List.all_eq_true.mpr (hall _ _ _ standalone_leafNode _ s (List.prefix_refl _) hrun)
  exact Bool.false_ne_true (hsome.symm.trans horiginal)

end Samples

end Reticulum.Transport
