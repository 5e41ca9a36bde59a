import Reticulum.Transport.Rediscovery
import Reticulum.Transport.Relayed

/-!
# A node learns a route and passes it on

A node without a route to a destination that hears a valid announce of it has one route
afterwards, over the interface and with the hops that the announce says, and at its next
pass it rebroadcasts the announce from itself, one hop on (`inbound` and `jobs`,
`src/transport.rs`). The pass keeps the route.

## Implementation notes

An announce is looked at as the frame that carries it. The rebroadcast is a frame of the
same announce, so what is shown of one node can be repeated at the next.
-/

namespace Reticulum.Transport

open Wire (Frame DestinationType)

/-- An announce of a single destination that nodes take as valid and pass on. -/
structure AnnounceFrame (c : Crypto) (destinationHash : Bytes) (f : Frame) : Prop where
  packetType : f.flags &&& 0x03 = Wire.announce
  single : DestinationType.ofUInt8 ((f.flags &&& 0x0C) >>> 2) = some .single
  access : f.flags &&& 0x80 ≠ 0x80
  destination : f.destinationHash.1 = destinationHash
  context : f.context ≠ pathResponse
  size : f.data.length + 35 ≤ maxFrame
  valid : validateAnnounce c f.data (some destinationHash) (some (f.data.take keyLen))
    ((f.flags &&& 0x20) >>> 5) = true

/-- The packet of a frame that came in over an interface. -/
def packetOf (c : Crypto) (f : Frame) (name : String) : Wire.Packet :=
  f.fill c (.holding f.encode (some name))

/-- A node that does not know the destination and takes part in nothing that concerns it: an
announce that it hears over this interface brings its only route. -/
structure Unaware (s : TransportState) (r : Reading) (name : String) (destinationHash : Bytes) :
    Prop where
  path : s.pathTable destinationHash = none
  foreign : destinationHash ∉ s.destinations
  control : s.controlHashes.contains destinationHash = false
  listens : s.dropAnnounces = false
  quiet : ∀ entry, s.announceRateTable destinationHash = some entry →
    (entry.timestamps.filter fun t => r.now - t < 1).length < announceRateLimit
  online : (findInterface s.interfaces name).map (·.online) = some true

/-- A transport node that has heard an announce at this reading rebroadcasts it in this pass,
and keeps its route. -/
structure PassesOn (n : Instance) (r : Reading) (pass : Pass) (destinationHash : Bytes) :
    Prop where
  transport : n.transportEnabled = true
  links : ∀ linkId entry, n.linkTable linkId = some entry →
    entry.destinationHash ≠ destinationHash
  due : n.announcesLastChecked + n.announcesCheckInterval < pass.now
  later : r.now < pass.now ∧ r.now + r.random * pathfinderRw < pass.now
  fresh : pass.now < r.now + roamingPathTime

/-- The rebroadcast of an announce by a node with this identity. -/
def passedOn (f : Frame) (identity : Bytes.Block Wire.dstLen) (hops : UInt8)
    (hlt : hops < Wire.pathfinderM) : Frame where
  flags := Wire.Packet.packFlags Wire.header2 (((f.flags &&& 0x20) >>> 5) &&& 1) modeTransport
    .single Wire.announce
  hops := hops
  transportId := some identity
  destinationHash := f.destinationHash
  context := 0
  data := f.data
  headerType := by
    rw [(Wire.fields_packFlags (by decide) UInt8.and_le_right (by decide) (by decide) _).1]
    simp
  hops_lt := hlt
  data_ne := f.data_ne

variable {p : Wire.Packet}

section Hearing

variable {c : Crypto} {s : TransportState} {n : Instance} {r : Reading} {f : Frame}
  {destinationHash : Bytes} {name : String}

theorem readFrame_packetOf (hf : AnnounceFrame c destinationHash f) :
    readFrame c f.encode (some name) = some (packetOf c f name) := by
  have hunpack : (Wire.Packet.holding f.encode (some name)).unpack c = some (packetOf c f name) :=
    Frame.unpack_encode rfl
  rw [readFrame_of_unpack hunpack]
  exact if_neg hf.access

/-- Announces of single destinations are let through by the filter. -/
theorem packetFilter_packetOf (hf : AnnounceFrame c destinationHash f) :
    packetFilter s (packetOf c f name) = true := by
  have htype : (packetOf c f name).packetType = Wire.announce := hf.packetType
  have hsingle : (packetOf c f name).destinationType = some .single := hf.single
  unfold packetFilter
  split
  · rfl
  split
  · rfl
  rw [if_neg (by rw [hsingle]; decide)]
  split
  · simp [htype, hsingle]
  · simp [htype, hsingle]

theorem passes_packetOf (hs : Unaware s r name destinationHash)
    (hf : AnnounceFrame c destinationHash f) : (admitPacket s r (packetOf c f name)).1 = true := by
  have htype : (packetOf c f name).packetType = Wire.announce := hf.packetType
  have hdest : (packetOf c f name).destinationHash = some destinationHash :=
    congrArg some hf.destination
  unfold admitPacket limitAnnounces
  rw [if_pos (packetFilter_packetOf hf), if_pos htype, hdest]
  dsimp only
  have hfew : (((s.announceRateTable destinationHash).getD
      { last := r.now, rateViolations := 0, blockedUntil := 0, timestamps := [] }).timestamps.filter
        fun t => r.now - t < 1).length < announceRateLimit := by
    cases hentry : s.announceRateTable destinationHash with
    | none => exact Nat.zero_lt_succ _
    | some entry => exact hs.quiet entry hentry
  have hone : ([r.now].filter fun t => decide (r.now - t < 1)).length ≤ 1 :=
    List.length_filter_le _ _
  rw [List.filter_append, List.length_append]
  simp only [Bool.not_eq_true', decide_eq_false_iff_not, not_lt]
  omega

/-- A node that does not know the destination accepts the announce. -/
theorem accepted_packetOf (hs : Unaware s r name destinationHash)
    (hf : AnnounceFrame c destinationHash f) :
    Accepted c s r f.encode name (packetOf c f name) destinationHash where
  read := readFrame_packetOf hf
  type := hf.packetType
  destination := congrArg some hf.destination
  valid := by
    unfold validAnnounce
    change validateAnnounce c f.data (some f.destinationHash.1) (some (f.data.take keyLen))
      ((f.flags &&& 0x20) >>> 5) = true
    rw [hf.destination]
    exact hf.valid
  considered := by
    have hlength : ¬ maxFrame < (packetOf c f name).raw.length := by
      have hsize := hf.size
      have htransport : f.transportBytes.length ≤ Wire.dstLen := by
        unfold Frame.transportBytes
        cases f.transportId with
        | none => exact Nat.zero_le _
        | some id => exact id.2.le
      have hhash : f.destinationHash.1.length = Wire.dstLen := f.destinationHash.2
      have hdst : Wire.dstLen = 16 := rfl
      change ¬ maxFrame < f.encode.length
      unfold Frame.encode
      simp only [List.length_cons, List.length_append]
      omega
    unfold ignoredAnnounce
    rw [hs.listens, decide_eq_false hlength]
    simp
  passes := passes_packetOf hs hf
  control := by
    have hdest : (packetOf c f name).destinationHash = some destinationHash :=
      congrArg some hf.destination
    have hcontrol := hs.control
    unfold controlAspects
    rw [hdest]
    simp only [Option.bind_some, hcontrol]
    rfl
  foreign := hs.foreign
  online := hs.online

/-- What hearing of a destination leaves: a route, and an announce that waits to be passed on. -/
structure Learnt (n : Instance) (r : Reading) (p : Wire.Packet) (destinationHash : Bytes)
    (n' : Instance) : Prop where
  path : n'.pathTable destinationHash = some [newRoute r p destinationHash]
  queued : n.transportEnabled = true → n'.announceTable destinationHash =
    some (queuedEntry (admitted n.toTransportState r p) r (hopped p) destinationHash)
  links : n'.linkTable = n.linkTable
  transport : n'.transportEnabled = n.transportEnabled
  identity : n'.identityHash = n.identityHash
  interfaces : n'.interfaces.map InterfaceStub.untimed = n.interfaces.map InterfaceStub.untimed
  lastChecked : n'.announcesLastChecked = n.announcesLastChecked
  interval : n'.announcesCheckInterval = n.announcesCheckInterval

theorem processed_of_accepted {raw : Bytes} (h : Accepted c s r raw name p destinationHash) :
    (inbound c s r raw (some name)).1 =
      .processed (inboundAnnounce c (admitted s r p) r (hopped p)).1 := by
  obtain ⟨hquiet, -⟩ | ⟨q, hread, ⟨-, heq⟩ | ⟨htype, -⟩⟩ :=
    inbound_cases c s r raw (some name)
  · have hcached : cachedPacket c s p = none := by
      have hlength := hashLen_lt_of_validAnnounce h.valid
      unfold cachedPacket
      rw [if_neg]
      rintro ⟨-, heq⟩
      rw [heq] at hlength
      exact absurd hlength (by decide)
    rw [inbound_eq h.read, if_neg (by simp [h.considered]), if_neg (by simp [h.passes]),
      h.control] at hquiet
    simp [hcached, Outcome.isQuiet] at hquiet
  · obtain rfl := Option.some.inj (h.read.symm.trans hread)
    rw [heq]
  · obtain rfl := Option.some.inj (h.read.symm.trans hread)
    exact absurd h.type htype

/-- An accepted announce that is processed leaves everything alone that does not concern it. -/
theorem receive_of_accepted {call : Call} {raw : Bytes}
    (h : Accepted c n.toTransportState call.reading raw name p destinationHash) :
    (receive c n call raw (some name)).1 = { n with
      toTransportState := (inbound c n.toTransportState call.reading raw (some name)).2 } := by
  unfold receive
  dsimp only
  rw [processed_of_accepted h]

theorem announceShouldAdd_of_accepted {raw : Bytes}
    (h : Accepted c s r raw name p destinationHash) :
    announceShouldAdd c (admitted s r p) (hopped p) = true := by
  have hvalid : validAnnounce c (hopped p) = true := h.valid
  unfold announceShouldAdd
  split
  · simp [hvalid]
  · rfl

/-- Every announce of a destination without routes is a new emission. -/
theorem isNewEmission_of_unknown (h : s.pathTable destinationHash = none) :
    isNewEmission s r p destinationHash = true := by
  unfold isNewEmission
  rw [h]
  split <;> rfl

theorem queuesAnnounce_of_unaware (hs : Unaware s r name destinationHash)
    (hf : AnnounceFrame c destinationHash f) (htransport : s.transportEnabled = true) :
    queuesAnnounce (admitted s r (packetOf c f name)) r (hopped (packetOf c f name))
      destinationHash = true := by
  have hcontext : ((hopped (packetOf c f name)).context != pathResponse) = true :=
    bne_iff_ne.mpr hf.context
  have hforeign := hs.foreign
  obtain ⟨interfaces, clients, rates, hadmitted, -, -⟩ :=
    noted_admitted (s := s) (r := r) (p := packetOf c f name)
  have hnew : isNewEmission (admitted s r (packetOf c f name)) r (hopped (packetOf c f name))
      destinationHash = true := by
    apply isNewEmission_of_unknown
    rw [hadmitted]
    exact hs.path
  unfold queuesAnnounce
  rw [hcontext, hnew, hadmitted]
  simp [htransport, hforeign]

/-- What an accepted announce leaves alone. -/
theorem kept_of_accepted {raw : Bytes} (h : Accepted c s r raw name p destinationHash) :
    let s' := (inbound c s r raw (some name)).2
    s'.linkTable = s.linkTable ∧ s'.transportEnabled = s.transportEnabled ∧
      s'.identityHash = s.identityHash ∧
      s'.interfaces.map InterfaceStub.untimed = s.interfaces.map InterfaceStub.untimed := by
  dsimp only
  rw [inbound_of_accepted h]
  obtain ⟨interfaces, clients, rates, hadmitted, hinterfaces, -⟩ :=
    noted_admitted (s := s) (r := r) (p := p)
  obtain ⟨validated, known, ratchets, hashlist, -, ⟨-, heq, -⟩ | ⟨hfalse, -⟩⟩ :=
    inboundAnnounce_cases c (admitted s r p) r (hopped p)
  · rw [heq, hadmitted]
    obtain ⟨table, ⟨-, hprocess⟩ | ⟨hash, requests, pacing, pending, -, hprocess⟩⟩ :=
      processAnnounce_cases { s with
        interfaces := interfaces, localClientInterfaces := clients, announceRateTable := rates
        validatedAnnounceHashes := validated, knownDestinations := known
        knownRatchets := ratchets, packetHashlist := hashlist } r (hopped p)
    · rw [hprocess]
      exact ⟨rfl, rfl, rfl, hinterfaces⟩
    · rw [hprocess]
      exact ⟨rfl, rfl, rfl, hinterfaces⟩
  · rw [announceShouldAdd_of_accepted h] at hfalse
    cases hfalse

theorem learnt_of_unaware {call : Call}
    (hs : Unaware n.toTransportState call.reading name destinationHash)
    (hf : AnnounceFrame c destinationHash f) :
    Learnt n call.reading (packetOf c f name) destinationHash
      (receive c n call f.encode (some name)).1 := by
  have haccepted := accepted_packetOf hs hf
  obtain ⟨hpath, -⟩ := pathTable_of_accepted haccepted
  obtain ⟨hlinks, htransport, hidentity, hinterfaces⟩ := kept_of_accepted haccepted
  rw [receive_of_accepted haccepted]
  refine ⟨?_, fun henabled => ?_, hlinks, htransport, hidentity, hinterfaces, rfl, rfl⟩
  · rw [hs.path] at hpath
    exact hpath
  · dsimp only
    have hdest : (hopped (packetOf c f name)).destinationHash = some destinationHash :=
      haccepted.destination
    rw [inbound_of_accepted haccepted, announceTable_inboundAnnounce hdest,
      if_pos (announceShouldAdd_of_accepted haccepted),
      if_pos (queuesAnnounce_of_unaware hs hf henabled)]
    exact Table.insert_self _ _ _

end Hearing

/-! ## The pass -/

section Pass

variable {n n' n'' : Instance} {pass : Pass} {destinationHash : Bytes} {e : PathEntry}

/-- What a pass reads of routes is the same. -/
structure KeptRouting (n n' : Instance) : Prop where
  pathTable : n'.pathTable = n.pathTable
  linkTable : n'.linkTable = n.linkTable
  interfaces : n'.interfaces = n.interfaces
  transportEnabled : n'.transportEnabled = n.transportEnabled

theorem KeptRouting.trans (h : KeptRouting n n') (h' : KeptRouting n' n'') : KeptRouting n n'' :=
  ⟨h'.pathTable.trans h.pathTable, h'.linkTable.trans h.linkTable,
    h'.interfaces.trans h.interfaces, h'.transportEnabled.trans h.transportEnabled⟩

/-- With transport, links that have closed change nothing. -/
theorem closeLinks_of_transport (h : n.transportEnabled = true) (now : ℚ) (closed : List Bytes)
    (requests : Table (Option String)) :
    closed.foldl (closeLink now) (n, requests) = (n, requests) := by
  induction closed with
  | nil => rfl
  | cons hash closed ih =>
      have hone : closeLink now (n, requests) hash = (n, requests) := by
        unfold closeLink
        dsimp only
        rw [if_pos h]
      rw [List.foldl_cons, hone]
      exact ih

theorem keptRouting_beforeCull (h : n.transportEnabled = true) (pass : Pass) :
    KeptRouting n (beforeCull n pass).1 := by
  have hsent : KeptRouting n (rebroadcastAnnounces n pass.now).1 := by
    obtain ⟨checked, heq⟩ := rebroadcastAnnounces_eq n pass.now
    rw [heq]
    exact ⟨rfl, rfl, rfl, rfl⟩
  have hrotated : ∀ m, KeptRouting m (rotateTags (cullPendingRequests (rotateHashlist m)
      pass.now)) := by
    intro m
    have hhashes : KeptRouting m (rotateHashlist m) := by
      unfold rotateHashlist
      split <;> exact ⟨rfl, rfl, rfl, rfl⟩
    have hpending : KeptRouting (rotateHashlist m)
        (cullPendingRequests (rotateHashlist m) pass.now) := by
      unfold cullPendingRequests
      split <;> exact ⟨rfl, rfl, rfl, rfl⟩
    refine (hhashes.trans hpending).trans ?_
    rw [rotateTags_eq]
    exact ⟨rfl, rfl, rfl, rfl⟩
  have hsaved : ∀ m, KeptRouting m (saveWhenDirty m pass.now) := by
    intro m
    unfold saveWhenDirty savePathTable
    repeat' split
    all_goals exact ⟨rfl, rfl, rfl, rfl⟩
  have hdrained : ∀ m, KeptRouting m (drainLocalAnnounces m pass.now).1 :=
    fun _ => ⟨rfl, rfl, rfl, rfl⟩
  unfold beforeCull
  rw [closeLinks_of_transport h]
  exact ((hsent.trans (hdrained _)).trans (hrotated _)).trans (hsaved _)

/-- The routes to a destination are the same, and the interfaces. -/
def KeptRoutes (destinationHash : Bytes) (s s' : TransportState) : Prop :=
  s'.pathTable destinationHash = s.pathTable destinationHash ∧ s'.interfaces = s.interfaces

theorem keptRoutes_markPathUnresponsive (s : TransportState) {other : Bytes}
    (h : other ≠ destinationHash) (blocked : Option String) :
    KeptRoutes destinationHash s (markPathUnresponsive s other blocked) := by
  unfold markPathUnresponsive
  split
  · exact ⟨rfl, rfl⟩
  dsimp only
  split
  · exact ⟨Function.update_of_ne h.symm _ _, rfl⟩
  · exact ⟨Table.insert_of_ne _ h.symm _, rfl⟩

/-- A task for another destination leaves the routes alone. -/
theorem keptRoutes_runTask (state : Instance × Table (Option String)) {task : Rediscovery}
    (h : task.destinationHash ≠ destinationHash) :
    KeptRoutes destinationHash state.1.toTransportState
      (runTask state task).1.toTransportState := by
  have hmarked : KeptRoutes destinationHash state.1.toTransportState
      (if task.markUnresponsive then markPathUnresponsive state.1.toTransportState
        task.destinationHash task.blockedInterface else state.1.toTransportState) := by
    split
    · exact keptRoutes_markPathUnresponsive _ h _
    · exact ⟨rfl, rfl⟩
  unfold runTask
  dsimp only
  split
  · exact ⟨(Function.update_of_ne h.symm _ _).trans hmarked.1, hmarked.2⟩
  · exact hmarked

theorem keptRoutes_runTasks (state : Instance × Table (Option String)) {tasks : List Rediscovery}
    (h : ∀ task ∈ tasks, task.destinationHash ≠ destinationHash) :
    KeptRoutes destinationHash state.1.toTransportState
      (tasks.foldl runTask state).1.toTransportState := by
  induction tasks generalizing state with
  | nil => exact ⟨rfl, rfl⟩
  | cons task tasks ih =>
      have hone := keptRoutes_runTask state (h task (List.mem_cons_self ..))
      have hrest := ih (runTask state task) fun task htask => h task (List.mem_cons_of_mem _ htask)
      exact ⟨hrest.1.trans hone.1, hrest.2.trans hone.2⟩

/-- A pass of a transport node keeps a route that is not stale, when no link goes to its
destination. -/
theorem pathTable_jobs (htransport : n.transportEnabled = true)
    (hlinks : ∀ linkId entry, n.linkTable linkId = some entry →
      entry.destinationHash ≠ destinationHash)
    (hpath : n.pathTable destinationHash = some [e])
    (houtlives : outlives n.interfaces pass.now e = true) :
    (jobs n pass).1.pathTable destinationHash = some [e] := by
  have hsame := keptRouting_beforeCull htransport pass
  change (cullTables (beforeCull n pass) pass).1.pathTable destinationHash = some [e]
  unfold cullTables
  dsimp only
  split
  swap
  · rw [hsame.pathTable]
    exact hpath
  have hothers : ∀ task ∈ rediscoveryTasks (beforeCull n pass).1 pass,
      task.destinationHash ≠ destinationHash := by
    intro task htask
    obtain ⟨linkId, -, htask⟩ := List.mem_filterMap.mp htask
    unfold rediscoveryTask at htask
    obtain ⟨entry, hentry, hdecided⟩ := Option.bind_eq_some_iff.mp htask
    split at hdecided
    · rw [(rediscovery_eq_some hdecided).1.1]
      rw [hsame.linkTable] at hentry
      exact hlinks linkId entry hentry
    · cases hdecided
  obtain ⟨htable, hinterfaces⟩ := keptRoutes_runTasks (beforeCull n pass) hothers
  change (((rediscoveryTasks (beforeCull n pass).1 pass).foldl runTask
    (beforeCull n pass)).1.pathTable destinationHash).bind (cullRoutes _ pass.now) = some [e]
  rw [htable, hsame.pathTable, hpath, hinterfaces, hsame.interfaces]
  unfold cullRoutes
  simp [houtlives]

end Pass

/-! ## One node of a line -/

section Node

variable {c : Crypto} {n : Instance} {call : Call} {pass : Pass} {f : Frame}
  {destinationHash : Bytes} {name : String} {identity : Bytes.Block Wire.dstLen}

/-- The route of an announce that came in less than `ROAMING_PATH_TIME` ago is not stale. -/
theorem outlives_newRoute {interfaces : List InterfaceStub} {r : Reading}
    (h : pass.now < r.now + roamingPathTime) :
    outlives interfaces pass.now (newRoute r p destinationHash) = true := by
  have hap : pass.now < r.now + apPathTime :=
    h.trans (add_lt_add_right (by decide +kernel : roamingPathTime < apPathTime) r.now)
  have hexpires : pass.now < r.now + destinationTimeout :=
    h.trans (add_lt_add_right (by decide +kernel : roamingPathTime < destinationTimeout) r.now)
  have hunexpired : (newRoute r p destinationHash).isExpired pass.now = false :=
    decide_eq_false (not_le.mpr hexpires)
  unfold outlives
  rw [hunexpired, Bool.not_false, Bool.true_and]
  repeat' split
  · exact decide_eq_true hap
  · exact decide_eq_true h
  · exact decide_eq_true hexpires
  · exact decide_eq_true hexpires

/-- What leaves for an announce that was queued. -/
theorem rebroadcasts_of_queued {m : Instance} {s : TransportState} {r : Reading}
    (hqueued : m.announceTable destinationHash = some (queuedEntry s r p destinationHash))
    (hdue : m.announcesLastChecked + m.announcesCheckInterval < pass.now)
    (hlater : r.now < pass.now ∧ r.now + r.random * pathfinderRw < pass.now) :
    (jobs m pass).2.rebroadcasts destinationHash =
      some (rebroadcastOf m.toTransportState destinationHash
        (queuedEntry s r p destinationHash)) := by
  have hleaves : (queuedEntry s r p destinationHash).leaves pass.now = true := by
    unfold AnnounceEntry.leaves AnnounceEntry.completed queuedEntry
    dsimp only
    cases fromLocalClient s p with
    | true => simp [hlater.1, localRebroadcastsMax, pathfinderR]
    | false => simp [hlater.2, localRebroadcastsMax, pathfinderR]
  rw [(jobs_passed m pass).rebroadcasts]
  unfold rebroadcastAnnounces
  rw [if_pos hdue]
  dsimp only
  rw [hqueued, Option.filter_some, hleaves]
  rfl

/-- The frame that passes an announce on. -/
theorem announceRaw_packetOf {s : TransportState} (hf : AnnounceFrame c destinationHash f)
    (hid : s.identityHash = some identity.1) {hops : UInt8} (hlt : hops < Wire.pathfinderM) :
    announceRaw s { hopped (packetOf c f name) with hops := hops } destinationHash 0 =
      (passedOn f identity hops hlt).encode := by
  have hsingle : (packetOf c f name).destinationType = some .single := hf.single
  unfold announceRaw
  rw [hid]
  dsimp only [hopped]
  rw [hsingle]
  simp [passedOn, Frame.encode, Frame.transportBytes, packetOf, Frame.fill]

/-- The context flag is one bit, and the rebroadcast has no access code. -/
theorem flags_passedOn (flags : UInt8) :
    (((flags &&& 0x20) >>> 5) &&& 1 : UInt8) = (flags &&& 0x20) >>> 5 ∧
      Wire.Packet.packFlags Wire.header2 (((flags &&& 0x20) >>> 5) &&& 1) modeTransport .single
        Wire.announce &&& 0x80 ≠ 0x80 := by
  obtain ⟨n, rfl⟩ := Wire.exists_fin_of_lt flags.toNat_lt
  revert n
  decide +kernel

/-- The rebroadcast is a frame of the same announce. -/
theorem announceFrame_passedOn (hf : AnnounceFrame c destinationHash f) {hops : UInt8}
    (hlt : hops < Wire.pathfinderM) :
    AnnounceFrame c destinationHash (passedOn f identity hops hlt) := by
  obtain ⟨-, hcontext, -, hsingle, htype⟩ := Wire.fields_packFlags (h := Wire.header2)
    (f := ((f.flags &&& 0x20) >>> 5) &&& 1) (t := modeTransport) (p := Wire.announce)
    (by decide) UInt8.and_le_right (by decide) (by decide) .single
  have hzero : (0 : UInt8) ≠ pathResponse := by decide
  refine ⟨htype, hsingle, (flags_passedOn f.flags).2, hf.destination, hzero, hf.size, ?_⟩
  · change validateAnnounce c f.data (some destinationHash) (some (f.data.take keyLen))
      ((Wire.Packet.packFlags Wire.header2 (((f.flags &&& (0x20 : UInt8)) >>> 5) &&& 1)
        modeTransport .single Wire.announce &&& 0x20) >>> 5) = true
    rw [hcontext, (flags_passedOn f.flags).1]
    exact hf.valid

/-- What a node leaves that has heard an announce and made a pass: the one route, over the
interface of the announce and one hop longer than it said, and the announce as it is passed
on. -/
theorem learns {hops : UInt8} (hs : Unaware n.toTransportState call.reading name destinationHash)
    (hpasses : PassesOn n call.reading pass destinationHash)
    (hf : AnnounceFrame c destinationHash f) (hid : n.identityHash = some identity.1)
    (hhops : hops = saturatingSucc f.hops) (hlt : hops < Wire.pathfinderM) :
    let after := jobs (receive c n call f.encode (some name)).1 pass
    after.1.pathTable destinationHash =
        some [newRoute call.reading (packetOf c f name) destinationHash] ∧
      after.1.interfaces.map InterfaceStub.untimed = n.interfaces.map InterfaceStub.untimed ∧
      after.1.identityHash = some identity.1 ∧
      (after.2.rebroadcasts destinationHash).map (·.raw) =
        some (passedOn f identity hops hlt).encode := by
  have hlearnt := learnt_of_unaware hs hf
  have hpassed := jobs_passed (receive c n call f.encode (some name)).1 pass
  refine ⟨?_, ?_, ?_, ?_⟩
  · refine pathTable_jobs (hlearnt.transport.trans hpasses.transport) ?_ hlearnt.path
      (outlives_newRoute hpasses.fresh)
    rw [hlearnt.links]
    exact hpasses.links
  · rw [hpassed.interfaces]
    exact hlearnt.interfaces
  · rw [hpassed.identityHash, hlearnt.identity]
    exact hid
  · rw [rebroadcasts_of_queued (hlearnt.queued hpasses.transport) ?_ hpasses.later]
    · subst hhops
      exact congrArg some (announceRaw_packetOf hf (hlearnt.identity.trans hid) hlt)
    · rw [hlearnt.lastChecked, hlearnt.interval]
      exact hpasses.due

end Node

end Reticulum.Transport
