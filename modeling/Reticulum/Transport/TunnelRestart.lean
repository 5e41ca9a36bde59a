import Reticulum.Transport.TunnelFile

/-!
# Routes behind a tunnel

`record_tunnel_path`, the tunnel table on disk and `handle_tunnel`
(`src/transport.rs`). The routes that a tunnel has recorded survive a restart and
come back on the interface that it reappears on, unless they have expired or a
shorter route is live; those that do not are dropped from the tunnel
(`tunnelRoutes_restored`). A tunnel that has itself expired by the time of the load
is not loaded, and its routes are lost whether or not they have expired
(`tunnelRoutes_restored_false`).

## Implementation notes

A tunnel stands under its own id, in memory and on disk, in every run of a node
(`OwnIds.run`). Nothing is asked of the state in which the tunnel reappears except
that it still holds the tunnel that was loaded.
-/

namespace Reticulum.Transport

/-! ## Recording -/

/-- The arguments of `record_tunnel_path`, and the clock that it reads. -/
structure Recording where
  now : ℚ
  receivingInterface : Option String
  destinationHash : Bytes
  nextHop : Bytes
  hops : UInt8
  expires : ℚ
  randomBlob : Option Bytes
  packetHash : Bytes

/-- The route that is recorded. -/
def Recording.path (recording : Recording) : TunnelPath :=
  { timestamp := recording.now
    nextHop := recording.nextHop
    hops := recording.hops
    expires := recording.expires
    randomBlobs := recording.randomBlob.toList
    receivingInterface := recording.receivingInterface
    packetHash := recording.packetHash }

/-- The tunnel that the receiving interface carries. -/
def Recording.tunnelId (recording : Recording) (interfaces : List InterfaceStub) : Option Bytes :=
  (recording.receivingInterface.bind (findInterface interfaces)).bind (·.tunnelId)

/-- `Transport::record_tunnel_path`. -/
def recordPath (s : TransportState) (recording : Recording) : TransportState :=
  match recording.tunnelId s.interfaces with
  | none => s
  | some tunnelId =>
      match s.tunnels tunnelId with
      | none => s
      | some tunnel => { s with
          tunnels := s.tunnels.insert tunnelId { tunnel with
            paths := tunnel.paths.insert recording.destinationHash recording.path } }

/-- The paths of a tunnel after some calls. -/
def recordedPaths (interfaces : List InterfaceStub) (tunnelId : Bytes) (paths : Table TunnelPath)
    (recordings : List Recording) : Table TunnelPath :=
  recordings.foldl (fun paths recording =>
    if recording.tunnelId interfaces = some tunnelId then
      paths.insert recording.destinationHash recording.path
    else paths) paths

/-- The route of an announce is recorded in this way. -/
theorem recordTunnelPath_eq (s : TransportState) (r : Reading) (p : Wire.Packet)
    (destinationHash : Bytes) :
    recordTunnelPath s r p destinationHash = (recordPath s
      { now := r.now
        receivingInterface := p.receivingInterface
        destinationHash := destinationHash
        nextHop := receivedFrom p destinationHash
        hops := p.hops
        expires := r.now + destinationTimeout
        randomBlob := announceBlob p
        packetHash := p.packetHash.getD [] }).tunnels := by
  unfold recordTunnelPath recordPath Recording.tunnelId Recording.path
  dsimp only
  cases (p.receivingInterface.bind (findInterface s.interfaces)).bind (·.tunnelId) with
  | none => rfl
  | some tunnelId =>
      dsimp only
      cases s.tunnels tunnelId <;> rfl

section Recorded

variable {s : TransportState} {tunnelId : Bytes} {tunnel : Tunnel} {recordings : List Recording}

theorem recordPath_interfaces (s : TransportState) (recording : Recording) :
    (recordPath s recording).interfaces = s.interfaces := by
  unfold recordPath
  split
  · rfl
  · split <;> rfl

theorem tunnels_recordPath (htunnel : s.tunnels tunnelId = some tunnel) (recording : Recording) :
    (recordPath s recording).tunnels tunnelId = some { tunnel with
      paths := if recording.tunnelId s.interfaces = some tunnelId then
          tunnel.paths.insert recording.destinationHash recording.path
        else tunnel.paths } := by
  unfold recordPath
  cases hid : recording.tunnelId s.interfaces with
  | none => simpa using htunnel
  | some carried =>
      by_cases heq : carried = tunnelId
      · subst heq
        simp [htunnel]
      · have hne : ¬ some carried = some tunnelId := fun h => heq (Option.some.inj h)
        rw [if_neg hne]
        dsimp only
        cases hcarried : s.tunnels carried with
        | none => exact htunnel
        | some other => exact (Table.insert_of_ne _ (Ne.symm heq) _).trans htunnel

/-- Recording changes the paths of the tunnels alone. -/
theorem tunnels_recorded (htunnel : s.tunnels tunnelId = some tunnel)
    (recordings : List Recording) :
    (recordings.foldl recordPath s).tunnels tunnelId = some { tunnel with
      paths := recordedPaths s.interfaces tunnelId tunnel.paths recordings } := by
  induction recordings generalizing s tunnel with
  | nil => exact htunnel
  | cons recording recordings ih =>
      rw [List.foldl_cons, ih (tunnels_recordPath htunnel recording), recordPath_interfaces]
      rfl

/-- The last route that is recorded for a destination stays. -/
theorem recordedPaths_last {interfaces : List InterfaceStub} {paths : Table TunnelPath}
    {before after : List Recording} {recording : Recording}
    (hcarried : recording.tunnelId interfaces = some tunnelId)
    (hlast : ∀ later ∈ after, later.tunnelId interfaces = some tunnelId →
      later.destinationHash ≠ recording.destinationHash) :
    recordedPaths interfaces tunnelId paths (before ++ recording :: after)
      recording.destinationHash = some recording.path := by
  unfold recordedPaths
  rw [List.foldl_append, List.foldl_cons, if_pos hcarried]
  generalize List.foldl _ paths before = held
  have hheld : (held.insert recording.destinationHash recording.path) recording.destinationHash =
      some recording.path := Table.insert_self _ _ _
  generalize held.insert recording.destinationHash recording.path = held at hheld
  induction after generalizing held with
  | nil => exact hheld
  | cons later after ih =>
      refine ih (fun other hother => hlast other (List.mem_cons_of_mem _ hother)) _ ?_
      dsimp only
      split
      · rename_i hlater
        rw [Table.insert_of_ne _ (hlast later List.mem_cons_self hlater).symm]
        exact hheld
      · exact hheld

theorem UnderOwnId.insert {tunnels : Table Tunnel} (h : UnderOwnId tunnels) {id : Bytes}
    (htunnel : tunnel.tunnelId = id) : UnderOwnId (tunnels.insert id tunnel) := by
  intro other tunnel' hother
  by_cases heq : other = id
  · subst heq
    rw [Table.insert_self] at hother
    exact Option.some.inj hother ▸ htunnel
  · rw [Table.insert_of_ne _ heq] at hother
    exact h other tunnel' hother

theorem UnderOwnId.recordPath (h : UnderOwnId s.tunnels) (recording : Recording) :
    UnderOwnId (recordPath s recording).tunnels := by
  unfold Transport.recordPath
  split
  · exact h
  split
  · exact h
  · rename_i id _ _ tunnel htunnel
    exact h.insert (h id tunnel htunnel)

theorem UnderOwnId.recorded (h : UnderOwnId s.tunnels) (recordings : List Recording) :
    UnderOwnId (recordings.foldl Transport.recordPath s).tunnels := by
  induction recordings generalizing s with
  | nil => exact h
  | cons recording recordings ih => exact ih (h.recordPath recording)

end Recorded

/-! ## Restoring -/

/-- The route of a recorded path on the interface that the tunnel reappears on. -/
def restoredRoute (path : TunnelPath) (interface : String) (now : ℚ) : PathEntry :=
  { timestamp := now
    nextHop := path.nextHop
    hops := path.hops
    expires := path.expires
    receivingInterface := some interface
    packetHash := path.packetHash }

/-- The recorded path has not expired, and no live route has fewer hops. -/
def Restorable (s : TransportState) (now : ℚ) (destinationHash : Bytes) (path : TunnelPath) : Prop :=
  ¬ path.expires < now ∧
    ∀ e ∈ (s.pathTable destinationHash).getD [], now < e.expires → ¬ e.hops < path.hops

/-- The route is in the path table, or routes at most as long fill the cap. -/
def Routed (s : TransportState) (destinationHash : Bytes) (route : PathEntry) : Prop :=
  ∃ routes, s.pathTable destinationHash = some routes ∧
    (route ∈ routes ∨ routes.length = maxPathsPerDest ∧ ∀ e ∈ routes, e.hops ≤ route.hops)

section Restoring

variable {routes : List PathEntry} {path : TunnelPath} {interface : String} {now : ℚ}

theorem restorePath_eq (routes : List PathEntry) (path : TunnelPath) (interface : String)
    (now : ℚ) :
    restorePath routes path interface now =
      if path.expires < now ∨
          (((routes.filter fun e => now < e.expires).map (·.hops)).any (· < path.hops)) = true then
        none
      else some (admitRoute routes (restoredRoute path interface now)) := rfl

theorem not_restorable_iff {s : TransportState} {destinationHash : Bytes} :
    ¬ Restorable s now destinationHash path ↔
      path.expires < now ∨ (((((s.pathTable destinationHash).getD []).filter
        fun e => now < e.expires).map (·.hops)).any (· < path.hops)) = true := by
  unfold Restorable
  rw [not_and_or, not_not]
  refine or_congr Iff.rfl ?_
  simp only [not_forall, not_not, List.any_map, List.any_filter, List.any_eq_true,
    Function.comp_apply, Bool.and_eq_true, decide_eq_true_eq, exists_prop]

/-- What is kept in the place of a route that does not fit is at most as long. -/
theorem admitted_or_full (newEntry : PathEntry) :
    newEntry ∈ admitRoute routes newEntry ∨ (admitRoute routes newEntry).length = maxPathsPerDest ∧
      ∀ e ∈ admitRoute routes newEntry, e.hops ≤ newEntry.hops := by
  by_cases hkept : newEntry ∈ admitRoute routes newEntry
  · exact .inl hkept
  right
  have hbetter : maxPathsPerDest ≤
      (otherRoutes routes newEntry).countP (!noBetter newEntry ·) := by
    by_contra hfew
    refine hkept (mem_admitRoute_iff.mpr ⟨[], otherRoutes routes newEntry, rfl, ?_⟩)
    simpa [Evict.rank] using hfew
  constructor
  · refine le_antisymm length_admitRoute_le ?_
    unfold admitRoute
    rw [evictRoutes_eq]
    apply Evict.le_length_evict
    have hcount := hbetter.trans List.countP_le_length
    exact hcount.trans (Nat.le_succ _)
  · intro e he
    obtain ⟨before, after, hsplit, hrank⟩ := mem_admitRoute_iff.mp he
    by_contra hlonger
    have hworse : noBetter newEntry e = true :=
      (noBetter_iff _ _).mpr (.inl (by simpa [UInt8.le_iff_toNat_le] using hlonger))
    have hranked : (before ++ e :: after).countP (!noBetter newEntry ·) ≤
        Evict.rank noBetter before e after := countP_better_le_rank hworse
    rw [← hsplit, List.countP_cons] at hranked
    omega

variable {s : TransportState} {recorded : Table TunnelPath} {walk : List Bytes}
  {destinationHash : Bytes}

/-- What a round leaves at a destination: its routes, and whether it was dropped. -/
def fate (destinationHash : Bytes) (acc : TransportState × List Bytes) :
    Option (List PathEntry) × Prop :=
  (acc.1.pathTable destinationHash, destinationHash ∈ acc.2)

/-- What a round makes of it. -/
def restoreFate (interface : String) (recorded : Table TunnelPath) (now : ℚ)
    (destinationHash : Bytes) (held : Option (List PathEntry) × Prop) :
    Option (List PathEntry) × Prop :=
  match recorded destinationHash with
  | none => held
  | some path =>
      match restorePath (held.1.getD []) path interface now with
      | none => (held.1, True)
      | some routes => (some routes, held.2)

theorem fate_restoreTunnelPath (acc : TransportState × List Bytes) (destinationHash : Bytes) :
    fate destinationHash (restoreTunnelPath interface recorded now acc destinationHash) =
      restoreFate interface recorded now destinationHash (fate destinationHash acc) := by
  unfold fate restoreTunnelPath restoreFate
  cases recorded destinationHash with
  | none => rfl
  | some path =>
      dsimp only
      cases restorePath ((acc.1.pathTable destinationHash).getD []) path interface now with
      | none => simp
      | some routes => simp

theorem fate_restoreTunnelPath_of_ne (acc : TransportState × List Bytes) {hash other : Bytes}
    (hne : other ≠ hash) :
    fate other (restoreTunnelPath interface recorded now acc hash) = fate other acc := by
  unfold fate restoreTunnelPath
  cases recorded hash with
  | none => rfl
  | some path =>
      dsimp only
      cases restorePath ((acc.1.pathTable hash).getD []) path interface now with
      | none => simp [hne]
      | some routes => simp [Table.insert_of_ne _ hne]

/-- A destination of the walk is restored or dropped. -/
theorem fate_restoreTunnelPaths (hwalk : walk.Nodup) (hmem : destinationHash ∈ walk) :
    fate destinationHash (restoreTunnelPaths s interface recorded now walk) =
      restoreFate interface recorded now destinationHash (s.pathTable destinationHash, False) := by
  unfold restoreTunnelPaths
  rw [Walk.look_foldl fate_restoreTunnelPath
    (fun acc hash other hne => fate_restoreTunnelPath_of_ne acc hne) hwalk, if_pos hmem]
  simp [fate]

theorem foldl_remove (paths : Table TunnelPath) (dropped : List Bytes) (hash : Bytes) :
    dropped.foldl Table.remove paths hash = if hash ∈ dropped then none else paths hash := by
  induction dropped generalizing paths with
  | nil => simp
  | cons other dropped ih =>
      rw [List.foldl_cons, ih]
      by_cases heq : hash = other
      · simp [Table.remove, heq]
      · simp [Table.remove, heq]

/-- What becomes of the routes of a tunnel that reappears: the restorable ones are back in
the path table, the others are dropped from the tunnel. -/
def RoutesSurvive (recorded : Table TunnelPath) (before after : TransportState)
    (tunnelId : Bytes) (interface : String) (now : ℚ) : Prop :=
  ∃ tunnel, after.tunnels tunnelId = some tunnel ∧
    (∀ destinationHash, recorded destinationHash = none → tunnel.paths destinationHash = none) ∧
    ∀ destinationHash path, recorded destinationHash = some path →
      (Restorable before now destinationHash path →
        Routed after destinationHash (restoredRoute path interface now)) ∧
      (tunnel.paths destinationHash = none ↔ ¬ Restorable before now destinationHash path)

/-- A tunnel that is known gets its routes back. -/
theorem routes_handleTunnel {tunnelId : Bytes} {tunnel : Tunnel} (r : Reading)
    (htunnel : s.tunnels tunnelId = some tunnel) (hwalk : Walk.Enumerates walk tunnel.paths) :
    RoutesSurvive tunnel.paths s (handleTunnel s r tunnelId interface walk) tunnelId interface
      r.now := by
  let named : TransportState := { s with
    interfaces := setTunnelId s.interfaces interface tunnelId }
  let restored := restoreTunnelPaths named interface tunnel.paths r.now walk
  have hafter : handleTunnel s r tunnelId interface walk = { restored.1 with
      tunnels := restored.1.tunnels.insert tunnelId { tunnel with
        interface := some interface
        expires := r.now + destinationTimeout
        paths := restored.2.foldl Table.remove tunnel.paths } } := by
    unfold handleTunnel
    dsimp only
    rw [htunnel]
  rw [hafter]
  refine ⟨_, Table.insert_self _ _ _, ?_, ?_⟩
  · intro destinationHash hnone
    simp [foldl_remove, hnone]
  intro destinationHash path hpath
  have hmem : destinationHash ∈ walk := (hwalk.2 destinationHash).mpr (by simp [hpath])
  have hfate : fate destinationHash restored =
      restoreFate interface tunnel.paths r.now destinationHash (s.pathTable destinationHash, False) :=
    fate_restoreTunnelPaths hwalk.1 hmem
  unfold fate restoreFate at hfate
  rw [hpath] at hfate
  dsimp only at hfate
  rw [restorePath_eq] at hfate
  by_cases hrestorable : Restorable s r.now destinationHash path
  · rw [if_neg fun h => not_restorable_iff.mpr h hrestorable] at hfate
    obtain ⟨hroutes, hkept⟩ := Prod.ext_iff.mp hfate
    have hnot : destinationHash ∉ restored.2 := fun h => by simpa using hkept.mp h
    refine ⟨fun _ => ⟨_, hroutes, admitted_or_full _⟩, ?_⟩
    simp [foldl_remove, hnot, hpath, hrestorable]
  · rw [if_pos (not_restorable_iff.mp hrestorable)] at hfate
    have hin : destinationHash ∈ restored.2 := by simpa using (Prod.ext_iff.mp hfate).2
    refine ⟨fun h => absurd h hrestorable, ?_⟩
    simp [foldl_remove, hin, hrestorable]

end Restoring

/-! ## Tunnels under their own ids -/

/-- The tunnels of a node and of its disk stand under their own ids. -/
def OwnIds (n : Instance) : Prop :=
  UnderOwnId n.tunnels ∧ ∀ saved, n.savedTunnels = some saved → UnderOwnId saved

namespace OwnIds

variable {c : Crypto} {n : Instance} {s : TransportState}

theorem with_state (h : OwnIds n) (hs : UnderOwnId s.tunnels) :
    OwnIds { n with toTransportState := s } := ⟨hs, h.2⟩

section

variable (h : UnderOwnId s.tunnels)

include h

theorem processAnnounce (r : Reading) (p : Wire.Packet) :
    UnderOwnId (processAnnounce s r p).1.tunnels := by
  obtain ⟨table, ⟨-, heq⟩ | ⟨hash, requests, pacing, pending, -, heq⟩⟩ := processAnnounce_cases s r p
  · rw [heq]
    exact h
  · rw [heq]
    change UnderOwnId (recordTunnelPath s r p hash)
    rw [recordTunnelPath_eq]
    exact h.recordPath _

theorem inboundAnnounce (r : Reading) (p : Wire.Packet) :
    UnderOwnId (inboundAnnounce c s r p).2.tunnels := by
  obtain ⟨validated, known, ratchets, hashlist, -, ⟨-, heq, -⟩ | ⟨-, heq, -⟩⟩ :=
    inboundAnnounce_cases c s r p
  · rw [heq]
    apply processAnnounce
    exact h
  · rw [heq]
    exact h

theorem inbound (r : Reading) (raw : Bytes)
    (receivingInterface : Option String) :
    UnderOwnId (inbound c s r raw receivingInterface).2.tunnels := by
  obtain ⟨-, hnoted⟩ | ⟨p, -, ⟨-, heq⟩ | ⟨-, heq⟩⟩ := inbound_cases c s r raw receivingInterface
  · obtain ⟨_, _, _, heq, -, -⟩ := hnoted
    rw [heq]
    exact h
  · obtain ⟨_, _, _, hadmitted, -, -⟩ : Noted s (admitted s r p) := noted_admitted
    rw [heq]
    apply inboundAnnounce
    rw [hadmitted]
    exact h
  · obtain ⟨_, _, _, hadmitted, -, -⟩ : Noted s (admitted s r p) := noted_admitted
    obtain ⟨_, _, _, _, hforwarded, -, -⟩ :
      Forwarded (admitted s r p) (inboundPacket c (admitted s r p) r (hopped p)).2 := .inboundPacket
    rw [heq, hforwarded, hadmitted]
    exact h

theorem handleTunnel (r : Reading) (tunnelId : Bytes)
    (interface : String) (order : List Bytes) :
    UnderOwnId (handleTunnel s r tunnelId interface order).tunnels := by
  unfold Transport.handleTunnel
  dsimp only
  split
  · rename_i tunnel htunnel
    obtain ⟨_, _, heq⟩ := restoreTunnelPaths_eq
      { s with interfaces := setTunnelId s.interfaces interface tunnelId } interface tunnel.paths
      r.now order
    rw [heq]
    have hid : tunnel.tunnelId = tunnelId := h tunnelId tunnel htunnel
    exact h.insert hid
  · exact h.insert rfl

end

theorem receive (h : OwnIds n) (frame : Incoming) :
    OwnIds (receive c n frame.call frame.raw frame.receivingInterface).1 := by
  have hinbound := h.with_state (inbound (c := c) h.1 frame.call.reading frame.raw
    frame.receivingInterface)
  obtain ⟨-, heq | ⟨p, -, heq⟩ | ⟨p, -, heq⟩⟩ :=
    receive_cases c n frame.call frame.raw frame.receivingInterface
  · rw [heq]
    exact hinbound
  · rw [heq]
    obtain ⟨_, heq⟩ := pathRequestHandler_state c _ frame.call p
    rw [heq]
    exact hinbound
  · rw [heq]
    unfold tunnelSynthesizeHandler
    split
    · exact hinbound
    · exact hinbound.with_state (handleTunnel hinbound.1 _ _ _ _)

theorem clonePath_tunnels (s : TransportState) (now : ℚ) (sourceHash destinationHash : Bytes) :
    (clonePath s now sourceHash destinationHash).1.tunnels = s.tunnels := by
  unfold clonePath
  split
  · rfl
  · cases selectPath s.pathTable s.interfaces sourceHash now <;> rfl

theorem markPathUnresponsive_tunnels (s : TransportState) (destinationHash : Bytes)
    (blockedInterface : Option String) :
    (markPathUnresponsive s destinationHash blockedInterface).tunnels = s.tunnels := by
  obtain ⟨_, _, _, heq⟩ := markPathUnresponsive_eq s destinationHash blockedInterface
  rw [heq]

theorem sendAlong_tunnels (r : Reading) (p : Wire.Packet) (destinationHash : Bytes)
    (routes : List PathEntry) (s : TransportState) :
    (sendAlong r p destinationHash s routes).1.tunnels = s.tunnels := by
  obtain ⟨_, _, heq⟩ := sendAlong_eq r p destinationHash routes s
  rw [heq]

theorem keptByStages (pass : Pass) : KeptByStages pass OwnIds := by
  refine .of_queues (fun _ _ h => h) ?_ ?_ ?_
  · intro n requests hash h
    unfold closeLink
    dsimp only
    split
    · exact h
    · split <;> exact h
  · intro n requests task h
    apply h.with_state
    have hmarked : (if task.markUnresponsive then
        markPathUnresponsive n.toTransportState task.destinationHash task.blockedInterface
      else n.toTransportState).tunnels = n.tunnels := by
      split
      · exact markPathUnresponsive_tunnels _ _ _
      · rfl
    split
    · unfold expirePath
      dsimp only
      rw [hmarked]
      exact h.1
    · rw [hmarked]
      exact h.1
  · intro n h
    refine ⟨?_, h.2⟩
    intro id tunnel hculled
    obtain ⟨held, hheld, htunnel⟩ := Option.bind_eq_some_iff.mp hculled
    unfold cullTunnel at htunnel
    split at htunnel
    · cases htunnel
    · obtain rfl := Option.some.inj htunnel
      exact h.1 id held hheld

theorem loadTunnelTable (h : OwnIds n) (now : ℚ) : OwnIds (loadTunnelTable n now) := by
  unfold Transport.loadTunnelTable
  split
  · exact h
  rename_i saved hsaved
  split
  · exact h
  refine ⟨?_, h.2⟩
  intro id tunnel hid
  dsimp only at hid
  split at hid
  · exact h.1 id tunnel hid
  rename_i held hheld
  split at hid
  · exact h.1 id tunnel hid
  · obtain rfl := Option.some.inj hid
    exact h.2 saved hsaved id held hheld

/-- One operation keeps the tunnels under their own ids. -/
theorem operate (h : OwnIds n) (op : Operation) : OwnIds (operate c n op) := by
  cases op with
  | receive frame => exact h.receive frame
  | handleTunnel r tunnelId interface order => exact h.with_state (handleTunnel h.1 r tunnelId _ _)
  | clonePath now sourceHash destinationHash =>
      apply h.with_state
      rw [clonePath_tunnels]
      exact h.1
  | expirePath destinationHash => exact h
  | markPathUnresponsive destinationHash blockedInterface =>
      apply h.with_state
      rw [markPathUnresponsive_tunnels]
      exact h.1
  | outbound r p destinationHash =>
      apply h.with_state
      change UnderOwnId (sendAlong _ _ _ _ _).1.tunnels
      rw [sendAlong_tunnels]
      exact h.1
  | jobs pass => exact (keptByStages pass).jobs h
  | persistData =>
      have hpaths : OwnIds (savePathTable n) := by
        unfold savePathTable
        split <;> exact h
      change OwnIds (saveTunnelTable (savePathTable n))
      unfold saveTunnelTable
      split
      · exact hpaths
      · refine ⟨hpaths.1, ?_⟩
        intro saved hsaved
        exact Option.some.inj hsaved ▸ hpaths.1
  | load now =>
      have hpaths : OwnIds (loadPathTable n now) := by
        unfold loadPathTable
        split
        · exact h
        · split <;> exact h
      exact hpaths.loadTunnelTable now
  | restart =>
      refine ⟨?_, h.2⟩
      intro id tunnel hid
      cases hid
  | other m => exact h

/-- In every run of a node the tunnels stand under their own ids. -/
theorem run {ops : List Operation} {n : Instance} {heard : List Incoming}
    (h : Runs.exec (operateStep c) (Instance.start, []) ops = some (n, heard)) : OwnIds n := by
  have hstart : OwnIds Instance.start := by
    refine ⟨?_, ?_⟩
    · intro id tunnel hid
      cases hid
    · intro saved hsaved
      cases hsaved
  have hstep : ∀ (state : Instance × List Incoming) (op : Operation) (state' : Instance × List Incoming),
      OwnIds state.1 → operateStep c state op = some state' → OwnIds state'.1 := by
    intro state op state' hstate hstep
    obtain rfl := Option.some.inj hstep
    exact hstate.operate op
  exact Runs.invariant_of_step hstep hstart h

end OwnIds

/-! ## Over a restart -/

/-- The tunnels are saved, the node restarts and loads them, neither before nor after
connected to a shared instance; when a tunnel reappears it is as it was loaded, and its
paths are walked in some order. -/
structure Restarted (codec : TunnelCodec) (saved : TransportState) (loadTime : ℚ)
    (tunnelId : Bytes) (walk : List Bytes) (before : TransportState) : Prop where
  unshared : saved.isConnectedToSharedInstance = false
  loaded : ∃ (order : WalkOrder) (file : Option Bytes) (node : Instance),
    order.Covers saved.tunnels ∧
    codec.fromSlice (codec.toVec (tunnelEntries saved.tunnels order)) =
      some (tunnelEntries saved.tunnels order) ∧
    node.isConnectedToSharedInstance = false ∧
    before.tunnels tunnelId = (loadTunnelFile codec node.toTransportState
      (saveTunnelFile codec saved order file) loadTime).tunnels tunnelId
  walk : ∀ tunnel, before.tunnels tunnelId = some tunnel → Walk.Enumerates walk tunnel.paths

section Restart

variable {c : Crypto} {ops : List Operation} {n : Instance} {heard : List Incoming}
  {codec : TunnelCodec} {saved before : TransportState} {loadTime : ℚ} {tunnelId : Bytes}
  {walk : List Bytes} {tunnel : Tunnel}

/-- A tunnel that has not expired is loaded. -/
theorem tunnel_restarted (h : Restarted codec saved loadTime tunnelId walk before)
    (hown : UnderOwnId saved.tunnels) (htunnel : saved.tunnels tunnelId = some tunnel)
    (hlive : ¬ tunnel.expires < loadTime) :
    before.tunnels tunnelId = some (loadTunnel loadTime tunnel) := by
  obtain ⟨order, file, node, horder, hcodec, hnode, hbefore⟩ := h.loaded
  rw [hbefore, loadTunnelFile_saved hcodec h.unshared hown horder]
  unfold loadTunnelTable
  simp [hnode, htunnel, hlive]

/-- What survives the load survives the restart. -/
theorem routes_restarted (h : Restarted codec saved loadTime tunnelId walk before)
    (hown : UnderOwnId saved.tunnels) (htunnel : saved.tunnels tunnelId = some tunnel)
    (hlive : ¬ tunnel.expires < loadTime) (r : Reading) (hlater : loadTime ≤ r.now)
    (interface : String) :
    RoutesSurvive tunnel.paths before (handleTunnel before r tunnelId interface walk) tunnelId
      interface r.now := by
  have hloaded := tunnel_restarted h hown htunnel hlive
  have hreappears : RoutesSurvive (loadTunnel loadTime tunnel).paths before
      (handleTunnel before r tunnelId interface walk) tunnelId interface r.now :=
    routes_handleTunnel r hloaded (h.walk _ hloaded)
  obtain ⟨reappeared, hreappeared, hnone, hfates⟩ := hreappears
  refine ⟨reappeared, hreappeared, ?_, ?_⟩
  · intro destinationHash hpath
    exact hnone destinationHash (by simp [loadTunnel, hpath])
  intro destinationHash path hpath
  by_cases hexpired : path.expires < loadTime
  · -- The path is not loaded, and has expired when the tunnel reappears as well.
    have hdropped : reappeared.paths destinationHash = none :=
      hnone destinationHash (by simp [loadTunnel, hpath, hexpired])
    have hnot : ¬ Restorable before r.now destinationHash path :=
      fun hrestorable => hrestorable.1 (hexpired.trans_le hlater)
    exact ⟨fun hrestorable => absurd hrestorable hnot, iff_of_true hdropped hnot⟩
  · have hkept : (loadTunnel loadTime tunnel).paths destinationHash =
        some { path with receivingInterface := none } := by
      simp [loadTunnel, hpath, not_lt.mp hexpired]
    have hfate := hfates destinationHash _ hkept
    exact hfate

/-- On a node that is not connected to a shared instance, and for a tunnel that has not
itself expired at the load: the routes that it recorded survive a restart. -/
theorem tunnelRoutes_restored
    (hrun : Runs.exec (operateStep c) (Instance.start, []) ops = some (n, heard))
    (htunnel : n.tunnels tunnelId = some tunnel) (recordings : List Recording)
    (hrestarted : Restarted codec (recordings.foldl recordPath n.toTransportState) loadTime tunnelId
      walk before)
    (hlive : ¬ tunnel.expires < loadTime) (r : Reading) (hlater : loadTime ≤ r.now)
    (interface : String) :
    let recorded := recordedPaths n.interfaces tunnelId tunnel.paths recordings
    (∀ earlier recording later, recordings = earlier ++ recording :: later →
      recording.tunnelId n.interfaces = some tunnelId →
      (∀ other ∈ later, other.tunnelId n.interfaces = some tunnelId →
        other.destinationHash ≠ recording.destinationHash) →
      recorded recording.destinationHash = some recording.path) ∧
    RoutesSurvive recorded before (handleTunnel before r tunnelId interface walk) tunnelId interface
      r.now := by
  intro recorded
  constructor
  · rintro earlier recording later rfl hcarried hlast
    exact recordedPaths_last hcarried hlast
  · have hown := (OwnIds.run hrun).1.recorded recordings
    have hsaved := tunnels_recorded htunnel recordings
    exact routes_restarted hrestarted hown hsaved hlive r hlater interface

end Restart

section Samples

set_option maxRecDepth 4000

/-- The tunnel of the samples. -/
def sampleTunnelId : Bytes := List.replicate 32 1

/-- The destination behind it. -/
def behindTunnel : Bytes := List.replicate 16 2

/-- Two interfaces are registered, and the tunnel appears on the left one. -/
def tunnelOps : List Operation :=
  [.other { Instance.start with interfaces := twoInterfaces.interfaces },
    .handleTunnel .zero sampleTunnelId "left" []]

/-- The node with the tunnel. -/
def tunnelNode : Instance := tunnelOps.foldl (operate (Link.sampleCrypto [])) Instance.start

/-- A route over the left interface, ten seconds later. -/
def tunnelRecording : Recording :=
  { now := 10
    receivingInterface := some "left"
    destinationHash := behindTunnel
    nextHop := List.replicate 16 3
    hops := 2
    expires := 604810
    randomBlob := none
    packetHash := List.replicate 32 4 }

/-- The node with the recorded route. -/
def recordedNode : TransportState := recordPath tunnelNode.toTransportState tunnelRecording

/-- The tunnel with the recorded route. -/
def recordedTunnel : Tunnel :=
  { tunnelId := sampleTunnelId
    interface := some "left"
    paths := Table.insert (fun _ => none) behindTunnel tunnelRecording.path
    expires := Reading.zero.now + destinationTimeout }

/-- The order of one tunnel with one path. -/
def sampleOrder : WalkOrder := { tunnels := [sampleTunnelId], paths := fun _ => [behindTunnel] }

/-- A string of fewer than 32 bytes in MessagePack. -/
def packText (text : String) : Bytes :=
  UInt8.ofNat (0xA0 + text.length) :: text.toUTF8.data.toList

/-- Bytes below 128 as an array of numbers in MessagePack, at least 16 of them. -/
def packArray (bytes : Bytes) : Bytes := [0xDC, 0, UInt8.ofNat bytes.length] ++ bytes

/-- The file of the recorded tunnel. -/
def tunnelFile : Bytes :=
  [0x91, 0x84] ++ packText "tunnel_id" ++ packArray sampleTunnelId ++
    packText "interface_hash" ++ [0x94, 0x6C, 0x65, 0x66, 0x74] ++
    packText "paths" ++ [0x91, 0x88] ++
      packText "destination_hash" ++ packArray behindTunnel ++
      packText "timestamp" ++ [0xCB, 0x40, 0x24, 0, 0, 0, 0, 0, 0] ++
      packText "received_from" ++ packArray (List.replicate 16 3) ++
      packText "hops" ++ [2] ++
      packText "expires" ++ [0xCB, 0x41, 0x22, 0x75, 0x14, 0, 0, 0, 0] ++
      packText "random_blobs" ++ [0x90] ++
      packText "interface_hash" ++ [0x90] ++
      packText "packet_hash" ++ packArray (List.replicate 32 4) ++
    packText "expires" ++ [0xCB, 0x41, 0x22, 0x75, 0, 0, 0, 0, 0]

/-- MessagePack for that file. -/
def sampleCodec : TunnelCodec where
  toVec _ := tunnelFile
  fromSlice bytes :=
    if bytes = tunnelFile then some (tunnelEntries recordedNode.tunnels sampleOrder) else none

/-- The node that has loaded the file. -/
def loadedNode (loadTime : ℚ) : TransportState :=
  loadTunnelFile sampleCodec Instance.start.toTransportState
    (saveTunnelFile sampleCodec recordedNode sampleOrder none) loadTime

theorem tunnelNode_tunnels : tunnelNode.tunnels =
    Table.insert (fun _ => none) sampleTunnelId { recordedTunnel with paths := fun _ => none } := rfl

theorem tunnelRecording_tunnelId :
    tunnelRecording.tunnelId tunnelNode.interfaces = some sampleTunnelId := by decide +kernel

theorem recordedNode_tunnels :
    recordedNode.tunnels = Table.insert tunnelNode.tunnels sampleTunnelId recordedTunnel := by
  unfold recordedNode recordPath
  rw [tunnelRecording_tunnelId, tunnelNode_tunnels]
  simp only [Table.insert_self]
  rfl

/-- One key is walked. -/
theorem enumerates_singleton {V : Type*} {table : Table V} {key : Bytes} {value : V}
    (htable : ∀ other, table other = if other = key then some value else none) :
    Walk.Enumerates [key] table := by
  refine ⟨List.nodup_singleton key, ?_⟩
  intro other
  rw [htable other]
  by_cases heq : other = key <;> simp [heq]

theorem recordedNode_tunnel (id : Bytes) :
    recordedNode.tunnels id = if id = sampleTunnelId then some recordedTunnel else none := by
  rw [recordedNode_tunnels, tunnelNode_tunnels]
  by_cases heq : id = sampleTunnelId <;> simp [Table.insert, heq]

theorem recordedTunnel_path (hash : Bytes) : recordedTunnel.paths hash =
    if hash = behindTunnel then some tunnelRecording.path else none := by
  by_cases heq : hash = behindTunnel <;> simp [recordedTunnel, Table.insert, heq]

theorem sampleOrder_covers : sampleOrder.Covers recordedNode.tunnels := by
  refine ⟨enumerates_singleton recordedNode_tunnel, ?_⟩
  intro id tunnel hid
  rw [recordedNode_tunnel] at hid
  split at hid
  · obtain rfl := Option.some.inj hid
    exact enumerates_singleton recordedTunnel_path
  · cases hid

theorem sampleCodec_inverts :
    sampleCodec.fromSlice (sampleCodec.toVec (tunnelEntries recordedNode.tunnels sampleOrder)) =
      some (tunnelEntries recordedNode.tunnels sampleOrder) := by
  unfold sampleCodec
  dsimp only
  rw [if_pos rfl]

theorem loadedNode_eq (loadTime : ℚ) : loadedNode loadTime = (loadTunnelTable
    { Instance.start with savedTunnels := some recordedNode.tunnels } loadTime).toTransportState := by
  have hown : UnderOwnId recordedNode.tunnels := by
    intro id tunnel hid
    rw [recordedNode_tunnel] at hid
    split at hid
    · rename_i heq
      obtain rfl := Option.some.inj hid
      exact heq.symm
    · cases hid
  have hshared : recordedNode.isConnectedToSharedInstance = false := rfl
  unfold loadedNode
  rw [loadTunnelFile_saved sampleCodec_inverts hshared hown sampleOrder_covers]

theorem loadedNode_tunnel (loadTime : ℚ) : (loadedNode loadTime).tunnels sampleTunnelId =
    if recordedTunnel.expires < loadTime then none else some (loadTunnel loadTime recordedTunnel) := by
  rw [loadedNode_eq]
  have htunnel : recordedNode.tunnels sampleTunnelId = some recordedTunnel := by
    simp [recordedNode_tunnel]
  have hloaded : ∀ saved : Table Tunnel, (loadTunnelTable
      { Instance.start with savedTunnels := some saved } loadTime).tunnels sampleTunnelId =
        (saved sampleTunnelId).bind fun tunnel =>
          if tunnel.expires < loadTime then none else some (loadTunnel loadTime tunnel) := by
    intro saved
    cases hsaved : saved sampleTunnelId <;> simp [loadTunnelTable, Instance.start,
      TransportState.start, hsaved]
  rw [hloaded, htunnel]
  rfl

theorem sample_restarted (loadTime : ℚ) (hlive : ¬ tunnelRecording.expires < loadTime) :
    Restarted sampleCodec recordedNode loadTime sampleTunnelId [behindTunnel]
      (loadedNode loadTime) where
  unshared := rfl
  loaded := by
    refine ⟨sampleOrder, none, Instance.start, sampleOrder_covers, sampleCodec_inverts, rfl, ?_⟩
    unfold loadedNode
    rfl
  walk := by
    intro tunnel htunnel
    rw [loadedNode_tunnel] at htunnel
    split at htunnel
    · cases htunnel
    obtain rfl := Option.some.inj htunnel
    have hpath : ∀ hash, (loadTunnel loadTime recordedTunnel).paths hash =
        if hash = behindTunnel then some { tunnelRecording.path with receivingInterface := none }
        else none := by
      intro hash
      have hexpires : tunnelRecording.path.expires = tunnelRecording.expires := rfl
      unfold loadTunnel
      dsimp only
      rw [recordedTunnel_path]
      by_cases heq : hash = behindTunnel
      · simp [heq, hexpires, not_lt.mp hlive]
      · simp [heq]
    exact enumerates_singleton hpath

theorem tunnelNode_tunnel : tunnelNode.tunnels sampleTunnelId =
    some { recordedTunnel with paths := fun _ => none } := by
  rw [tunnelNode_tunnels]
  exact Table.insert_self _ _ _

/-- The recorded route comes back on the right interface. -/
theorem tunnelRoutes_restored_sample :
    Routed (handleTunnel (loadedNode 100) { Reading.zero with now := 200 } sampleTunnelId "right"
      [behindTunnel]) behindTunnel (restoredRoute tunnelRecording.path "right" 200) := by
  have hrun : Runs.exec (operateStep (Link.sampleCrypto [])) (Instance.start, []) tunnelOps =
      some (tunnelNode, []) := rfl
  obtain ⟨hlast, reappeared, -, -, hfates⟩ := tunnelRoutes_restored hrun tunnelNode_tunnel
    [tunnelRecording]
    (sample_restarted 100 (by decide +kernel)) (by decide +kernel)
    { Reading.zero with now := 200 } (by decide +kernel) "right"
  have hrecorded := hlast [] tunnelRecording [] rfl tunnelRecording_tunnelId (by simp)
  have hroutes : (loadedNode 100).pathTable behindTunnel = none := by
    rw [loadedNode_eq]
    rfl
  refine (hfates behindTunnel tunnelRecording.path hrecorded).1 ⟨by decide +kernel, ?_⟩
  rw [hroutes]
  simp

/-- A tunnel that has expired at the load is not loaded: the route that was recorded later
has not expired, and is lost. -/
theorem tunnelRoutes_restored_false :
    ¬ ∀ (c : Crypto) (ops : List Operation) (n : Instance) (heard : List Incoming)
      (tunnelId : Bytes) (tunnel : Tunnel) (recordings : List Recording) (codec : TunnelCodec)
      (loadTime : ℚ) (walk : List Bytes) (before : TransportState) (r : Reading)
      (interface : String),
      Runs.exec (operateStep c) (Instance.start, []) ops = some (n, heard) →
      n.tunnels tunnelId = some tunnel →
      Restarted codec (recordings.foldl recordPath n.toTransportState) loadTime tunnelId walk
        before →
      loadTime ≤ r.now →
      RoutesSurvive (recordedPaths n.interfaces tunnelId tunnel.paths recordings) before
        (handleTunnel before r tunnelId interface walk) tunnelId interface r.now := by
  intro h
  obtain ⟨reappeared, -, -, hfates⟩ := h (Link.sampleCrypto []) tunnelOps tunnelNode [] sampleTunnelId
    { recordedTunnel with paths := fun _ => none } [tunnelRecording] sampleCodec 604805
    [behindTunnel] (loadedNode 604805) { Reading.zero with now := 604806 } "right" rfl
    tunnelNode_tunnel (sample_restarted 604805 (by decide +kernel)) (by decide +kernel)
  have hrecorded : recordedPaths tunnelNode.interfaces sampleTunnelId (fun _ => none)
      ([] ++ tunnelRecording :: []) behindTunnel = some tunnelRecording.path :=
    recordedPaths_last tunnelRecording_tunnelId (by simp)
  have hroutes : (loadedNode 604805).pathTable behindTunnel = none := by
    rw [loadedNode_eq]
    rfl
  have hlost : (loadedNode 604805).tunnels sampleTunnelId = none := by
    rw [loadedNode_tunnel, if_pos (by decide +kernel)]
  have hrestorable : Restorable (loadedNode 604805) 604806 behindTunnel tunnelRecording.path := by
    refine ⟨by decide +kernel, ?_⟩
    rw [hroutes]
    simp
  obtain ⟨routes, hheld, -⟩ := (hfates behindTunnel tunnelRecording.path hrecorded).1 hrestorable
  unfold handleTunnel at hheld
  dsimp only at hheld
  rw [hlost] at hheld
  cases hroutes.symm.trans hheld

end Samples

end Reticulum.Transport
