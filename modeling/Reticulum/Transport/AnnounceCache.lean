import Reticulum.Transport.TunnelFile

/-!
# The announce cache

`Transport::cache`, `get_cached_packet` and `clean_announce_cache`
(`src/transport.rs`). Routes and the paths that tunnels have recorded refer to announces
by their packet hash, and both survive culling, reappearing tunnels and restarts, while
cleaning takes out what neither of the two tables refers to. In every run, the cache has
the announce of every route and of every recorded path, so that a path request for a
route is answered, and after a cleaning it has nothing else (`announces_kept`).

## Implementation notes

A cleaning walks the two tables in an order that the caller gives. It runs by itself or
in the middle of a pass of `jobs`. A clean restart saves both tables, starts with what is
on disk and loads them, unless the node is connected to a shared instance. That packet
hashes tell the announces of different destinations apart is asked of the announces that
the run receives.
-/

namespace Reticulum.Transport

/-! ## Cleaning -/

/-- The order in which `clean_announce_cache` walks the two tables. -/
structure CleanWalk extends WalkOrder where
  routes : List Bytes

/-- The walk takes up every destination, every tunnel and every path of a tunnel. -/
structure CleanWalk.Covers (walk : CleanWalk) (s : TransportState) : Prop where
  ofRoutes : Walk.Enumerates walk.routes s.pathTable
  ofTunnels : walk.toWalkOrder.Covers s.tunnels

/-- The packet hash that a value of a recorded path holds. -/
def PathEntryValue.hash? : PathEntryValue → Option Bytes
  | .packetHash hash => some hash
  | _ => none

/-- The packet hashes that a value of a tunnel holds. -/
def TunnelEntryValue.hashes : TunnelEntryValue → List Bytes
  | .paths recorded => recorded.flatMap fun path => path.2.filterMap PathEntryValue.hash?
  | _ => []

/-- The hashes whose announces `clean_announce_cache` keeps. -/
def activePaths (s : TransportState) (walk : CleanWalk) : List Bytes :=
  (walk.routes.flatMap fun hash => ((s.pathTable hash).getD []).map (·.packetHash)) ++
    walk.tunnels.flatMap fun id => (s.tunnels id).toList.flatMap fun tunnel =>
      (tunnel.values (walk.paths id)).flatMap TunnelEntryValue.hashes

def cleanAnnounceCache (s : TransportState) (walk : CleanWalk) : TransportState :=
  { s with announceCache := fun hash =>
      if (activePaths s walk).contains hash then s.announceCache hash else none }

/-- A route of the destination, or a path that a tunnel has recorded for it, comes from the
announce with this packet hash. -/
def RefersTo (s : TransportState) (destinationHash packetHash : Bytes) : Prop :=
  (∃ routes e, s.pathTable destinationHash = some routes ∧ e ∈ routes ∧
    e.packetHash = packetHash) ∨
  ∃ id tunnel path, s.tunnels id = some tunnel ∧ tunnel.paths destinationHash = some path ∧
    path.packetHash = packetHash

section Clean

variable {s : TransportState} {walk : CleanWalk} {destinationHash packetHash : Bytes}

theorem mem_values {tunnel : Tunnel} {order : List Bytes} {hash : Bytes} :
    hash ∈ (tunnel.values order).flatMap TunnelEntryValue.hashes ↔
      ∃ destinationHash ∈ order, ∃ path, tunnel.paths destinationHash = some path ∧
        path.packetHash = hash := by
  unfold Tunnel.values TunnelPath.values
  simp only [List.flatMap_cons, List.flatMap_nil, TunnelEntryValue.hashes, List.nil_append,
    List.append_nil, List.mem_flatMap, List.mem_filterMap, Option.map_eq_some_iff]
  constructor
  · rintro ⟨_, ⟨destinationHash, horder, path, hpath, rfl⟩, value, hvalue, hhash⟩
    refine ⟨destinationHash, horder, path, hpath, ?_⟩
    simp only [List.mem_cons, List.not_mem_nil, or_false] at hvalue
    rcases hvalue with rfl | rfl | rfl | rfl | rfl | rfl | rfl <;>
      simp_all [PathEntryValue.hash?]
  · rintro ⟨destinationHash, horder, path, hpath, rfl⟩
    exact ⟨_, ⟨destinationHash, horder, path, hpath, rfl⟩, .packetHash path.packetHash, by simp,
      rfl⟩

/-- What is kept is what one of the tables refers to. -/
theorem mem_activePaths (h : walk.Covers s) :
    packetHash ∈ activePaths s walk ↔ ∃ destinationHash, RefersTo s destinationHash packetHash := by
  unfold activePaths RefersTo
  rw [List.mem_append, exists_or]
  refine or_congr ?_ ?_
  · simp only [List.mem_flatMap, List.mem_map]
    constructor
    · rintro ⟨hash, -, e, he, hhash⟩
      cases htable : s.pathTable hash with
      | none => simp [htable] at he
      | some routes => exact ⟨hash, routes, e, htable, by simpa [htable] using he, hhash⟩
    · rintro ⟨hash, routes, e, htable, he, hhash⟩
      have hwalk : hash ∈ walk.routes := (h.ofRoutes.2 hash).mpr (by simp [htable])
      exact ⟨hash, hwalk, e, by simpa [htable] using he, hhash⟩
  · rw [List.mem_flatMap]
    constructor
    · rintro ⟨id, -, hmem⟩
      obtain ⟨tunnel, htunnel, hmem⟩ := List.mem_flatMap.mp hmem
      obtain ⟨hash, -, path, hpath, hhash⟩ := mem_values.mp hmem
      exact ⟨hash, id, tunnel, path, Option.mem_toList.mp htunnel, hpath, hhash⟩
    · rintro ⟨hash, id, tunnel, path, htunnel, hpath, hhash⟩
      have hid : id ∈ walk.tunnels := (h.ofTunnels.ofTunnels.2 id).mpr (by simp [htunnel])
      have hwalk : hash ∈ walk.paths id :=
        ((h.ofTunnels.ofPaths id tunnel htunnel).2 hash).mpr (by simp [hpath])
      refine ⟨id, hid, List.mem_flatMap.mpr ⟨tunnel, Option.mem_toList.mpr htunnel, ?_⟩⟩
      exact mem_values.mpr ⟨hash, hwalk, path, hpath, hhash⟩

/-- After a cleaning the cache has what one of the tables refers to, as it was. -/
theorem announceCache_cleaned (h : walk.Covers s) :
    (cleanAnnounceCache s walk).announceCache packetHash ≠ none ↔
      (∃ destinationHash, RefersTo s destinationHash packetHash) ∧
        s.announceCache packetHash ≠ none := by
  unfold cleanAnnounceCache
  dsimp only
  rw [← mem_activePaths h, ← List.contains_iff_mem]
  split <;> simp_all

theorem cleaned_of_refersTo (h : walk.Covers s) (hrefers : RefersTo s destinationHash packetHash) :
    (cleanAnnounceCache s walk).announceCache packetHash = s.announceCache packetHash := by
  have hmem := (mem_activePaths h).mpr ⟨destinationHash, hrefers⟩
  exact if_pos (List.contains_iff_mem.mpr hmem)

end Clean

/-! ## What the cache has -/

/-- The frame is the cached announce of the destination under this packet hash. -/
def Cached (c : Crypto) (heard : List Incoming) (cache : Table CachedPacketEntry)
    (destinationHash packetHash : Bytes) : Prop :=
  ∃ frame ∈ heard, ∃ p, readFrame c frame.raw frame.receivingInterface = some p ∧
    p.packetType = Wire.announce ∧ p.destinationHash = some destinationHash ∧
    p.packetHash = some packetHash ∧
    cache packetHash = some { raw := frame.raw, interfaceName := frame.receivingInterface }

/-- No two of the frames have the same packet hash, unless it is taken over the same bytes. -/
def NoCollision (c : Crypto) (heard : List Incoming) : Prop :=
  ∀ frame ∈ heard, ∀ frame' ∈ heard, ∀ p p',
    readFrame c frame.raw frame.receivingInterface = some p →
    readFrame c frame'.raw frame'.receivingInterface = some p' →
    p.packetHash = p'.packetHash → p.getHashablePart = p'.getHashablePart

section Frames

variable {c : Crypto} {raw raw' : Bytes} {receivingInterface receivingInterface' : Option String}
  {p p' : Wire.Packet}

section

variable (h : readFrame c raw receivingInterface = some p)

include h

/-- A frame that is read is the packet of its bytes. -/
theorem unpack_of_readFrame :
    (Wire.Packet.holding raw receivingInterface).unpack c = some p := by
  unfold readFrame at h
  split at h
  · cases h
  · exact h

theorem raw_of_readFrame : p.raw = raw := by
  obtain ⟨f, -, rfl⟩ := Wire.Frame.unpack_eq_some_iff.mp (unpack_of_readFrame h)
  rfl

/-- What the hash is taken over names the destination. -/
theorem destination_of_hashable (h' : readFrame c raw' receivingInterface' = some p')
    (heq : p.getHashablePart = p'.getHashablePart) : p.destinationHash = p'.destinationHash := by
  obtain ⟨f, hraw, rfl⟩ := Wire.Frame.unpack_eq_some_iff.mp (unpack_of_readFrame h)
  obtain ⟨f', hraw', rfl⟩ := Wire.Frame.unpack_eq_some_iff.mp (unpack_of_readFrame h')
  have hpart : (f.fill c (Wire.Packet.holding raw receivingInterface)).getHashablePart =
      f.hashable := Wire.Frame.hashablePart_of_raw (by exact hraw) rfl
  have hpart' : (f'.fill c (Wire.Packet.holding raw' receivingInterface')).getHashablePart =
      f'.hashable := Wire.Frame.hashablePart_of_raw (by exact hraw') rfl
  rw [hpart, hpart'] at heq
  have htail := (List.cons.inj heq).2
  have hlength : f.destinationHash.1.length = f'.destinationHash.1.length :=
    f.destinationHash.2.trans f'.destinationHash.2.symm
  exact congrArg some (List.append_inj_left htail hlength)

end

end Frames

/-! ## What each operation keeps -/

/-- The tables are well formed, and every announce that they refer to is in the cache. -/
def Backed (c : Crypto) (heard : List Incoming) (s : TransportState) : Prop :=
  Sound (Cached c heard s.announceCache) s

section Keeps

variable {c : Crypto} {heard : List Incoming} {cache : Table CachedPacketEntry}
  {frame : Incoming} {p : Wire.Packet} {s : TransportState} {n : Instance}
  {destinationHash packetHash hash : Bytes}

/-- An announce that is cached takes the place of another one of the same destination. -/
theorem Cached.insert (hcollision : NoCollision c heard) (hmem : frame ∈ heard)
    (hread : readFrame c frame.raw frame.receivingInterface = some p)
    (htype : p.packetType = Wire.announce) (hhash : p.packetHash = some hash)
    (h : Cached c heard cache destinationHash packetHash) :
    Cached c heard
      (cache.insert hash { raw := frame.raw, interfaceName := frame.receivingInterface })
      destinationHash packetHash := by
  obtain ⟨frame', hmem', p', hread', htype', hdest, hpacket, hcached⟩ := h
  by_cases heq : packetHash = hash
  · subst heq
    have hpart := hcollision frame' hmem' frame hmem p' p hread' hread (hpacket.trans hhash.symm)
    have hsame := destination_of_hashable hread' hread hpart
    exact ⟨frame, hmem, p, hread, htype, hsame ▸ hdest, hhash, Table.insert_self _ _ _⟩
  · exact ⟨frame', hmem', p', hread', htype', hdest, hpacket,
      (Table.insert_of_ne _ heq _).trans hcached⟩

section

variable (h : Backed c heard s)

include h

theorem Backed.processAnnounce (hcollision : NoCollision c heard)
    (hmem : frame ∈ heard) (hread : readFrame c frame.raw frame.receivingInterface = some p)
    (htype : p.packetType = Wire.announce) (r : Reading) :
    Backed c heard (processAnnounce s r (hopped p)).1 := by
  obtain ⟨table, ⟨-, heq⟩ | ⟨hash, requests, pacing, pending, hdest, heq⟩⟩ :=
    processAnnounce_cases s r (hopped p)
  · rw [heq]
    exact ⟨⟨h.routes, h.blobs⟩, h.tunnels⟩
  · obtain ⟨-, packetHash, hpacket⟩ := fields_of_readFrame hread
    have hcache : (admitAnnounce s r (hopped p) hash).announceCache = s.announceCache.insert
        packetHash { raw := frame.raw, interfaceName := frame.receivingInterface } := by
      have hhopped : (hopped p).packetHash = some packetHash := hpacket
      have hraw : p.raw = frame.raw := raw_of_readFrame hread
      have hvia : p.receivingInterface = frame.receivingInterface :=
        receivingInterface_of_readFrame hread
      unfold admitAnnounce
      dsimp only
      rw [hhopped, ← hraw, ← hvia]
      rfl
    -- The announce stands in the cache before its route is admitted.
    have hbacked : Sound (Cached c heard (admitAnnounce s r (hopped p) hash).announceCache) s := by
      rw [hcache]
      exact Sound.mono h fun _ _ hcached => hcached.insert hcollision hmem hread htype hpacket
    have hnew : Cached c heard (admitAnnounce s r (hopped p) hash).announceCache hash
        ((hopped p).packetHash.getD []) := by
      rw [hcache, show (hopped p).packetHash = some packetHash from hpacket, Option.getD_some]
      exact ⟨frame, hmem, p, hread, htype, hdest, hpacket, Table.insert_self _ _ _⟩
    have hadmitted := hbacked.admitAnnounce (r := r) hnew
    rw [heq]
    exact ⟨⟨hadmitted.routes, hadmitted.blobs⟩, hadmitted.tunnels⟩

theorem Backed.of_noted {s' : TransportState} (hnoted : Noted s s') :
    Backed c heard s' := by
  have hsound := Sound.of_noted h hnoted
  obtain ⟨_, _, _, rfl, -, -⟩ := hnoted
  exact hsound

theorem Backed.inbound (hcollision : NoCollision c heard)
    (hmem : frame ∈ heard) (r : Reading) :
    Backed c heard (inbound c s r frame.raw frame.receivingInterface).2 := by
  obtain ⟨-, hnoted⟩ | ⟨p, hread, ⟨htype, heq⟩ | ⟨-, heq⟩⟩ :=
    inbound_cases c s r frame.raw frame.receivingInterface
  · exact h.of_noted hnoted
  · have hadmitted : Backed c heard (admitted s r p) := h.of_noted noted_admitted
    rw [heq]
    obtain ⟨validated, known, ratchets, hashlist, -, ⟨-, hannounce, -⟩ | ⟨-, hannounce, -⟩⟩ :=
      inboundAnnounce_cases c (admitted s r p) r (hopped p)
    · rw [hannounce]
      refine Backed.processAnnounce ?_ hcollision hmem hread htype r
      exact ⟨⟨hadmitted.routes, hadmitted.blobs⟩, hadmitted.tunnels⟩
    · rw [hannounce]
      exact ⟨⟨hadmitted.routes, hadmitted.blobs⟩, hadmitted.tunnels⟩
  · have hadmitted : Backed c heard (admitted s r p) := h.of_noted noted_admitted
    have hforwarded : Forwarded (admitted s r p)
        (inboundPacket c (admitted s r p) r (hopped p)).2 := .inboundPacket
    have hsound := Sound.of_forwarded hadmitted hforwarded
    rw [heq]
    obtain ⟨_, _, _, _, hstate, -, -⟩ := hforwarded
    rw [hstate] at hsound ⊢
    exact hsound

theorem Backed.handleTunnel (r : Reading) (tunnelId : Bytes)
    (interface : String) (order : List Bytes) :
    Backed c heard (handleTunnel s r tunnelId interface order) := by
  have hsound := Sound.handleTunnel (r := r) h tunnelId interface order
  obtain ⟨_, _, _, _, heq⟩ := handleTunnel_eq s r tunnelId interface order
  rw [heq] at hsound ⊢
  exact hsound

end

theorem Backed.receive (h : Backed c heard n.toTransportState) (hcollision : NoCollision c heard)
    (hmem : frame ∈ heard) :
    Backed c heard
      (receive c n frame.call frame.raw frame.receivingInterface).1.toTransportState := by
  have hinbound := h.inbound hcollision hmem frame.call.reading
  obtain ⟨-, heq | ⟨p, -, heq⟩ | ⟨p, -, heq⟩⟩ :=
    receive_cases c n frame.call frame.raw frame.receivingInterface
  · rw [heq]
    exact hinbound
  · rw [heq]
    obtain ⟨_, heq⟩ := pathRequestHandler_state c _ frame.call p
    rw [heq]
    exact ⟨⟨hinbound.routes, hinbound.blobs⟩, hinbound.tunnels⟩
  · rw [heq]
    unfold tunnelSynthesizeHandler
    split
    · exact hinbound
    · exact hinbound.handleTunnel _ _ _ _

/-- A cleaning leaves every announce that the tables refer to. -/
theorem Backed.cleanAnnounceCache {walk : CleanWalk} (h : Backed c heard s)
    (hwalk : walk.Covers s) : Backed c heard (cleanAnnounceCache s walk) := by
  have hkept : ∀ destinationHash packetHash, RefersTo s destinationHash packetHash →
      Cached c heard s.announceCache destinationHash packetHash →
      Cached c heard (Transport.cleanAnnounceCache s walk).announceCache destinationHash
        packetHash := by
    rintro destinationHash packetHash hrefers
      ⟨frame, hmem, p, hread, htype, hdest, hpacket, hcached⟩
    exact ⟨frame, hmem, p, hread, htype, hdest, hpacket,
      (cleaned_of_refersTo hwalk hrefers).trans hcached⟩
  refine ⟨⟨?_, h.blobs⟩, ?_⟩
  · intro hash routes hroutes
    obtain ⟨hne, hbounded, hdistinct, hhashes⟩ := h.routes hash routes hroutes
    refine ⟨hne, hbounded, hdistinct, fun e he => ?_⟩
    exact hkept _ _ (.inl ⟨routes, e, hroutes, he, rfl⟩) (hhashes e he)
  · intro id tunnel hash path hid hpath
    have hrefers : RefersTo s hash path.packetHash := .inr ⟨id, tunnel, path, hid, hpath, rfl⟩
    exact hkept _ _ hrefers (h.tunnels id tunnel hash path hid hpath)

end Keeps

/-! ## A pass that cleans -/

/-- A pass of `jobs` up to the place where the cache is cleaned. -/
def jobsBeforeClean (n : Instance) (pass : Pass) : Instance × JobsOutput :=
  let (n, requests) := pass.closedLinks.foldl (closeLink pass.now) (n, fun _ => none)
  let (n, rebroadcasts) := rebroadcastAnnounces n pass.now
  let (n, frames) := drainLocalAnnounces n pass.now
  let n := rotateHashlist n
  let n := cullPendingRequests n pass.now
  (rotateTags n, { rebroadcasts := rebroadcasts, frames := frames, requests := requests })

/-- The rest of the pass. -/
def jobsAfterClean (n : Instance) (output : JobsOutput) (pass : Pass) : Instance × JobsOutput :=
  let n := saveWhenDirty n pass.now
  let (n, requests) := cullTables (n, output.requests) pass
  let n := { n with
    pathRequests := fun hash =>
      if requests.contains hash then some pass.now else n.pathRequests hash }
  (n, { output with requests := requests })

/-- `Transport::jobs`, with the cleaning of the cache when it is due. -/
def jobsCleaning (n : Instance) (pass : Pass) (clean : Option CleanWalk) : Instance × JobsOutput :=
  let (n, output) := jobsBeforeClean n pass
  match clean with
  | none => jobsAfterClean n output pass
  | some walk =>
      jobsAfterClean { n with toTransportState := cleanAnnounceCache n.toTransportState walk }
        output pass

section Jobs

variable {c : Crypto} {heard : List Incoming} {n : Instance}

theorem Backed.markPathUnresponsive {s : TransportState} (h : Backed c heard s)
    (destinationHash : Bytes) (blockedInterface : Option String) :
    Backed c heard (markPathUnresponsive s destinationHash blockedInterface) := by
  have hsound := Sound.markPathUnresponsive h destinationHash blockedInterface
  obtain ⟨_, _, _, heq⟩ := markPathUnresponsive_eq s destinationHash blockedInterface
  rw [heq] at hsound ⊢
  exact hsound

variable (c heard) in
/-- Every stage of a pass keeps what is referred to. -/
theorem Backed.keptByStages (pass : Pass) :
    KeptByStages pass fun n => Backed c heard n.toTransportState := by
  refine .of_queues (fun _ _ h => ⟨⟨h.routes, h.blobs⟩, h.tunnels⟩) ?_ ?_
    fun _ h => Sound.cullEntries h pass
  · intro n requests hash h
    have hsound := Sound.closeLink h pass.now requests hash
    have hcache : (closeLink pass.now (n, requests) hash).1.announceCache = n.announceCache := by
      unfold closeLink
      dsimp only
      split
      · rfl
      · split <;> rfl
    unfold Backed
    rw [hcache]
    exact hsound
  · intro n requests task h
    unfold runTask
    dsimp only
    have hmarked : Backed c heard (if task.markUnresponsive then
        Transport.markPathUnresponsive n.toTransportState task.destinationHash task.blockedInterface
      else n.toTransportState) := by
      split
      · exact h.markPathUnresponsive _ _
      · exact h
    split
    · exact Sound.expirePath hmarked task.destinationHash
    · exact hmarked

section

variable (h : Backed c heard n.toTransportState)

include h

theorem Backed.jobsBeforeClean (pass : Pass) :
    Backed c heard (jobsBeforeClean n pass).1.toTransportState := by
  have hstages := Backed.keptByStages c heard pass
  have hclosed := hstages.closeLinks h pass.closedLinks fun _ => none
  have hsent := hstages.rebroadcastAnnounces _ hclosed
  exact hstages.rotate _ (hstages.drainLocalAnnounces _ hsent)

theorem Backed.jobsAfterClean (output : JobsOutput)
    (pass : Pass) : Backed c heard (jobsAfterClean n output pass).1.toTransportState := by
  have hstages := Backed.keptByStages c heard pass
  exact hstages.pathRequests _ _
    (hstages.cullTables (hstages.saveWhenDirty _ h) output.requests)

theorem Backed.jobsCleaning (pass : Pass)
    (clean : Option CleanWalk)
    (hwalk : ∀ walk ∈ clean, walk.Covers (Transport.jobsBeforeClean n pass).1.toTransportState) :
    Backed c heard (jobsCleaning n pass clean).1.toTransportState := by
  have hbefore := h.jobsBeforeClean pass
  cases clean with
  | none => exact hbefore.jobsAfterClean _ pass
  | some walk =>
      refine Backed.jobsAfterClean ?_ _ pass
      exact hbefore.cleanAnnounceCache (hwalk walk rfl)

end

end Jobs

/-! ## A restart -/

/-- A clean restart: `persist_data` saves both tables, and `Transport::start` reads them. The
cache stays on disk. -/
def cleanRestart (n : Instance) (connected : Bool) (pathsAt tunnelsAt : ℚ) : Instance :=
  let saved := saveTunnelTable (savePathTable n)
  let started : Instance := { Instance.start with
    isConnectedToSharedInstance := connected, announceCache := n.announceCache
    savedPathTable := saved.savedPathTable, savedTunnels := saved.savedTunnels }
  loadTunnelTable (loadPathTable started pathsAt) tunnelsAt

section Restart

variable {c : Crypto} {heard : List Incoming} {n : Instance}

theorem announceCache_loaded (n : Instance) (pathsAt tunnelsAt : ℚ) :
    (loadTunnelTable (loadPathTable n pathsAt) tunnelsAt).announceCache = n.announceCache := by
  have hpaths : (loadPathTable n pathsAt).announceCache = n.announceCache := by
    unfold loadPathTable
    split
    · rfl
    · split <;> rfl
  rw [← hpaths]
  unfold loadTunnelTable
  split
  · rfl
  · split <;> rfl

/-- Nothing is loaded on a node that is connected to a shared instance. -/
theorem loaded_of_connected (h : n.isConnectedToSharedInstance = true) (pathsAt tunnelsAt : ℚ) :
    loadTunnelTable (loadPathTable n pathsAt) tunnelsAt = n := by
  have hpaths : loadPathTable n pathsAt = n := by
    unfold loadPathTable
    split
    · rfl
    · rw [if_pos h]
  rw [hpaths]
  unfold loadTunnelTable
  split
  · rfl
  · rw [if_pos h]

/-- The tables that come back are those that were saved, without what has expired. -/
theorem Backed.cleanRestart (h : Backed c heard n.toTransportState) (connected : Bool)
    (pathsAt tunnelsAt : ℚ) (hsaved : n.isConnectedToSharedInstance = true → connected = true) :
    Backed c heard (cleanRestart n connected pathsAt tunnelsAt).toTransportState := by
  have hempty : ∀ cache, Sound (Cached c heard cache)
      { TransportState.start with
        isConnectedToSharedInstance := connected, announceCache := n.announceCache } := by
    intro cache
    refine ⟨⟨?_, ?_⟩, ?_⟩
    · intro hash routes hroutes
      cases hroutes
    · intro hash hblobs
      cases hblobs
    · intro id tunnel hash path hid hpath
      cases hid
  unfold Transport.cleanRestart
  dsimp only
  cases connected with
  | true =>
      rw [loaded_of_connected rfl]
      exact hempty n.announceCache
  | false =>
      have hshared : n.isConnectedToSharedInstance = false := by
        by_contra hconnected
        exact Bool.false_ne_true (hsaved (by simpa using hconnected))
      have hpaths : savePathTable n = { n with savedPathTable := some n.pathTable } := by
        unfold savePathTable
        rw [hshared]
        rfl
      have htunnels : saveTunnelTable { n with savedPathTable := some n.pathTable } =
          { n with savedPathTable := some n.pathTable, savedTunnels := some n.tunnels } := by
        unfold saveTunnelTable
        rw [if_neg (by simp [hshared])]
      rw [hpaths, htunnels]
      unfold Backed
      rw [announceCache_loaded]
      refine (Stored.loadTunnelTable (Stored.loadPathTable ?_ pathsAt) tunnelsAt).toSound
      refine ⟨hempty n.announceCache, ?_, ?_⟩
      · intro saved hsome
        exact Option.some.inj hsome ▸ h.routes
      · intro saved hsome
        exact Option.some.inj hsome ▸ h.tunnels

end Restart

/-! ## Runs -/

/-- An operation on the routes, the tunnels or the cache. -/
inductive CacheOperation
  | receive (frame : Incoming)
  | handleTunnel (reading : Reading) (tunnelId : Bytes) (interface : String) (order : List Bytes)
  | expirePath (destinationHash : Bytes)
  | markPathUnresponsive (destinationHash : Bytes) (blockedInterface : Option String)
  | outbound (reading : Reading) (packet : Wire.Packet) (destinationHash : Bytes)
  | jobs (pass : Pass) (clean : Option CleanWalk)
  | cleanAnnounceCache (walk : CleanWalk)
  | restart (connected : Bool) (pathsAt tunnelsAt : ℚ)
  | other (instance' : Instance)

/-- A node after an operation. What is not listed leaves the routes, the tunnels and the
cache alone. -/
def cacheOperate (c : Crypto) (n : Instance) : CacheOperation → Instance
  | .receive frame => (receive c n frame.call frame.raw frame.receivingInterface).1
  | .handleTunnel r tunnelId interface order => { n with
      toTransportState := handleTunnel n.toTransportState r tunnelId interface order }
  | .expirePath destinationHash => { n with
      toTransportState := expirePath n.toTransportState destinationHash }
  | .markPathUnresponsive destinationHash blockedInterface => { n with
      toTransportState := markPathUnresponsive n.toTransportState destinationHash blockedInterface }
  | .outbound r p destinationHash => { n with
      toTransportState := (outbound n.toTransportState r p destinationHash).1 }
  | .jobs pass clean => (jobsCleaning n pass clean).1
  | .cleanAnnounceCache walk => { n with
      toTransportState := cleanAnnounceCache n.toTransportState walk }
  | .restart connected pathsAt tunnelsAt => cleanRestart n connected pathsAt tunnelsAt
  | .other m => { m with
      pathTable := n.pathTable, pathRandomBlobs := n.pathRandomBlobs, tunnels := n.tunnels
      announceCache := n.announceCache }

/-- The frame that an operation takes in. -/
def CacheOperation.frames : CacheOperation → List Incoming
  | .receive frame => [frame]
  | _ => []

/-- A step of a run. -/
def cacheStep (c : Crypto) (n : Instance) (op : CacheOperation) : Option Instance :=
  some (cacheOperate c n op)

/-- A cleaning walks the whole tables, and a restart loads what was saved. -/
def CacheOperation.Proper (n : Instance) : CacheOperation → Prop
  | .jobs pass clean => ∀ walk ∈ clean, walk.Covers (jobsBeforeClean n pass).1.toTransportState
  | .cleanAnnounceCache walk => walk.Covers n.toTransportState
  | .restart connected _ _ => n.isConnectedToSharedInstance = true → connected = true
  | _ => True

/-- One operation keeps every announce that is referred to. -/
theorem backed_step {c : Crypto} {heard : List Incoming} (hcollision : NoCollision c heard)
    (n : Instance) (op : CacheOperation) (n' : Instance) (h : Backed c heard n.toTransportState)
    (hop : op.Proper n ∧ op.frames ⊆ heard) (hstep : cacheStep c n op = some n') :
    Backed c heard n'.toTransportState := by
  obtain rfl := Option.some.inj hstep
  obtain ⟨hproper, hframes⟩ := hop
  cases op with
  | receive frame => exact h.receive hcollision (hframes List.mem_cons_self)
  | handleTunnel r tunnelId interface order => exact h.handleTunnel r tunnelId interface order
  | expirePath destinationHash => exact Sound.expirePath h destinationHash
  | markPathUnresponsive destinationHash blockedInterface =>
      exact h.markPathUnresponsive destinationHash blockedInterface
  | outbound r p destinationHash =>
      let routes := selectAllPaths n.pathTable n.interfaces destinationHash r.now
      have hsound := Sound.sendAlong (r := r) (p := p) h destinationHash routes
      obtain ⟨_, _, heq⟩ := sendAlong_eq r p destinationHash routes n.toTransportState
      change Backed c heard (sendAlong r p destinationHash n.toTransportState routes).1
      rw [heq] at hsound ⊢
      exact hsound
  | jobs pass clean => exact h.jobsCleaning pass clean hproper
  | cleanAnnounceCache walk => exact h.cleanAnnounceCache hproper
  | restart connected pathsAt tunnelsAt => exact h.cleanRestart connected pathsAt tunnelsAt hproper
  | other m => exact ⟨⟨h.routes, h.blobs⟩, h.tunnels⟩

/-! ## Answers -/

/-- `get_cached_packet` finds an announce of the destination under the packet hash. -/
def Finds (c : Crypto) (n : Instance) (destinationHash packetHash : Bytes) : Prop :=
  ∃ p, cachedAnnounce c n packetHash = some p ∧ p.packetType = Wire.announce ∧
    p.destinationHash = some destinationHash ∧ p.packetHash = some packetHash

/-- A path request is for a route of this node that it may tell. -/
structure AsksFor (n : Instance) (now : ℚ) (destinationHash : Bytes) (isFromLocalClient : Bool)
    (attachedInterface : Option String) (requestorTransportId : Option Bytes) (best : PathEntry) :
    Prop where
  transport : (n.transportEnabled || isFromLocalClient) = true
  foreign : n.destinations.contains destinationHash = false
  route : selectPath n.pathTable n.interfaces destinationHash now = some best
  told : withholds n best attachedInterface requestorTransportId = false

/-- The cache has what routes refer to, path requests for routes are answered from it, and a
cleaning leaves nothing else in it. -/
structure CacheKept (c : Crypto) (n : Instance) : Prop where
  finds : ∀ destinationHash packetHash,
    RefersTo n.toTransportState destinationHash packetHash → Finds c n destinationHash packetHash
  answers : ∀ call destinationHash isFromLocalClient attachedInterface requestorTransportId tag
      best,
    AsksFor n call.reading.now destinationHash isFromLocalClient attachedInterface
      requestorTransportId best →
    ∃ e, (pathRequest c n call destinationHash isFromLocalClient attachedInterface
        requestorTransportId tag).1.announceTable destinationHash = some e ∧
      e.packet.packetType = Wire.announce ∧ e.packet.destinationHash = some destinationHash ∧
      e.packet.packetHash = some best.packetHash ∧ e.hops = best.hops
  cleaned : ∀ walk : CleanWalk, walk.Covers n.toTransportState → ∀ packetHash,
    (cleanAnnounceCache n.toTransportState walk).announceCache packetHash ≠ none →
    ∃ destinationHash, RefersTo n.toTransportState destinationHash packetHash

section Answers

variable {c : Crypto} {heard : List Incoming} {n : Instance} {destinationHash packetHash : Bytes}

theorem Cached.finds (h : Cached c heard n.announceCache destinationHash packetHash) :
    Finds c n destinationHash packetHash := by
  obtain ⟨frame, -, p, hread, htype, hdest, hpacket, hcached⟩ := h
  refine ⟨p, ?_, htype, hdest, hpacket⟩
  unfold cachedAnnounce
  rw [hcached]
  exact unpack_of_readFrame hread

theorem Backed.finds (h : Backed c heard n.toTransportState)
    (hrefers : RefersTo n.toTransportState destinationHash packetHash) :
    Finds c n destinationHash packetHash := by
  obtain ⟨routes, e, hroutes, he, rfl⟩ | ⟨id, tunnel, path, hid, hpath, rfl⟩ := hrefers
  · exact ((h.routes destinationHash routes hroutes).hashes e he).finds
  · exact (h.tunnels id tunnel destinationHash path hid hpath).finds

/-- An announce that is found answers the request. -/
theorem announceTable_answerFromCache (r : Reading) {best : PathEntry} {isFromLocalClient : Bool}
    {attachedInterface : Option String} {requestorTransportId : Option Bytes}
    (htold : withholds n best attachedInterface requestorTransportId = false) {p : Wire.Packet}
    (hfound : cachedAnnounce c n best.packetHash = some p) :
    (answerFromCache c n r destinationHash best isFromLocalClient attachedInterface
        requestorTransportId).1.announceTable destinationHash =
      some (answerEntry n r best { p with hops := best.hops } isFromLocalClient
        attachedInterface) := by
  unfold answerFromCache
  rw [htold, hfound]
  dsimp only
  rw [if_neg Bool.false_ne_true]
  cases attachedInterface with
  | none => exact Table.insert_self _ _ _
  | some name =>
      dsimp only
      split
      · unfold paceLocalClient
        dsimp only
        split <;> exact Table.insert_self _ _ _
      · exact Table.insert_self _ _ _

/-- A request for a route goes to the cache. -/
theorem pathRequest_of_asksFor {call : Call} {isFromLocalClient : Bool}
    {attachedInterface : Option String} {requestorTransportId : Option Bytes} {best : PathEntry}
    (tag : Option Bytes)
    (h : AsksFor n call.reading.now destinationHash isFromLocalClient attachedInterface
      requestorTransportId best) :
    ∃ requests, pathRequest c n call destinationHash isFromLocalClient attachedInterface
        requestorTransportId tag =
      answerFromCache c { n with pendingLocalPathRequests := requests } call.reading destinationHash
        best isFromLocalClient attachedInterface requestorTransportId := by
  obtain ⟨requests, hnoted⟩ : ∃ requests,
      (if n.localClientInterfaces.isEmpty then n
        else noteLocalRequest n call.reading destinationHash attachedInterface) =
      { n with pendingLocalPathRequests := requests } := by
    unfold noteLocalRequest
    dsimp only
    repeat' split
    all_goals exact ⟨_, rfl⟩
  refine ⟨requests, ?_⟩
  unfold pathRequest
  dsimp only
  rw [hnoted]
  dsimp only
  rw [h.foreign, h.transport, if_pos rfl, h.route]
  rfl

/-- Where every announce that is referred to is in the cache, requests are answered. -/
theorem Backed.cacheKept (h : Backed c heard n.toTransportState) : CacheKept c n where
  finds := fun _ _ hrefers => h.finds hrefers
  answers := by
    intro call destinationHash isFromLocalClient attachedInterface requestorTransportId tag best
      hasks
    obtain ⟨routes, hroutes, hbest, -⟩ := usable_of_selectPathExcluding hasks.route
    obtain ⟨p, hfound, htype, hdest, hpacket⟩ :=
      h.finds (.inl ⟨routes, best, hroutes, hbest, rfl⟩)
    obtain ⟨requests, hrequest⟩ := pathRequest_of_asksFor (c := c) tag hasks
    let m : Instance := { n with pendingLocalPathRequests := requests }
    have hcached : cachedAnnounce c m best.packetHash = some p := hfound
    have htold : withholds m best attachedInterface requestorTransportId = false := hasks.told
    refine ⟨answerEntry m call.reading best { p with hops := best.hops } isFromLocalClient
      attachedInterface, ?_, htype, hdest, hpacket, rfl⟩
    rw [hrequest]
    exact announceTable_answerFromCache call.reading htold hcached
  cleaned := fun _ hwalk _ hkept => ((announceCache_cleaned hwalk).mp hkept).1

end Answers

/-- In every run whose announces are told apart by their packet hashes: the cache has the
announce of every route and of every path that a tunnel has recorded, path requests for
routes are answered, and a cleaning leaves nothing else in the cache. -/
theorem announces_kept (c : Crypto) (ops : List CacheOperation)
    (hproper : Runs.Meets (cacheStep c) (fun n op => op.Proper n) Instance.start ops)
    (hcollision : NoCollision c (ops.flatMap CacheOperation.frames)) :
    Runs.Always (cacheStep c) (CacheKept c) Instance.start ops := by
  have hstart : Backed c (ops.flatMap CacheOperation.frames) Instance.start.toTransportState :=
    (stored_start _).toSound
  have hframes : Runs.Meets (cacheStep c)
      (fun _ op => op.frames ⊆ ops.flatMap CacheOperation.frames) Instance.start ops :=
    Runs.meets_of_forall
      (fun op hop _ hframe => List.mem_flatMap.mpr ⟨op, hop, hframe⟩) Instance.start
  have hbacked := Runs.always_of_meets (backed_step hcollision) hstart
    (Runs.meets_and hproper hframes)
  exact fun done n hdone hrun => (hbacked done n hdone hrun).cacheKept

section Samples

set_option maxRecDepth 4000

/-- The id of a tunnel. -/
def cachingTunnelId : Bytes := List.replicate 32 1

/-- The walk over one tunnel that has recorded nothing, and no routes. -/
def cachingWalk : CleanWalk := { tunnels := [cachingTunnelId], paths := fun _ => [], routes := [] }

/-- A tunnel appears on the left interface of a relay and the cache is cleaned; an announce
comes in over the tunnel, a pass of `jobs` goes by, and the node restarts. -/
def cachingOps : List CacheOperation :=
  [.other { Instance.start with
      toTransportState := { twoInterfaces with transportEnabled := true } },
    .handleTunnel .zero cachingTunnelId "left" [], .cleanAnnounceCache cachingWalk,
    .receive zeroIncoming, .jobs ⟨400, [], [], []⟩ none, .restart false 500 500]

/-- The node after all that. -/
def cachingNode : Instance := cachingOps.foldl (cacheOperate zeroCrypto) Instance.start

/-- The route and the tunnel's path are back after the restart, and so is their announce. -/
theorem announces_kept_restart :
    (cachingNode.pathTable (List.replicate 16 0)).isSome = true ∧
      Runs.Always (cacheStep zeroCrypto) (CacheKept zeroCrypto) Instance.start cachingOps := by
  refine ⟨by decide +kernel, announces_kept zeroCrypto cachingOps ?_ ?_⟩
  · rintro m₁ ⟨⟩
    refine ⟨True.intro, ?_⟩
    rintro m₂ ⟨⟩
    refine ⟨True.intro, ?_⟩
    rintro m₃ ⟨⟩
    refine ⟨?_, ?_⟩
    · let tunnel : Tunnel :=
        { tunnelId := cachingTunnelId, interface := some "left", paths := fun _ => none
          expires := Reading.zero.now + destinationTimeout }
      have htunnels : (cacheOperate zeroCrypto (cacheOperate zeroCrypto Instance.start
          (.other { Instance.start with
            toTransportState := { twoInterfaces with transportEnabled := true } }))
          (.handleTunnel .zero cachingTunnelId "left" [])).tunnels =
          Table.insert (fun _ => none) cachingTunnelId tunnel := rfl
      refine ⟨⟨List.nodup_nil, ?_⟩, ⟨⟨List.nodup_singleton _, ?_⟩, ?_⟩⟩
      · intro hash
        exact iff_of_false List.not_mem_nil Bool.false_ne_true
      · intro id
        rw [htunnels]
        by_cases hid : id = cachingTunnelId
        · simp [cachingWalk, hid]
        · rw [Table.insert_of_ne _ hid]
          simp [cachingWalk, hid]
      · intro id held hheld
        rw [htunnels] at hheld
        by_cases hid : id = cachingTunnelId
        · subst hid
          rw [Table.insert_self] at hheld
          obtain rfl := Option.some.inj hheld
          exact ⟨List.nodup_nil, fun hash => iff_of_false List.not_mem_nil Bool.false_ne_true⟩
        · rw [Table.insert_of_ne _ hid] at hheld
          cases hheld
    rintro m₄ ⟨⟩
    refine ⟨True.intro, ?_⟩
    rintro m₅ ⟨⟩
    refine ⟨?_, ?_⟩
    · intro walk hwalk
      cases hwalk
    rintro m₆ ⟨⟩
    refine ⟨?_, True.intro⟩
    unfold CacheOperation.Proper
    decide +kernel
  · intro frame hframe frame' hframe' p p' hread hread' _
    obtain rfl : frame = zeroIncoming := by simpa [cachingOps, CacheOperation.frames] using hframe
    obtain rfl : frame' = zeroIncoming := by simpa [cachingOps, CacheOperation.frames] using hframe'
    obtain rfl := Option.some.inj (hread.symm.trans hread')
    rfl

end Samples

end Reticulum.Transport
