import Reticulum.Lib.Runs
import Reticulum.Transport.Admission

/-!
# The path table over whole runs

Nine operations of `src/transport.rs` edit the path table. All but
`Transport::clone_path` keep it well formed: every destination has between one and
`MAX_PATHS_PER_DEST` routes, no two of them over the same interface and next hop,
each with the hash of an announce of that very destination, and blobs are
remembered for destinations with routes alone (`wellFormed_run`). `clone_path` puts
the route of another destination in front, past `admit_route`.

## Implementation notes

What a run has heard is part of the state of the run, so that the hash of a route
is the hash of an announce that was received. Everything else that `Transport`
does leaves the five tables alone that the invariant reads, and is one operation
here.
-/

namespace Reticulum.Transport

/-! ## The other operations on the path table -/

/-- `Transport::clone_path`: the best route of the source is put in front of the routes of
the destination. -/
def clonePath (s : TransportState) (now : ℚ) (sourceHash destinationHash : Bytes) :
    TransportState × Bool :=
  if sourceHash = [] ∨ destinationHash = [] ∨ sourceHash = destinationHash then (s, false)
  else
    match selectPath s.pathTable s.interfaces sourceHash now with
    | none => (s, false)
    | some best =>
        ({ s with
            pathTable := s.pathTable.insert destinationHash
              (best :: (s.pathTable destinationHash).getD [])
            pathTableDirty := true
            pathVerifiedThisSession :=
              if s.pathVerifiedThisSession.contains sourceHash then
                s.pathVerifiedThisSession.insert destinationHash
              else s.pathVerifiedThisSession }, true)

/-- `Transport::start` reads the saved path table: routes that have expired are skipped. -/
def loadPathTable (n : Instance) (now : ℚ) : Instance :=
  match n.savedPathTable with
  | none => n
  | some saved =>
      if n.isConnectedToSharedInstance then n
      else { n with
        pathTable := fun hash =>
          let kept := ((saved hash).getD []).filter fun e => !e.isExpired now
          if kept.isEmpty then n.pathTable hash else some kept
        pathTableDirty := false
        pathTableLastSaved := now }

def saveTunnelTable (n : Instance) : Instance :=
  if n.isConnectedToSharedInstance then n else { n with savedTunnels := some n.tunnels }

/-- A saved tunnel comes back with the paths that have not expired and no interface. -/
def loadTunnel (now : ℚ) (tunnel : Tunnel) : Tunnel :=
  { tunnel with
    interface := none
    paths := fun hash =>
      ((tunnel.paths hash).filter fun path => !(path.expires < now)).map fun path =>
        { path with receivingInterface := none } }

/-- `Transport::load_tunnel_table`, unless the node is connected to a shared instance. -/
def loadTunnelTable (n : Instance) (now : ℚ) : Instance :=
  match n.savedTunnels with
  | none => n
  | some saved =>
      if n.isConnectedToSharedInstance then n
      else { n with
        tunnels := fun id =>
          match saved id with
          | none => n.tunnels id
          | some tunnel =>
              if tunnel.expires < now then n.tunnels id else some (loadTunnel now tunnel) }

/-! ## Well-formed tables -/

/-- The routes of a destination whose announces have these hashes. -/
structure Routes (announced : Bytes → Prop) (routes : List PathEntry) : Prop where
  nonempty : routes ≠ []
  bounded : routes.length ≤ maxPathsPerDest
  distinct : (routes.map fun e => (e.receivingInterface, e.nextHop)).Nodup
  hashes : ∀ e ∈ routes, announced e.packetHash

/-- What identifies a route, and the announce it comes from. -/
def PathEntry.origin (e : PathEntry) : (Option String × Bytes) × Bytes :=
  ((e.receivingInterface, e.nextHop), e.packetHash)

namespace Routes

variable {announced : Bytes → Prop} {routes routes' : List PathEntry}

theorem sublist (h : Routes announced routes) (hsub : routes'.Sublist routes)
    (hne : routes' ≠ []) : Routes announced routes' where
  nonempty := hne
  bounded := hsub.length_le.trans h.bounded
  distinct := h.distinct.sublist (hsub.map _)
  hashes := fun e he => h.hashes e (hsub.subset he)

/-- Times and hops do not matter. -/
theorem of_origin (h : Routes announced routes)
    (heq : routes'.map PathEntry.origin = routes.map PathEntry.origin) :
    Routes announced routes' where
  nonempty := by
    intro hnil
    rw [hnil] at heq
    exact h.nonempty (List.map_eq_nil_iff.mp heq.symm)
  bounded := by
    have hlength := congrArg List.length heq
    rw [List.length_map, List.length_map] at hlength
    exact hlength.le.trans h.bounded
  distinct := by
    have hids := congrArg (List.map Prod.fst) heq
    rw [List.map_map, List.map_map] at hids
    have hdistinct : (routes.map (Prod.fst ∘ PathEntry.origin)).Nodup := h.distinct
    rw [← hids] at hdistinct
    exact hdistinct
  hashes := by
    intro e he
    have hmem : e.origin ∈ routes.map PathEntry.origin := heq ▸ List.mem_map_of_mem he
    obtain ⟨e', he', horigin⟩ := List.mem_map.mp hmem
    have hhash : e'.packetHash = e.packetHash := congrArg Prod.snd horigin
    exact hhash ▸ h.hashes e' he'

end Routes

theorem evictRoutes_ne_nil {routes : List PathEntry} (fuel : Nat) (h : routes ≠ []) :
    evictRoutes fuel routes ≠ [] := by
  induction fuel generalizing routes with
  | zero => exact h
  | succ fuel ih =>
      unfold evictRoutes
      split
      · rename_i hlong
        split
        · rename_i i _
          apply ih
          apply List.ne_nil_of_length_pos
          have hlength := List.le_length_eraseIdx routes i
          have hthree : maxPathsPerDest = 3 := rfl
          omega
        · exact h
      · exact h

namespace Routes

variable {announced : Bytes → Prop} {routes : List PathEntry} {newEntry : PathEntry}

/-- A route that is admitted leaves the routes well formed. -/
theorem admission (hdistinct : (routes.map fun e => (e.receivingInterface, e.nextHop)).Nodup)
    (hhashes : ∀ e ∈ routes, announced e.packetHash) (hnew : announced newEntry.packetHash) :
    Routes announced (admitRoute routes newEntry) where
  nonempty := evictRoutes_ne_nil _ (List.cons_ne_nil _ _)
  bounded := length_admitRoute_le
  distinct := by
    have hothers : (otherRoutes routes newEntry).Sublist routes := List.filter_sublist
    refine List.Nodup.sublist (admitRoute_sublist.map _) ?_
    rw [List.map_cons, List.nodup_cons]
    refine ⟨?_, hdistinct.sublist (hothers.map _)⟩
    intro hmem
    obtain ⟨e, he, hid⟩ := List.mem_map.mp hmem
    have hother := List.of_mem_filter he
    obtain ⟨hvia, hhop⟩ := Prod.mk.injEq .. ▸ hid
    simp [hvia, hhop] at hother
  hashes := by
    intro e he
    rcases List.mem_cons.mp (admitRoute_sublist.subset he) with rfl | hother
    · exact hnew
    · exact hhashes e (List.mem_of_mem_filter hother)

end Routes

/-- Every entry of a path table is well formed. -/
def RoutesKept (announced : Bytes → Bytes → Prop) (table : Table (List PathEntry)) : Prop :=
  ∀ hash routes, table hash = some routes → Routes (announced hash) routes

/-- Every path of a tunnel comes from an announce of its destination. -/
def TunnelsKept (announced : Bytes → Bytes → Prop) (tunnels : Table Tunnel) : Prop :=
  ∀ id tunnel hash path, tunnels id = some tunnel → tunnel.paths hash = some path →
    announced hash path.packetHash

/-- The path table is well formed, and blobs are remembered for its keys alone. -/
structure WellFormed (announced : Bytes → Bytes → Prop) (s : TransportState) : Prop where
  routes : RoutesKept announced s.pathTable
  blobs : ∀ hash, s.pathRandomBlobs.contains hash = true → s.pathTable.contains hash = true

/-- The path table is well formed, and what tunnels put back into it is as well. -/
structure Sound (announced : Bytes → Bytes → Prop) (s : TransportState) : Prop
    extends WellFormed announced s where
  tunnels : TunnelsKept announced s.tunnels

section Tables

variable {announced : Bytes → Bytes → Prop} {table : Table (List PathEntry)} {hash : Bytes}
  {routes : List PathEntry}

section

variable (h : RoutesKept announced table)

include h

theorem RoutesKept.insert (hroutes : Routes (announced hash) routes) :
    RoutesKept announced (table.insert hash routes) := by
  intro other routes' hother
  by_cases heq : other = hash
  · subst heq
    rw [Table.insert_self] at hother
    exact Option.some.inj hother ▸ hroutes
  · rw [Table.insert_of_ne _ heq] at hother
    exact h other routes' hother

/-- The routes of a destination, or none. -/
theorem RoutesKept.getD (hash : Bytes) :
    (((table hash).getD []).map fun e => (e.receivingInterface, e.nextHop)).Nodup ∧
      ∀ e ∈ (table hash).getD [], announced hash e.packetHash := by
  cases htable : table hash with
  | none => exact ⟨List.nodup_nil, fun e he => absurd he List.not_mem_nil⟩
  | some routes => exact ⟨(h hash routes htable).distinct, (h hash routes htable).hashes⟩

theorem RoutesKept.admission {newEntry : PathEntry} (hnew : announced hash newEntry.packetHash) :
    RoutesKept announced (table.insert hash (admitRoute ((table hash).getD []) newEntry)) :=
  h.insert (.admission (h.getD hash).1 (h.getD hash).2 hnew)

/-- Some entries are taken out of the table. -/
theorem RoutesKept.remove (hash : Bytes) :
    RoutesKept announced (table.remove hash) := by
  intro other routes hother
  by_cases heq : other = hash
  · simp [Table.remove, heq] at hother
  · rw [Table.remove, Function.update_of_ne heq] at hother
    exact h other routes hother

theorem RoutesKept.of_untimed {table' : Table (List PathEntry)}
    (heq : untimedTable table' = untimedTable table) : RoutesKept announced table' := by
  intro hash routes' hroutes'
  have huntimed := congrFun heq hash
  unfold untimedTable at huntimed
  rw [hroutes', Option.map_some] at huntimed
  obtain ⟨routes, hroutes, hmap⟩ := Option.map_eq_some_iff.mp huntimed.symm
  refine (h hash routes hroutes).of_origin ?_
  have horigin := congrArg (List.map PathEntry.origin) hmap
  rw [List.map_map, List.map_map] at horigin
  exact horigin.symm

end

theorem TunnelsKept.insert {tunnels : Table Tunnel} (h : TunnelsKept announced tunnels) {id : Bytes}
    {tunnel : Tunnel}
    (htunnel : ∀ hash path, tunnel.paths hash = some path → announced hash path.packetHash) :
    TunnelsKept announced (tunnels.insert id tunnel) := by
  intro other tunnel' hash path hother hpath
  by_cases heq : other = id
  · subst heq
    rw [Table.insert_self] at hother
    obtain rfl := Option.some.inj hother
    exact htunnel hash path hpath
  · rw [Table.insert_of_ne _ heq] at hother
    exact h other tunnel' hash path hother hpath

theorem contains_insert (table : Table (List PathEntry)) (hash other : Bytes)
    (routes : List PathEntry) (h : table.contains other = true) :
    (table.insert hash routes).contains other = true := by
  by_cases heq : other = hash
  · simp [Table.contains, heq]
  · rw [Table.contains, Table.insert_of_ne _ heq]
    exact h

theorem contains_untimed {table' : Table (List PathEntry)}
    (heq : untimedTable table' = untimedTable table) (hash : Bytes) :
    table'.contains hash = table.contains hash := by
  have huntimed := congrArg Option.isSome (congrFun heq hash)
  simpa [untimedTable, Table.contains] using huntimed

theorem of_foldl_remove {V : Type*} {keys : List Bytes} {paths : Table V} {hash : Bytes} {path : V}
    (h : keys.foldl Table.remove paths hash = some path) : paths hash = some path := by
  induction keys generalizing paths with
  | nil => exact h
  | cons key keys ih =>
      have hremoved := ih h
      by_cases heq : hash = key
      · simp [Table.remove, heq] at hremoved
      · rwa [Table.remove, Function.update_of_ne heq] at hremoved

end Tables

/-! ## What each operation keeps -/

/-- A route that has become stale changes in the path table alone. -/
theorem shortenExpiry_eq (s : TransportState) (r : Reading) (destinationHash : Bytes)
    (e : PathEntry) :
    ∃ pathTable dirty, shortenExpiry s r destinationHash e =
      { s with pathTable := pathTable, pathTableDirty := dirty } := by
  unfold shortenExpiry
  dsimp only
  split
  · exact ⟨_, _, rfl⟩
  · split <;> exact ⟨_, _, rfl⟩

theorem sendAlong_eq (r : Reading) (p : Wire.Packet) (destinationHash : Bytes)
    (routes : List PathEntry) (s : TransportState) :
    ∃ pathTable dirty, (sendAlong r p destinationHash s routes).1 =
      { s with pathTable := pathTable, pathTableDirty := dirty } := by
  induction routes generalizing s with
  | nil => exact ⟨_, _, rfl⟩
  | cons e routes ih =>
      unfold sendAlong
      dsimp only
      obtain ⟨pathTable, dirty, hshorten⟩ := shortenExpiry_eq s r destinationHash e
      split
      · split
        · obtain ⟨pathTable', dirty', hrest⟩ := ih (shortenExpiry s r destinationHash e)
          exact ⟨pathTable', dirty', by rw [hrest, hshorten]⟩
        · exact ⟨pathTable, dirty, hshorten⟩
      · exact ⟨_, _, rfl⟩

theorem markPathUnresponsive_eq (s : TransportState) (destinationHash : Bytes)
    (blockedInterface : Option String) :
    ∃ pathTable blobs dirty, markPathUnresponsive s destinationHash blockedInterface =
      { s with
        pathTable := pathTable, pathRandomBlobs := blobs, pathTableDirty := dirty } := by
  unfold markPathUnresponsive
  split
  · exact ⟨_, _, _, rfl⟩
  · dsimp only
    split <;> exact ⟨_, _, _, rfl⟩

namespace Sound

variable {announced announced' : Bytes → Bytes → Prop} {c : Crypto} {s s' : TransportState}
  {r : Reading} {p : Wire.Packet}

section

variable (h : Sound announced s)

include h

theorem mono (hmono : ∀ hash packetHash, announced hash packetHash → announced' hash packetHash) :
    Sound announced' s := by
  refine ⟨⟨?_, h.blobs⟩, ?_⟩
  · intro hash routes hroutes
    obtain ⟨hne, hbounded, hdistinct, hhashes⟩ := h.routes hash routes hroutes
    exact ⟨hne, hbounded, hdistinct, fun e he => hmono _ _ (hhashes e he)⟩
  · intro id tunnel hash path hid hpath
    exact hmono _ _ (h.tunnels id tunnel hash path hid hpath)

theorem of_noted (hnoted : Noted s s') : Sound announced s' := by
  obtain ⟨_, _, _, rfl, -, -⟩ := hnoted
  exact ⟨⟨h.routes, h.blobs⟩, h.tunnels⟩

theorem of_forwarded (hforwarded : Forwarded s s') :
    Sound announced s' := by
  obtain ⟨_, _, _, _, rfl, -, hpaths⟩ := hforwarded
  refine ⟨⟨h.routes.of_untimed hpaths, ?_⟩, h.tunnels⟩
  intro hash hblobs
  rw [contains_untimed hpaths]
  exact h.blobs hash hblobs

/-- A route that is admitted, or put in the place of another, needs no new blob. -/
theorem insertRoutes {hash : Bytes} {routes : List PathEntry} (dirty : Bool)
    (hroutes : Routes (announced hash) routes) :
    Sound announced { s with
      pathTable := s.pathTable.insert hash routes, pathTableDirty := dirty } :=
  ⟨⟨h.routes.insert hroutes, fun other hother => contains_insert _ _ _ _ (h.blobs other hother)⟩,
    h.tunnels⟩

/-- The routes and the blobs of a destination go together. -/
theorem removeRoutes (hash : Bytes) (dirty : Bool) :
    Sound announced { s with
      pathTable := s.pathTable.remove hash, pathRandomBlobs := s.pathRandomBlobs.remove hash
      pathTableDirty := dirty } := by
  refine ⟨⟨h.routes.remove hash, ?_⟩, h.tunnels⟩
  intro other hother
  by_cases heq : other = hash
  · simp [Table.remove, Table.contains, heq] at hother
  · have hblobs : s.pathRandomBlobs.remove hash other = s.pathRandomBlobs other :=
      Function.update_of_ne heq _ _
    have hroutes : s.pathTable.remove hash other = s.pathTable other :=
      Function.update_of_ne heq _ _
    dsimp only at hother ⊢
    rw [Table.contains, hblobs] at hother
    rw [Table.contains, hroutes]
    exact h.blobs other hother

theorem recordTunnelPath {hash : Bytes} (hhash : announced hash (p.packetHash.getD [])) :
    TunnelsKept announced (recordTunnelPath s r p hash) := by
  unfold Transport.recordTunnelPath
  split
  · exact h.tunnels
  split
  · exact h.tunnels
  rename_i tunnelId _ _ tunnel htunnel
  refine h.tunnels.insert ?_
  intro other path hpath
  dsimp only at hpath
  by_cases hother : other = hash
  · subst hother
    rw [Table.insert_self] at hpath
    obtain rfl := Option.some.inj hpath
    exact hhash
  · rw [Table.insert_of_ne _ hother] at hpath
    exact h.tunnels tunnelId tunnel other path htunnel hpath

theorem admitAnnounce {hash : Bytes} (hhash : announced hash (p.packetHash.getD [])) :
    Sound announced (admitAnnounce s r p hash) := by
  refine ⟨⟨h.routes.admission hhash, ?_⟩, h.recordTunnelPath hhash⟩
  intro other hother
  by_cases heq : other = hash
  · simp [Transport.admitAnnounce, Table.contains, heq]
  · apply contains_insert
    apply h.blobs
    -- only the blobs of the announced destination change
    have hblobs : (Transport.admitAnnounce s r p hash).pathRandomBlobs other =
        s.pathRandomBlobs other := by
      have hrecord : recordBlob s p hash other = s.pathRandomBlobs other := by
        unfold recordBlob
        cases announceBlob p with
        | none => rfl
        | some blob => exact Table.insert_of_ne _ heq _
      unfold Transport.admitAnnounce
      dsimp only
      split
      · exact hrecord
      · rfl
    rwa [Table.contains, hblobs] at hother

theorem processAnnounce
    (hhash : ∀ hash, p.destinationHash = some hash → announced hash (p.packetHash.getD [])) :
    Sound announced (processAnnounce s r p).1 := by
  obtain ⟨table, ⟨-, heq⟩ | ⟨hash, requests, pacing, pending, hdest, heq⟩⟩ :=
    processAnnounce_cases s r p
  · rw [heq]
    exact ⟨⟨h.routes, h.blobs⟩, h.tunnels⟩
  · rw [heq]
    have hadmitted := h.admitAnnounce (r := r) (hhash hash hdest)
    exact ⟨⟨hadmitted.routes, hadmitted.blobs⟩, hadmitted.tunnels⟩

theorem inboundAnnounce
    (hhash : ∀ hash, p.destinationHash = some hash → announced hash (p.packetHash.getD [])) :
    Sound announced (inboundAnnounce c s r p).2 := by
  obtain ⟨validated, known, ratchets, hashlist, -, ⟨-, heq, -⟩ | ⟨-, heq, -⟩⟩ :=
    inboundAnnounce_cases c s r p
  · rw [heq]
    exact processAnnounce ⟨⟨h.routes, h.blobs⟩, h.tunnels⟩ hhash
  · rw [heq]
    exact ⟨⟨h.routes, h.blobs⟩, h.tunnels⟩

theorem inbound {raw : Bytes} {receivingInterface : Option String}
    (hframe : ∀ p hash packetHash, readFrame c raw receivingInterface = some p →
      p.packetType = Wire.announce → p.destinationHash = some hash →
      p.packetHash = some packetHash → announced hash packetHash) :
    Sound announced (inbound c s r raw receivingInterface).2 := by
  obtain ⟨-, hnoted⟩ | ⟨p, hread, ⟨htype, heq⟩ | ⟨-, heq⟩⟩ :=
    inbound_cases c s r raw receivingInterface
  · exact h.of_noted hnoted
  · rw [heq]
    refine (h.of_noted noted_admitted).inboundAnnounce ?_
    intro hash hdest
    obtain ⟨-, packetHash, hpacket⟩ := fields_of_readFrame hread
    have hheard := hframe p hash packetHash hread htype hdest hpacket
    rw [show (hopped p).packetHash = some packetHash from hpacket]
    exact hheard
  · rw [heq]
    exact (h.of_noted noted_admitted).of_forwarded .inboundPacket

theorem restoreTunnelPaths {recorded : Table TunnelPath}
    (hrecorded : ∀ hash path, recorded hash = some path → announced hash path.packetHash)
    (interface : String) (now : ℚ) (order : List Bytes) :
    Sound announced (restoreTunnelPaths s interface recorded now order).1 := by
  have hfold : ∀ acc : TransportState × List Bytes, Sound announced acc.1 →
      Sound announced (order.foldl (restoreTunnelPath interface recorded now) acc).1 := by
    induction order with
    | nil => exact fun _ hacc => hacc
    | cons hash order ih =>
        intro acc hacc
        apply ih
        unfold restoreTunnelPath
        dsimp only
        split
        · exact hacc
        rename_i path hpath
        unfold restorePath
        dsimp only
        split
        · exact hacc
        · rename_i routes hroutes
          split at hroutes
          · cases hroutes
          obtain rfl := Option.some.inj hroutes
          have hheld := hacc.routes.getD hash
          exact hacc.insertRoutes true (.admission hheld.1 hheld.2 (hrecorded hash path hpath))
  exact hfold (s, []) h

theorem handleTunnel (tunnelId : Bytes) (interface : String)
    (order : List Bytes) : Sound announced (handleTunnel s r tunnelId interface order) := by
  unfold Transport.handleTunnel
  dsimp only
  split
  · rename_i tunnel htunnel
    have hrecorded := h.tunnels tunnelId tunnel
    have hrestored := restoreTunnelPaths
      (s := { s with interfaces := setTunnelId s.interfaces interface tunnelId })
      ⟨⟨h.routes, h.blobs⟩, h.tunnels⟩ (hrecorded · · htunnel) interface r.now order
    refine ⟨⟨hrestored.routes, hrestored.blobs⟩, hrestored.tunnels.insert ?_⟩
    intro hash path hpath
    exact hrecorded hash path htunnel (of_foldl_remove hpath)
  · refine ⟨⟨h.routes, h.blobs⟩, h.tunnels.insert ?_⟩
    intro hash path hpath
    cases hpath

theorem expirePath (hash : Bytes) :
    Sound announced (expirePath s hash) :=
  h.removeRoutes hash _

theorem markPathUnresponsive (hash : Bytes) (blockedInterface : Option String) :
    Sound announced (markPathUnresponsive s hash blockedInterface) := by
  unfold Transport.markPathUnresponsive
  split
  · exact h
  rename_i routes hroutes
  dsimp only
  split
  · exact h.removeRoutes hash _
  · rename_i hkept
    refine h.insertRoutes _ ((h.routes hash routes hroutes).sublist ?_ ?_)
    · unfold responsiveRoutes
      split
      · exact List.filter_sublist
      · exact List.nil_sublist _
    · simpa using hkept

theorem shortenExpiry (hash : Bytes) (e : PathEntry) :
    Sound announced (shortenExpiry s r hash e) := by
  unfold Transport.shortenExpiry
  dsimp only
  split
  · exact h
  rename_i k hfound
  split
  swap
  · exact h
  obtain ⟨routes, hroutes⟩ : ∃ routes, s.pathTable hash = some routes := by
    cases htable : s.pathTable hash with
    | none =>
        rw [htable] at hfound
        cases hfound
    | some routes => exact ⟨routes, rfl⟩
  rw [hroutes, Option.getD_some]
  refine h.insertRoutes true ((h.routes hash routes hroutes).of_origin ?_)
  apply List.ext_getElem
  · simp
  · intro i _ _
    simp only [List.getElem_map, List.getElem_modify]
    split <;> rfl

theorem sendAlong (hash : Bytes) (routes : List PathEntry) :
    Sound announced (sendAlong r p hash s routes).1 := by
  induction routes generalizing s with
  | nil => exact h
  | cons e routes ih =>
      unfold Transport.sendAlong
      dsimp only
      split
      · split
        · exact ih (h.shortenExpiry hash e)
        · exact h.shortenExpiry hash e
      · exact h

end

theorem closeLink {n : Instance} (h : Sound announced n.toTransportState) (now : ℚ)
    (requests : Table (Option String)) (hash : Bytes) :
    Sound announced (closeLink now (n, requests) hash).1.toTransportState := by
  unfold Transport.closeLink
  dsimp only
  split
  · exact h
  split
  · exact h
  · exact ⟨⟨h.routes, h.blobs⟩, h.tunnels⟩
  · rename_i front routes hroutes
    have hfront : Routes (announced hash) ({ front with timestamp := 0 } :: routes) :=
      (h.routes hash _ hroutes).of_origin rfl
    have hinserted := h.insertRoutes n.pathTableDirty hfront
    exact ⟨⟨hinserted.routes, hinserted.blobs⟩, h.tunnels⟩

theorem runTask {n : Instance} (h : Sound announced n.toTransportState)
    (requests : Table (Option String)) (task : Rediscovery) :
    Sound announced (runTask (n, requests) task).1.toTransportState := by
  have hmarked : Sound announced (if task.markUnresponsive then
      Transport.markPathUnresponsive n.toTransportState task.destinationHash task.blockedInterface
    else n.toTransportState) := by
    split
    · exact h.markPathUnresponsive _ _
    · exact h
  unfold Transport.runTask
  dsimp only
  split
  · exact hmarked.expirePath _
  · exact hmarked

theorem cullEntries (h : Sound announced s) (pass : Pass) :
    Sound announced (cullEntries s pass) := by
  refine ⟨⟨?_, ?_⟩, ?_⟩
  · intro hash routes hculled
    obtain ⟨held, hheld, hroutes⟩ := Option.bind_eq_some_iff.mp hculled
    unfold cullRoutes at hroutes
    dsimp only at hroutes
    split at hroutes
    · cases hroutes
    · rename_i hkept
      obtain rfl := Option.some.inj hroutes
      exact (h.routes hash held hheld).sublist List.filter_sublist (by simpa using hkept)
  · intro hash hblobs
    unfold Table.contains Transport.cullEntries at hblobs
    dsimp only at hblobs
    split at hblobs
    · rename_i hkept
      exact hkept
    · cases hblobs
  · intro id tunnel hash path hculled hpath
    obtain ⟨held, hheld, htunnel⟩ := Option.bind_eq_some_iff.mp hculled
    unfold cullTunnel at htunnel
    split at htunnel
    · cases htunnel
    · obtain rfl := Option.some.inj htunnel
      exact h.tunnels id held hash path hheld (Option.eq_some_of_filter_eq_some hpath)

end Sound

/-- The tables of a node and those on its disk are well formed. -/
structure Stored (announced : Bytes → Bytes → Prop) (n : Instance) : Prop
    extends Sound announced n.toTransportState where
  savedRoutes : ∀ saved, n.savedPathTable = some saved → RoutesKept announced saved
  savedTunnels : ∀ saved, n.savedTunnels = some saved → TunnelsKept announced saved

namespace Stored

variable {announced announced' : Bytes → Bytes → Prop} {c : Crypto} {n : Instance}
  {s : TransportState}

section

variable (h : Stored announced n)

include h

/-- Only the tables of the transport state change. -/
theorem with_state (hs : Sound announced s) :
    Stored announced { n with toTransportState := s } :=
  ⟨hs, h.savedRoutes, h.savedTunnels⟩

theorem mono (hmono : ∀ hash packetHash, announced hash packetHash → announced' hash packetHash) :
    Stored announced' n := by
  refine ⟨h.toSound.mono hmono, ?_, ?_⟩
  · intro saved hsaved hash routes hroutes
    obtain ⟨hne, hbounded, hdistinct, hhashes⟩ := h.savedRoutes saved hsaved hash routes hroutes
    exact ⟨hne, hbounded, hdistinct, fun e he => hmono _ _ (hhashes e he)⟩
  · intro saved hsaved id tunnel hash path hid hpath
    exact hmono _ _ (h.savedTunnels saved hsaved id tunnel hash path hid hpath)

theorem pathRequestHandler (call : Call) (p : Wire.Packet) :
    Stored announced (pathRequestHandler c n call p).1 := by
  obtain ⟨_, heq⟩ := pathRequestHandler_state c n call p
  rw [heq]
  exact ⟨⟨⟨h.routes, h.blobs⟩, h.tunnels⟩, h.savedRoutes, h.savedTunnels⟩

theorem receive (frame : Incoming)
    (hframe : ∀ p hash packetHash,
      readFrame c frame.raw frame.receivingInterface = some p →
      p.packetType = Wire.announce → p.destinationHash = some hash →
      p.packetHash = some packetHash → announced hash packetHash) :
    Stored announced (receive c n frame.call frame.raw frame.receivingInterface).1 := by
  have hinbound := h.with_state (h.toSound.inbound (r := frame.call.reading) hframe)
  obtain ⟨-, heq | ⟨p, -, heq⟩ | ⟨p, -, heq⟩⟩ :=
    receive_cases c n frame.call frame.raw frame.receivingInterface
  · rw [heq]
    exact hinbound
  · rw [heq]
    exact hinbound.pathRequestHandler frame.call p
  · rw [heq]
    unfold tunnelSynthesizeHandler
    split
    · exact hinbound
    · rename_i tunnelId interface _
      exact hinbound.with_state (hinbound.toSound.handleTunnel tunnelId interface _)

theorem savePathTable : Stored announced (savePathTable n) := by
  unfold Transport.savePathTable
  split
  · exact h
  · refine ⟨h.toSound, ?_, h.savedTunnels⟩
    intro saved hsaved
    exact Option.some.inj hsaved ▸ h.routes

theorem saveTunnelTable : Stored announced (saveTunnelTable n) := by
  unfold Transport.saveTunnelTable
  split
  · exact h
  · refine ⟨h.toSound, h.savedRoutes, ?_⟩
    intro saved hsaved
    exact Option.some.inj hsaved ▸ h.tunnels

theorem loadPathTable (now : ℚ) :
    Stored announced (loadPathTable n now) := by
  unfold Transport.loadPathTable
  split
  · exact h
  rename_i saved hsaved
  split
  · exact h
  refine ⟨⟨⟨?_, ?_⟩, h.tunnels⟩, h.savedRoutes, h.savedTunnels⟩
  · intro hash routes hroutes
    dsimp only at hroutes
    split at hroutes
    · exact h.routes hash routes hroutes
    · rename_i hkept
      obtain rfl := Option.some.inj hroutes
      cases hentry : saved hash with
      | none =>
          rw [hentry] at hkept
          exact absurd rfl hkept
      | some routes =>
          rw [hentry, Option.getD_some] at hkept
          exact (h.savedRoutes saved hsaved hash routes hentry).sublist List.filter_sublist
            (by simpa using hkept)
  · intro hash hblobs
    have hheld := h.blobs hash hblobs
    unfold Table.contains at hheld ⊢
    dsimp only
    split
    · exact hheld
    · rfl

theorem loadTunnelTable (now : ℚ) :
    Stored announced (loadTunnelTable n now) := by
  unfold Transport.loadTunnelTable
  split
  · exact h
  rename_i saved hsaved
  split
  · exact h
  refine ⟨⟨⟨h.routes, h.blobs⟩, ?_⟩, h.savedRoutes, h.savedTunnels⟩
  intro id tunnel hash path hid hpath
  dsimp only at hid
  split at hid
  · exact h.tunnels id tunnel hash path hid hpath
  rename_i tunnel' htunnel'
  split at hid
  · exact h.tunnels id tunnel hash path hid hpath
  obtain rfl := Option.some.inj hid
  obtain ⟨path', hpath', rfl⟩ := Option.map_eq_some_iff.mp hpath
  exact h.savedTunnels saved hsaved id tunnel' hash path' htunnel'
    (Option.eq_some_of_filter_eq_some hpath')

theorem closeLink (now : ℚ) (requests : Table (Option String)) (hash : Bytes) :
    Stored announced (closeLink now (n, requests) hash).1 := by
  have hsound := h.toSound.closeLink now requests hash
  have hsaved : (Transport.closeLink now (n, requests) hash).1.savedPathTable = n.savedPathTable ∧
      (Transport.closeLink now (n, requests) hash).1.savedTunnels = n.savedTunnels := by
    unfold Transport.closeLink
    dsimp only
    split
    · exact ⟨rfl, rfl⟩
    · split <;> exact ⟨rfl, rfl⟩
  exact ⟨hsound, hsaved.1 ▸ h.savedRoutes, hsaved.2 ▸ h.savedTunnels⟩

theorem runTask (requests : Table (Option String)) (task : Rediscovery) :
    Stored announced (runTask (n, requests) task).1 :=
  ⟨h.toSound.runTask requests task, h.savedRoutes, h.savedTunnels⟩

theorem saveWhenDirty (now : ℚ) :
    Stored announced (saveWhenDirty n now) := by
  unfold Transport.saveWhenDirty
  split
  · exact savePathTable ⟨⟨⟨h.routes, h.blobs⟩, h.tunnels⟩, h.savedRoutes, h.savedTunnels⟩
  · exact h

end

variable (announced) in
theorem keptByStages (pass : Pass) : KeptByStages pass (Stored announced) where
  closeLink := fun _ requests hash h => h.closeLink pass.now requests hash
  rebroadcastAnnounces := by
    intro n h
    unfold rebroadcastAnnounces
    split
    · exact ⟨⟨⟨h.routes, h.blobs⟩, h.tunnels⟩, h.savedRoutes, h.savedTunnels⟩
    · exact h
  drainLocalAnnounces := fun _ h =>
    ⟨⟨⟨h.routes, h.blobs⟩, h.tunnels⟩, h.savedRoutes, h.savedTunnels⟩
  rotate := by
    intro n h
    unfold rotateTags cullPendingRequests rotateHashlist
    repeat' split
    all_goals exact ⟨⟨⟨h.routes, h.blobs⟩, h.tunnels⟩, h.savedRoutes, h.savedTunnels⟩
  saveWhenDirty := fun _ h => h.saveWhenDirty pass.now
  runTask := fun _ requests task h => h.runTask requests task
  cullEntries := fun _ h => ⟨h.toSound.cullEntries pass, h.savedRoutes, h.savedTunnels⟩
  pathRequests := fun _ _ h =>
    ⟨⟨⟨h.routes, h.blobs⟩, h.tunnels⟩, h.savedRoutes, h.savedTunnels⟩

theorem jobs (h : Stored announced n) (pass : Pass) : Stored announced (jobs n pass).1 :=
  (keptByStages announced pass).jobs h

end Stored

/-! ## Runs -/

/-- An operation of `Transport`. -/
inductive Operation
  | receive (frame : Incoming)
  | handleTunnel (reading : Reading) (tunnelId : Bytes) (interface : String) (order : List Bytes)
  | clonePath (now : ℚ) (sourceHash destinationHash : Bytes)
  | expirePath (destinationHash : Bytes)
  | markPathUnresponsive (destinationHash : Bytes) (blockedInterface : Option String)
  | outbound (reading : Reading) (packet : Wire.Packet) (destinationHash : Bytes)
  | jobs (pass : Pass)
  | persistData
  | load (now : ℚ)
  | restart
  | other (instance' : Instance)

/-- A node after an operation. A restart forgets all but what is on disk, and every other
operation leaves the path table, the blobs, the tunnels and the disk alone. -/
def operate (c : Crypto) (n : Instance) : Operation → Instance
  | .receive frame => (receive c n frame.call frame.raw frame.receivingInterface).1
  | .handleTunnel r tunnelId interface order => { n with
      toTransportState := handleTunnel n.toTransportState r tunnelId interface order }
  | .clonePath now sourceHash destinationHash => { n with
      toTransportState := (clonePath n.toTransportState now sourceHash destinationHash).1 }
  | .expirePath destinationHash => { n with
      toTransportState := expirePath n.toTransportState destinationHash }
  | .markPathUnresponsive destinationHash blockedInterface => { n with
      toTransportState :=
        markPathUnresponsive n.toTransportState destinationHash blockedInterface }
  | .outbound r p destinationHash => { n with
      toTransportState := (outbound n.toTransportState r p destinationHash).1 }
  | .jobs pass => (jobs n pass).1
  | .persistData => saveTunnelTable (savePathTable n)
  | .load now => loadTunnelTable (loadPathTable n now) now
  | .restart => { Instance.start with
      savedPathTable := n.savedPathTable, savedTunnels := n.savedTunnels }
  | .other m => { m with
      pathTable := n.pathTable, pathRandomBlobs := n.pathRandomBlobs, tunnels := n.tunnels
      savedPathTable := n.savedPathTable, savedTunnels := n.savedTunnels }

/-- The frame that an operation takes in. -/
def Operation.frames : Operation → List Incoming
  | .receive frame => [frame]
  | _ => []

/-- A step of a run: the node, and what it has heard so far. -/
def operateStep (c : Crypto) (state : Instance × List Incoming) (op : Operation) :
    Option (Instance × List Incoming) :=
  some (operate c state.1 op, state.2 ++ op.frames)

/-- An announce of the destination with this packet hash was heard. -/
def Announced (c : Crypto) (heard : List Incoming) (destinationHash packetHash : Bytes) : Prop :=
  ∃ frame ∈ heard, ∃ p, readFrame c frame.raw frame.receivingInterface = some p ∧
    p.packetType = Wire.announce ∧ p.destinationHash = some destinationHash ∧
    p.packetHash = some packetHash

/-- `clone_path` finds no route to copy. -/
def CopiesNothing (state : Instance × List Incoming) : Operation → Prop
  | .clonePath now sourceHash destinationHash =>
      sourceHash = [] ∨ destinationHash = [] ∨ sourceHash = destinationHash ∨
        hasPath state.1.toTransportState now sourceHash = false
  | _ => True

theorem clonePath_of_copiesNothing {s : TransportState} {now : ℚ} {sourceHash destinationHash : Bytes}
    (h : sourceHash = [] ∨ destinationHash = [] ∨ sourceHash = destinationHash ∨
      hasPath s now sourceHash = false) :
    (clonePath s now sourceHash destinationHash).1 = s := by
  unfold clonePath
  split
  · rfl
  · rename_i hhashes
    have hnone : selectPath s.pathTable s.interfaces sourceHash now = none := by
      rcases h with h | h | h | h
      · exact absurd (.inl h) hhashes
      · exact absurd (.inr (.inl h)) hhashes
      · exact absurd (.inr (.inr h)) hhashes
      · simpa [hasPath] using h
    rw [hnone]

/-- One operation keeps the tables, unless it copies a route. -/
theorem stored_step {c : Crypto} (state : Instance × List Incoming) (op : Operation)
    (state' : Instance × List Incoming) (h : Stored (Announced c state.2) state.1)
    (hop : CopiesNothing state op) (hstep : operateStep c state op = some state') :
    Stored (Announced c state'.2) state'.1 := by
  obtain rfl := Option.some.inj hstep
  have hmono : Stored (Announced c (state.2 ++ op.frames)) state.1 := by
    refine h.mono ?_
    rintro hash packetHash ⟨frame, hframe, hannounced⟩
    exact ⟨frame, List.mem_append_left _ hframe, hannounced⟩
  cases op with
  | receive frame =>
      refine hmono.receive frame ?_
      intro p hash packetHash hread htype hdest hpacket
      exact ⟨frame, by simp [Operation.frames], p, hread, htype, hdest, hpacket⟩
  | handleTunnel r tunnelId interface order =>
      exact hmono.with_state (hmono.toSound.handleTunnel tunnelId interface order)
  | clonePath now sourceHash destinationHash =>
      refine hmono.with_state ?_
      rw [clonePath_of_copiesNothing hop]
      exact hmono.toSound
  | expirePath destinationHash => exact hmono.with_state (hmono.toSound.expirePath _)
  | markPathUnresponsive destinationHash blockedInterface =>
      exact hmono.with_state (hmono.toSound.markPathUnresponsive _ _)
  | outbound r p destinationHash => exact hmono.with_state (hmono.toSound.sendAlong _ _)
  | jobs pass => exact hmono.jobs pass
  | persistData => exact hmono.savePathTable.saveTunnelTable
  | load now => exact (hmono.loadPathTable now).loadTunnelTable now
  | restart =>
      refine ⟨⟨⟨?_, ?_⟩, ?_⟩, hmono.savedRoutes, hmono.savedTunnels⟩
      · intro hash routes hroutes
        cases hroutes
      · intro hash hblobs
        cases hblobs
      · intro id tunnel hash path hid
        cases hid
  | other m =>
      exact ⟨⟨⟨hmono.routes, hmono.blobs⟩, hmono.tunnels⟩, hmono.savedRoutes, hmono.savedTunnels⟩

theorem stored_start (announced : Bytes → Bytes → Prop) : Stored announced Instance.start := by
  refine ⟨⟨⟨?_, ?_⟩, ?_⟩, ?_, ?_⟩
  · intro hash routes hroutes
    cases hroutes
  · intro hash hblobs
    cases hblobs
  · intro id tunnel hash path hid
    cases hid
  · intro saved hsaved
    cases hsaved
  · intro saved hsaved
    cases hsaved

/-- In every run of a node in which `clone_path` copies no route, the path table is well
formed between any two operations. -/
theorem wellFormed_run (c : Crypto) (ops : List Operation)
    (hops : Runs.Meets (operateStep c) CopiesNothing (Instance.start, []) ops) :
    Runs.Always (operateStep c)
      (fun state => WellFormed (Announced c state.2) state.1.toTransportState)
      (Instance.start, []) ops := by
  have hstored := Runs.always_of_meets (stored_step (c := c)) (stored_start _) hops
  exact fun done state hdone hrun => (hstored done state hdone hrun).toWellFormed

/-! ## A route that is copied -/

/-- A copied route carries the hash of an announce of its source: as long as no announce
of the destination has that hash as well, the table is no longer well formed. -/
theorem not_wellFormed_clonePath {announced : Bytes → Bytes → Prop} {s : TransportState} {now : ℚ}
    {sourceHash destinationHash : Bytes} (h : WellFormed announced s)
    (hcopied : (clonePath s now sourceHash destinationHash).2 = true)
    (hapart : ∀ packetHash, announced sourceHash packetHash → ¬ announced destinationHash packetHash) :
    ¬ WellFormed announced (clonePath s now sourceHash destinationHash).1 := by
  intro hcloned
  unfold clonePath at hcopied hcloned
  split at hcopied
  · cases hcopied
  rename_i hhashes
  rw [if_neg hhashes] at hcloned
  split at hcopied
  · cases hcopied
  rename_i best hbest
  rw [hbest] at hcloned
  obtain ⟨routes, hroutes, hchosen, -⟩ := usable_of_selectPathExcluding hbest
  have hbestHash : announced sourceHash best.packetHash :=
    (h.routes sourceHash routes hroutes).hashes best hchosen
  have hcopy := hcloned.routes destinationHash _ (Table.insert_self _ _ _)
  exact hapart _ hbestHash (hcopy.hashes best List.mem_cons_self)

/-- The frame that announces the zero destination on the left. -/
def zeroIncoming : Incoming :=
  { call := { reading := .zero, randomHash := [], tunnelPaths := [] }
    raw := zeroFrame 1
    receivingInterface := some "left" }

/-- A node with two interfaces hears the announce of the zero destination. -/
def hearingZero : List Operation :=
  [.other { Instance.start with toTransportState := twoInterfaces }, .receive zeroIncoming]

/-- The route of the zero destination is copied twice. -/
def copyingTwice : List Operation :=
  [.clonePath 0 (List.replicate 16 0) [1], .clonePath 0 (List.replicate 16 0) [1]]

/-- The node after all that. -/
def copiedTwice : Instance :=
  (hearingZero ++ copyingTwice).foldl (operate zeroCrypto) Instance.start

section Samples

set_option maxRecDepth 4000

/-- A route to an unknown destination is not copied, and the table stays well formed. -/
theorem wellFormed_run_heard :
    Runs.Always (operateStep zeroCrypto)
      (fun state => WellFormed (Announced zeroCrypto state.2) state.1.toTransportState)
      (Instance.start, []) (hearingZero ++ [.clonePath 0 [7] [1], .jobs ⟨400, [], [], []⟩]) := by
  refine wellFormed_run _ _ ?_
  rintro m₁ ⟨⟩
  refine ⟨True.intro, ?_⟩
  rintro m₂ ⟨⟩
  refine ⟨True.intro, ?_⟩
  rintro m₃ ⟨⟩
  refine ⟨.inr (.inr (.inr ?_)), ?_⟩
  · decide +kernel
  · rintro m₄ ⟨⟩
    exact ⟨True.intro, True.intro⟩

/-- A route that is copied twice stands in the table twice. -/
theorem wellFormed_run_false :
    ¬ ∀ (c : Crypto) (ops : List Operation),
      Runs.Always (operateStep c)
        (fun state => WellFormed (Announced c state.2) state.1.toTransportState)
        (Instance.start, []) ops := by
  intro hall
  have hformed := hall zeroCrypto (hearingZero ++ copyingTwice) (hearingZero ++ copyingTwice)
    (copiedTwice, [zeroIncoming]) (List.prefix_refl _) rfl
  have hsome : (copiedTwice.pathTable [1]).isSome = true := by decide +kernel
  obtain ⟨routes, hroutes⟩ := Option.isSome_iff_exists.mp hsome
  have hdistinct := (hformed.routes [1] routes hroutes).distinct
  have htwice : ¬ (((copiedTwice.pathTable [1]).getD []).map
      fun e => (e.receivingInterface, e.nextHop)).Nodup := by decide +kernel
  rw [hroutes] at htwice
  exact htwice hdistinct

end Samples

end Reticulum.Transport
