import Mathlib.Algebra.Order.AbsoluteValue.Basic
import Mathlib.Algebra.Order.Group.Abs
import Reticulum.Transport.PathRequest
import Reticulum.Transport.Tunnel

/-!
# The periodic pass

`Transport::jobs` (`src/transport.rs`): announces are rebroadcast, the queue of
the local clients is drained, hash lists and tags are rotated, the path table is
saved, stale entries are culled, and paths are requested again for links that
were never proved.

## Implementation notes

A pass reads the clock once. Hash maps that are walked entry by entry are
functions of the key, so that what leaves from the announce table is a table as
well; the link table is walked in an order that the pass is given. The pending
links that a pass finds closed are given by their destinations. Left out are the
receipts, the announce queues of the interfaces, this node's own announces, the
cleaning of the cache, the sorting of the interfaces and the black list.
-/

namespace Reticulum.Transport

/-! ## The announce table -/

/-- What leaves from the announce table. -/
structure Rebroadcast where
  raw : Bytes
  context : UInt8
  hops : UInt8
  attachedInterface : Option String
  receivingInterface : Option String
  deriving DecidableEq

/-- The packet of an entry of the announce table, as this node passes it on. -/
def rebroadcastOf (s : TransportState) (destinationHash : Bytes) (e : AnnounceEntry) :
    Rebroadcast :=
  let context := if e.blockRebroadcasts then pathResponse else 0
  { raw := announceRaw s { e.packet with hops := e.hops } destinationHash context
    context := context
    hops := e.hops
    attachedInterface := e.attachedInterface
    receivingInterface := e.packet.receivingInterface }

/-- An entry of the announce table is done with: neighbours were heard rebroadcasting it
often enough, or it was sent often enough. -/
def AnnounceEntry.completed (e : AnnounceEntry) : Bool :=
  localRebroadcastsMax ≤ e.localRebroadcasts || pathfinderR < e.retries

/-- An entry of the announce table leaves in this pass. -/
def AnnounceEntry.leaves (e : AnnounceEntry) (now : ℚ) : Bool :=
  !e.completed && e.retransmitTimeout < now

/-- An entry of the announce table after a pass. -/
def AnnounceEntry.pass (e : AnnounceEntry) (now : ℚ) : Option AnnounceEntry :=
  if e.completed then none
  else if e.retransmitTimeout < now then
    some { e with
      retransmitTimeout := now + pathfinderG + pathfinderRw
      retries := saturatingSucc e.retries }
  else some e

/-- What leaves from the announce table in a pass, and the table after it. -/
def rebroadcastAnnounces (n : Instance) (now : ℚ) : Instance × Table Rebroadcast :=
  if n.announcesLastChecked + n.announcesCheckInterval < now then
    ({ n with
        announceTable := fun hash => (n.announceTable hash).bind (·.pass now)
        announcesLastChecked := now },
      fun hash => ((n.announceTable hash).filter (·.leaves now)).map
        (rebroadcastOf n.toTransportState hash))
  else (n, fun _ => none)

/-! ## The queue of the local clients -/

/-- The last frame from the queue was sent to this client too recently. -/
def sentTooRecently (lastSent : String → Option ℚ) (now : ℚ) (name : String) : Bool :=
  let last := (lastSent name).getD 0
  0 < last && now - last < localClientAnnouncePace

/-- The first pass over the sorted queue: at most one frame that is due for each client. -/
def dueAnnounces (lastSent : String → Option ℚ) (now : ℚ) :
    List String → List (ℚ × String × Bytes) → List (ℚ × String × Bytes)
  | _, [] => []
  | seen, entry :: rest =>
      if now < entry.1 || seen.contains entry.2.1 || sentTooRecently lastSent now entry.2.1 then
        dueAnnounces lastSent now seen rest
      else entry :: dueAnnounces lastSent now (entry.2.1 :: seen) rest

/-- The first entry for the client that was scheduled for this time is removed. -/
def removePending (pending : List (ℚ × String × Bytes)) (due : ℚ × String × Bytes) :
    List (ℚ × String × Bytes) :=
  pending.eraseP fun entry => |entry.1 - due.1| < 1 / 1000000000 && entry.2.1 == due.2.1

/-- The queue of the local clients is sorted, and what is due is sent. -/
def drainLocalAnnounces (n : Instance) (now : ℚ) : Instance × List (String × Bytes) :=
  let sorted := n.pendingLocalAnnounces.mergeSort fun a b => a.1 ≤ b.1
  let due := dueAnnounces n.clientAnnounceLastSent now [] sorted
  ({ n with
      pendingLocalAnnounces := due.foldl removePending sorted
      clientAnnounceLastSent := due.foldl
        (fun lastSent entry => Function.update lastSent entry.2.1 (some now))
        n.clientAnnounceLastSent },
    due.map (·.2))

/-! ## Rotation and saving -/

/-- The hashes of packets and of validated announces are rotated. -/
def rotateHashlist (n : Instance) : Instance :=
  if n.hashlistMaxsize / 2 < n.packetHashlist.length then
    { n with
      packetHashlistPrev := n.packetHashlist
      packetHashlist := []
      validatedAnnounceHashesPrev := n.validatedAnnounceHashes
      validatedAnnounceHashes := [] }
  else n

/-- Requests that wait for an interface that is gone are forgotten. -/
def cullPendingRequests (n : Instance) (now : ℚ) : Instance :=
  if n.pendingPrsLastChecked + n.pendingPrsCheckInterval < now then
    { n with
      pendingLocalPathRequests := fun hash =>
        (n.pendingLocalPathRequests hash).filter fun i =>
          (n.interfaces.map (·.name)).contains i.name
      pendingPrsLastChecked := now }
  else n

/-- The tags of path requests are rotated, a whole generation at a time. -/
def rotateTags (n : Instance) : Instance :=
  if n.maxPrTags < n.discoveryPrTags.length then
    { n with
      discoveryPrTagsPrev := n.discoveryPrTagsSet
      discoveryPrTagsSet := []
      discoveryPrTags := [] }
  else n

def savePathTable (n : Instance) : Instance :=
  if n.isConnectedToSharedInstance then n else { n with savedPathTable := some n.pathTable }

/-- The path table is saved when it has changed, after an interval. -/
def saveWhenDirty (n : Instance) (now : ℚ) : Instance :=
  if n.pathTableDirty && n.pathTableLastSaved + n.pathTableSaveInterval < now then
    savePathTable { n with pathTableDirty := false, pathTableLastSaved := now }
  else n

/-! ## Links that were never proved -/

def expirePath (s : TransportState) (destinationHash : Bytes) : TransportState :=
  { s with
    pathTable := s.pathTable.remove destinationHash
    pathRandomBlobs := s.pathRandomBlobs.remove destinationHash
    pathTableDirty := s.pathTableDirty || s.pathTable.contains destinationHash }

/-- The routes that `mark_path_unresponsive` keeps: those over other interfaces, or none. -/
def responsiveRoutes (routes : List PathEntry) (blockedInterface : Option String) :
    List PathEntry :=
  match blockedInterface with
  | some name => routes.filter fun e => e.receivingInterface != some name
  | none => []

def markPathUnresponsive (s : TransportState) (destinationHash : Bytes)
    (blockedInterface : Option String) : TransportState :=
  match s.pathTable destinationHash with
  | none => s
  | some routes =>
      let kept := responsiveRoutes routes blockedInterface
      let s := { s with
        pathTableDirty := s.pathTableDirty || decide (kept.length < routes.length) }
      if kept.isEmpty then
        { s with
          pathTable := s.pathTable.remove destinationHash
          pathRandomBlobs := s.pathRandomBlobs.remove destinationHash }
      else { s with pathTable := s.pathTable.insert destinationHash kept }

/-- The mode of an interface, from a map of the registered ones. -/
def interfaceMode (interfaces : List InterfaceStub) (name : String) : Option UInt8 :=
  (findInterface interfaces.reverse name).map (·.mode)

/-- What a pass does about a link that was never proved. -/
structure Rediscovery where
  destinationHash : Bytes
  blockedInterface : Option String
  markUnresponsive : Bool
  expire : Bool
  deriving DecidableEq

/-- Whether the path is asked for again, and the interface that is blocked and marked. -/
def rediscovery (n : Instance) (now : ℚ) (entry : LinkEntry) : Option Rediscovery :=
  let hash := entry.destinationHash
  let throttle := now - (n.pathRequests hash).getD 0 < pathRequestMi
  let hops := ((selectPath n.pathTable n.interfaces hash now).map (·.hops)).getD 0
  let mark := n.transportEnabled &&
    (entry.receivedInterface.bind (interfaceMode n.interfaces)).any (· != modeBoundary)
  let task (blocked : Option String) (mark : Bool) : Rediscovery :=
    { destinationHash := hash, blockedInterface := blocked, markUnresponsive := mark
      expire := !n.transportEnabled }
  if hash = [] then none
  else if n.pathTable.contains hash = false then some (task none false)
  else if !throttle && entry.takenHops = 0 then some (task none false)
  else if !throttle && hops = 1 then some (task entry.receivedInterface mark)
  else if !throttle && entry.takenHops = 1 then some (task entry.receivedInterface mark)
  else none

/-- The entries of the link table that a pass removes: a proved link that is old or has
lost an interface, and a link whose proof is late. -/
def staleLink (interfaces : List InterfaceStub) (now : ℚ) (entry : LinkEntry) : Bool :=
  let registered (name : Option String) : Bool :=
    name.any (interfaces.map (·.name)).contains
  if entry.validated then
    entry.timestamp + linkTimeout < now || !registered entry.nextHopInterface ||
      !registered entry.receivedInterface
  else entry.proofTimeout < now

/-- The task of an entry of the link table whose proof is late. -/
def rediscoveryTask (n : Instance) (now : ℚ) (linkId : Bytes) : Option Rediscovery :=
  (n.linkTable linkId).bind fun entry =>
    if !entry.validated && entry.proofTimeout < now then rediscovery n now entry else none

/-- One task: the path is requested, unless it is already, and the routes that failed are
removed. -/
def runTask (acc : Instance × Table (Option String)) (task : Rediscovery) :
    Instance × Table (Option String) :=
  let (n, requests) := acc
  let requests := if requests.contains task.destinationHash then requests
    else requests.insert task.destinationHash task.blockedInterface
  let s := if task.markUnresponsive then
      markPathUnresponsive n.toTransportState task.destinationHash task.blockedInterface
    else n.toTransportState
  let s := if task.expire then expirePath s task.destinationHash else s
  ({ n with toTransportState := s }, requests)

/-! ## Culling -/

/-- A route lives until it expires, over an access point or a roaming interface until its
own time. -/
def outlives (interfaces : List InterfaceStub) (now : ℚ) (e : PathEntry) : Bool :=
  !e.isExpired now &&
    match e.receivingInterface.bind (interfaceMode interfaces) with
    | some mode =>
        if mode = modeAccessPoint then now < e.timestamp + apPathTime
        else if mode = modeRoaming then now < e.timestamp + roamingPathTime
        else now < e.expires
    | none => now < e.expires

/-- The routes of a destination after a pass: none when all are stale. -/
def cullRoutes (interfaces : List InterfaceStub) (now : ℚ) (routes : List PathEntry) :
    Option (List PathEntry) :=
  let kept := routes.filter (outlives interfaces now)
  if kept.isEmpty then none else some kept

/-- A tunnel after a pass: forgotten when it has expired; an interface that is gone is
cleared, and old paths are dropped. -/
def cullTunnel (interfaces : List InterfaceStub) (now : ℚ) (tunnel : Tunnel) : Option Tunnel :=
  if tunnel.expires < now then none
  else some { tunnel with
    interface := tunnel.interface.filter fun name => (interfaces.map (·.name)).contains name
    paths := fun hash => (tunnel.paths hash).filter fun path =>
      !(path.timestamp + destinationTimeout < now) }

/-- An entry of the reverse table is stale when it is old or an interface of it is gone. -/
def staleReverse (interfaces : List InterfaceStub) (now : ℚ) (entry : ReverseEntry) : Bool :=
  let registered (name : Option String) : Bool :=
    name.any (interfaces.map (·.name)).contains
  entry.timestamp + reverseTimeout < now || !registered entry.receivedInterface ||
    !registered entry.outboundInterface

/-- What one pass reads: the clock, the destinations of the pending links that it finds
closed, and the orders in which the link table and the path table are walked. -/
structure Pass where
  now : ℚ
  closedLinks : List Bytes
  linkOrder : List Bytes
  pathOrder : List Bytes

/-- Some route of the path table is stale. -/
def cullsRoutes (s : TransportState) (pass : Pass) : Bool :=
  pass.pathOrder.any fun hash => (s.pathTable hash).any fun routes =>
    cullRoutes s.interfaces pass.now routes != some routes

/-- The tables without their stale entries. A destination's blobs go with its routes. -/
def cullEntries (s : TransportState) (pass : Pass) : TransportState :=
  let pathTable : Table (List PathEntry) := fun hash =>
    (s.pathTable hash).bind (cullRoutes s.interfaces pass.now)
  { s with
    pathTable := pathTable
    pathRandomBlobs := fun hash =>
      if pathTable.contains hash then s.pathRandomBlobs hash else none
    pathTableDirty := s.pathTableDirty || cullsRoutes s pass
    discoveryPathRequests := fun hash =>
      (s.discoveryPathRequests hash).filter fun request => !(request.timeout < pass.now)
    reverseTable := fun hash =>
      (s.reverseTable hash).filter fun entry => !staleReverse s.interfaces pass.now entry
    linkTable := fun linkId =>
      (s.linkTable linkId).filter fun entry => !staleLink s.interfaces pass.now entry
    tunnels := fun hash => (s.tunnels hash).bind (cullTunnel s.interfaces pass.now) }

/-- The tasks of a pass, in the order of the link table. -/
def rediscoveryTasks (n : Instance) (pass : Pass) : List Rediscovery :=
  pass.linkOrder.filterMap (rediscoveryTask n pass.now)

/-- The tables are culled, after an interval; late links are dealt with first. -/
def cullTables (acc : Instance × Table (Option String)) (pass : Pass) :
    Instance × Table (Option String) :=
  let (n, requests) := acc
  if n.tablesLastCulled + n.tablesCullInterval < pass.now then
    let (n, requests) := (rediscoveryTasks n pass).foldl runTask (n, requests)
    ({ n with
        toTransportState := cullEntries n.toTransportState pass
        tablesLastCulled := pass.now }, requests)
  else (n, requests)

/-! ## The pass -/

/-- A pending link to a destination has closed: without transport its path is asked for
again, and the first route counts as old. -/
def closeLink (now : ℚ) (acc : Instance × Table (Option String)) (destinationHash : Bytes) :
    Instance × Table (Option String) :=
  let (n, requests) := acc
  if n.transportEnabled then acc
  else
    let n := match n.pathTable destinationHash with
      | none => n
      | some [] => { n with tablesLastCulled := 0 }
      | some (front :: routes) => { n with
          pathTable := n.pathTable.insert destinationHash ({ front with timestamp := 0 } :: routes)
          tablesLastCulled := 0 }
    let requests := if pathRequestMi < now - (n.pathRequests destinationHash).getD 0 then
        requests.insert destinationHash none
      else requests
    (n, requests)

/-- What a pass sends: announces from the announce table, frames for local clients, and
path requests by their destination, each for all interfaces or attached to one. -/
structure JobsOutput where
  rebroadcasts : Table Rebroadcast
  frames : List (String × Bytes)
  requests : Table (Option String)

def jobs (n : Instance) (pass : Pass) : Instance × JobsOutput :=
  let (n, requests) := pass.closedLinks.foldl (closeLink pass.now) (n, fun _ => none)
  let (n, rebroadcasts) := rebroadcastAnnounces n pass.now
  let (n, frames) := drainLocalAnnounces n pass.now
  let n := rotateHashlist n
  let n := cullPendingRequests n pass.now
  let n := rotateTags n
  let n := saveWhenDirty n pass.now
  let (n, requests) := cullTables (n, requests) pass
  let n := { n with
    pathRequests := fun hash =>
      if requests.contains hash then some pass.now else n.pathRequests hash }
  (n, { rebroadcasts := rebroadcasts, frames := frames, requests := requests })

/-! ## What a pass changes -/

/-- What is configured stays the same. -/
structure SameSetup (n n' : Instance) : Prop where
  clientAnnouncePacing : n'.clientAnnouncePacing = n.clientAnnouncePacing
  maxPrTags : n'.maxPrTags = n.maxPrTags
  interfaces : n'.interfaces = n.interfaces
  localClientInterfaces : n'.localClientInterfaces = n.localClientInterfaces
  destinations : n'.destinations = n.destinations
  controlHashes : n'.controlHashes = n.controlHashes
  controlDestinations : n'.controlDestinations = n.controlDestinations
  transportEnabled : n'.transportEnabled = n.transportEnabled
  identityHash : n'.identityHash = n.identityHash

theorem SameSetup.trans {n n' n'' : Instance} (h : SameSetup n n') (h' : SameSetup n' n'') :
    SameSetup n n'' := by
  constructor
  · exact h'.clientAnnouncePacing.trans h.clientAnnouncePacing
  · exact h'.maxPrTags.trans h.maxPrTags
  · exact h'.interfaces.trans h.interfaces
  · exact h'.localClientInterfaces.trans h.localClientInterfaces
  · exact h'.destinations.trans h.destinations
  · exact h'.controlHashes.trans h.controlHashes
  · exact h'.controlDestinations.trans h.controlDestinations
  · exact h'.transportEnabled.trans h.transportEnabled
  · exact h'.identityHash.trans h.identityHash

/-- So does what is queued and remembered of requests. -/
structure SameTraffic (n n' : Instance) : Prop extends SameSetup n n' where
  announceTable : n'.announceTable = n.announceTable
  announcesLastChecked : n'.announcesLastChecked = n.announcesLastChecked
  announcesCheckInterval : n'.announcesCheckInterval = n.announcesCheckInterval
  pendingLocalAnnounces : n'.pendingLocalAnnounces = n.pendingLocalAnnounces
  clientAnnounceLastSent : n'.clientAnnounceLastSent = n.clientAnnounceLastSent
  discoveryPrTags : n'.discoveryPrTags = n.discoveryPrTags
  discoveryPrTagsSet : n'.discoveryPrTagsSet = n.discoveryPrTagsSet
  discoveryPrTagsPrev : n'.discoveryPrTagsPrev = n.discoveryPrTagsPrev

namespace SameTraffic

variable {n n' n'' : Instance}

theorem refl : SameTraffic n n := by
  repeat' constructor

theorem trans (h : SameTraffic n n') (h' : SameTraffic n' n'') : SameTraffic n n'' := by
  constructor
  · exact h.toSameSetup.trans h'.toSameSetup
  · exact h'.announceTable.trans h.announceTable
  · exact h'.announcesLastChecked.trans h.announcesLastChecked
  · exact h'.announcesCheckInterval.trans h.announcesCheckInterval
  · exact h'.pendingLocalAnnounces.trans h.pendingLocalAnnounces
  · exact h'.clientAnnounceLastSent.trans h.clientAnnounceLastSent
  · exact h'.discoveryPrTags.trans h.discoveryPrTags
  · exact h'.discoveryPrTagsSet.trans h.discoveryPrTagsSet
  · exact h'.discoveryPrTagsPrev.trans h.discoveryPrTagsPrev

theorem closeLinks (now : ℚ) (closed : List Bytes) (requests : Table (Option String)) :
    SameTraffic n (closed.foldl (closeLink now) (n, requests)).1 := by
  induction closed generalizing n requests with
  | nil => exact refl
  | cons hash closed ih =>
      have hlink : SameTraffic n (closeLink now (n, requests) hash).1 := by
        unfold closeLink
        dsimp only
        repeat' split
        all_goals repeat' constructor
      exact hlink.trans (ih _)

theorem rotateHashlist : SameTraffic n (rotateHashlist n) := by
  unfold Transport.rotateHashlist
  split <;> repeat' constructor

theorem cullPendingRequests (now : ℚ) : SameTraffic n (cullPendingRequests n now) := by
  unfold Transport.cullPendingRequests
  split <;> repeat' constructor

theorem saveWhenDirty (now : ℚ) : SameTraffic n (saveWhenDirty n now) := by
  unfold Transport.saveWhenDirty savePathTable
  repeat' split
  all_goals repeat' constructor

theorem runTasks (tasks : List Rediscovery) (requests : Table (Option String)) :
    SameTraffic n (tasks.foldl runTask (n, requests)).1 := by
  induction tasks generalizing n requests with
  | nil => exact refl
  | cons task tasks ih =>
      have htask : SameTraffic n (runTask (n, requests) task).1 := by
        unfold runTask markPathUnresponsive expirePath
        dsimp only
        repeat' split
        all_goals repeat' constructor
      exact htask.trans (ih _)

theorem cullTables (requests : Table (Option String)) (pass : Pass) :
    SameTraffic n (cullTables (n, requests) pass).1 := by
  unfold Transport.cullTables
  dsimp only
  split
  · have htasks := runTasks (n := n) (rediscoveryTasks n pass) requests
    refine htasks.trans ?_
    repeat' constructor
  · exact refl

theorem rebroadcastAnnounces (h : SameTraffic n n') (now : ℚ) :
    SameTraffic (rebroadcastAnnounces n now).1 (rebroadcastAnnounces n' now).1 ∧
      (Transport.rebroadcastAnnounces n' now).2 = (Transport.rebroadcastAnnounces n now).2 := by
  have hsent : rebroadcastOf n'.toTransportState = rebroadcastOf n.toTransportState := by
    unfold rebroadcastOf announceRaw
    rw [h.identityHash]
  unfold Transport.rebroadcastAnnounces
  rw [h.announcesLastChecked, h.announcesCheckInterval, h.announceTable, hsent]
  split
  · exact ⟨{ h with
      announceTable := rfl, announcesLastChecked := rfl, announcesCheckInterval := rfl }, rfl⟩
  · exact ⟨h, rfl⟩

theorem drainLocalAnnounces (h : SameTraffic n n') (now : ℚ) :
    SameTraffic (drainLocalAnnounces n now).1 (drainLocalAnnounces n' now).1 ∧
      (Transport.drainLocalAnnounces n' now).2 = (Transport.drainLocalAnnounces n now).2 := by
  unfold Transport.drainLocalAnnounces
  rw [h.pendingLocalAnnounces, h.clientAnnounceLastSent]
  exact ⟨{ h with pendingLocalAnnounces := rfl, clientAnnounceLastSent := rfl }, rfl⟩

theorem rotateTags (h : SameTraffic n n') : SameTraffic (rotateTags n) (rotateTags n') := by
  unfold Transport.rotateTags
  rw [h.maxPrTags, h.discoveryPrTags]
  split
  · exact { h with
      discoveryPrTagsPrev := h.discoveryPrTagsSet, discoveryPrTagsSet := rfl
      discoveryPrTags := rfl, maxPrTags := rfl }
  · exact h

end SameTraffic

theorem rebroadcastAnnounces_eq (n : Instance) (now : ℚ) :
    ∃ checked, (rebroadcastAnnounces n now).1 = { n with
      announceTable := (rebroadcastAnnounces n now).1.announceTable
      announcesLastChecked := checked } := by
  unfold rebroadcastAnnounces
  split <;> exact ⟨_, rfl⟩

theorem rotateTags_eq (n : Instance) :
    rotateTags n = { n with
      discoveryPrTagsPrev := (rotateTags n).discoveryPrTagsPrev
      discoveryPrTagsSet := (rotateTags n).discoveryPrTagsSet
      discoveryPrTags := (rotateTags n).discoveryPrTags } := by
  unfold rotateTags
  split <;> rfl

theorem rotateTags_congr {n m : Instance} (hmax : m.maxPrTags = n.maxPrTags)
    (htags : m.discoveryPrTags = n.discoveryPrTags)
    (hset : m.discoveryPrTagsSet = n.discoveryPrTagsSet)
    (hprev : m.discoveryPrTagsPrev = n.discoveryPrTagsPrev) :
    (rotateTags m).discoveryPrTagsPrev = (rotateTags n).discoveryPrTagsPrev ∧
      (rotateTags m).discoveryPrTagsSet = (rotateTags n).discoveryPrTagsSet ∧
      (rotateTags m).discoveryPrTags = (rotateTags n).discoveryPrTags := by
  unfold rotateTags
  rw [hmax, htags]
  split
  · exact ⟨hset, rfl, rfl⟩
  · exact ⟨hprev, hset, htags⟩

/-- What a pass sends and what it leaves in the queues: the announce table, the queue of the
local clients and the tags change as their own stages say. -/
structure Passed (n : Instance) (pass : Pass) (n' : Instance) (output : JobsOutput) : Prop
    extends SameSetup n n' where
  announceTable : n'.announceTable = (rebroadcastAnnounces n pass.now).1.announceTable
  rebroadcasts : output.rebroadcasts = (rebroadcastAnnounces n pass.now).2
  pendingLocalAnnounces :
    n'.pendingLocalAnnounces = (drainLocalAnnounces n pass.now).1.pendingLocalAnnounces
  clientAnnounceLastSent :
    n'.clientAnnounceLastSent = (drainLocalAnnounces n pass.now).1.clientAnnounceLastSent
  frames : output.frames = (drainLocalAnnounces n pass.now).2
  discoveryPrTags : n'.discoveryPrTags = (rotateTags n).discoveryPrTags
  discoveryPrTagsSet : n'.discoveryPrTagsSet = (rotateTags n).discoveryPrTagsSet
  discoveryPrTagsPrev : n'.discoveryPrTagsPrev = (rotateTags n).discoveryPrTagsPrev

theorem jobs_passed (n : Instance) (pass : Pass) :
    Passed n pass (jobs n pass).1 (jobs n pass).2 := by
  have hclosed : SameTraffic n (pass.closedLinks.foldl (closeLink pass.now) (n, fun _ => none)).1 :=
    .closeLinks pass.now pass.closedLinks _
  obtain ⟨hsent, hrebroadcasts⟩ := hclosed.rebroadcastAnnounces pass.now
  obtain ⟨hdrained, hframes⟩ := hsent.drainLocalAnnounces pass.now
  have hrotated := ((hdrained.trans .rotateHashlist).trans (.cullPendingRequests pass.now)).rotateTags
  have hculled := (hrotated.trans (.saveWhenDirty pass.now)).trans
    (.cullTables (pass.closedLinks.foldl (closeLink pass.now) (n, fun _ => none)).2 pass)
  -- each of the three stages leaves alone what the others change
  obtain ⟨checked, hreb⟩ := rebroadcastAnnounces_eq n pass.now
  generalize htable : (rebroadcastAnnounces n pass.now).1.announceTable = table at hreb
  rw [hreb] at hculled hframes
  have hkeep := rotateTags_eq (drainLocalAnnounces
    { n with announceTable := table, announcesLastChecked := checked } pass.now).1
  obtain ⟨hprev, hset, htags⟩ := rotateTags_congr (n := n) (m := (drainLocalAnnounces
    { n with announceTable := table, announcesLastChecked := checked } pass.now).1) rfl rfl rfl rfl
  constructor
  · have hsetup := SameSetup.trans (n := n) (by rw [hkeep]; constructor <;> rfl) hculled.toSameSetup
    exact { hsetup with }
  · exact (hculled.announceTable.trans (congrArg (·.announceTable) hkeep)).trans htable.symm
  · exact hrebroadcasts
  · exact hculled.pendingLocalAnnounces.trans (congrArg (·.pendingLocalAnnounces) hkeep)
  · exact hculled.clientAnnounceLastSent.trans (congrArg (·.clientAnnounceLastSent) hkeep)
  · exact hframes
  · exact hculled.discoveryPrTags.trans htags
  · exact hculled.discoveryPrTagsSet.trans hset
  · exact hculled.discoveryPrTagsPrev.trans hprev

/-- A property of nodes that each stage of a pass keeps. -/
structure KeptByStages (pass : Pass) (P : Instance → Prop) : Prop where
  closeLink : ∀ n requests hash, P n → P (closeLink pass.now (n, requests) hash).1
  rebroadcastAnnounces : ∀ n, P n → P (rebroadcastAnnounces n pass.now).1
  drainLocalAnnounces : ∀ n, P n → P (drainLocalAnnounces n pass.now).1
  rotate : ∀ n, P n → P (rotateTags (cullPendingRequests (rotateHashlist n) pass.now))
  saveWhenDirty : ∀ n, P n → P (saveWhenDirty n pass.now)
  runTask : ∀ n requests task, P n → P (runTask (n, requests) task).1
  cullEntries : ∀ n, P n → P { n with
    toTransportState := cullEntries n.toTransportState pass, tablesLastCulled := pass.now }
  pathRequests : ∀ n requests, P n → P { n with pathRequests := requests }

/-- The node with the queues, the tags and the packet hashes of another, and what that one saved. -/
def Instance.withQueues (n n' : Instance) : Instance :=
  { n with
    announceTable := n'.announceTable
    announcesLastChecked := n'.announcesLastChecked
    pendingLocalAnnounces := n'.pendingLocalAnnounces
    clientAnnounceLastSent := n'.clientAnnounceLastSent
    packetHashlist := n'.packetHashlist
    packetHashlistPrev := n'.packetHashlistPrev
    validatedAnnounceHashes := n'.validatedAnnounceHashes
    validatedAnnounceHashesPrev := n'.validatedAnnounceHashesPrev
    pendingLocalPathRequests := n'.pendingLocalPathRequests
    pendingPrsLastChecked := n'.pendingPrsLastChecked
    discoveryPrTags := n'.discoveryPrTags
    discoveryPrTagsSet := n'.discoveryPrTagsSet
    discoveryPrTagsPrev := n'.discoveryPrTagsPrev
    pathRequests := n'.pathRequests
    pathTableDirty := n'.pathTableDirty
    pathTableLastSaved := n'.pathTableLastSaved
    savedPathTable := n'.savedPathTable }

namespace KeptByStages

variable {pass : Pass} {P : Instance → Prop} {n : Instance}

/-- Most stages keep what does not look at the queues. -/
theorem of_queues (hqueues : ∀ n n', P n → P (n.withQueues n'))
    (hclose : ∀ n requests hash, P n → P (Transport.closeLink pass.now (n, requests) hash).1)
    (hrun : ∀ n requests task, P n → P (Transport.runTask (n, requests) task).1)
    (hcull : ∀ n, P n → P { n with
      toTransportState := Transport.cullEntries n.toTransportState pass
      tablesLastCulled := pass.now }) :
    KeptByStages pass P where
  closeLink := hclose
  rebroadcastAnnounces n h := by
    unfold Transport.rebroadcastAnnounces
    split
    · exact hqueues n { n with
        announceTable := fun hash => (n.announceTable hash).bind (·.pass pass.now)
        announcesLastChecked := pass.now } h
    · exact h
  drainLocalAnnounces n h := hqueues n (Transport.drainLocalAnnounces n pass.now).1 h
  rotate n h := by
    have hsame : rotateTags (cullPendingRequests (rotateHashlist n) pass.now) =
        n.withQueues (rotateTags (cullPendingRequests (rotateHashlist n) pass.now)) := by
      unfold rotateTags cullPendingRequests rotateHashlist
      repeat' split
      all_goals rfl
    rw [hsame]
    exact hqueues n _ h
  saveWhenDirty n h := by
    have hsame : Transport.saveWhenDirty n pass.now =
        n.withQueues (Transport.saveWhenDirty n pass.now) := by
      unfold Transport.saveWhenDirty savePathTable
      repeat' split
      all_goals rfl
    rw [hsame]
    exact hqueues n _ h
  runTask := hrun
  cullEntries := hcull
  pathRequests n requests h := hqueues n { n with pathRequests := requests } h

section

variable (h : KeptByStages pass P)

include h

theorem closeLinks (hn : P n) (closed : List Bytes)
    (requests : Table (Option String)) :
    P (closed.foldl (Transport.closeLink pass.now) (n, requests)).1 := by
  induction closed generalizing n requests with
  | nil => exact hn
  | cons hash closed ih => exact ih (h.closeLink n requests hash hn) _

theorem runTasks (hn : P n) (tasks : List Rediscovery)
    (requests : Table (Option String)) : P (tasks.foldl Transport.runTask (n, requests)).1 := by
  induction tasks generalizing n requests with
  | nil => exact hn
  | cons task tasks ih => exact ih (h.runTask n requests task hn) _

theorem cullTables (hn : P n) (requests : Table (Option String)) :
    P (cullTables (n, requests) pass).1 := by
  unfold Transport.cullTables
  dsimp only
  split
  · exact h.cullEntries _ (h.runTasks hn (rediscoveryTasks n pass) requests)
  · exact hn

/-- What each stage keeps, the pass keeps. -/
theorem jobs (hn : P n) : P (jobs n pass).1 := by
  have hclosed := h.closeLinks hn pass.closedLinks fun _ => none
  have hsent := h.rebroadcastAnnounces _ hclosed
  have hrotated := h.rotate _ (h.drainLocalAnnounces _ hsent)
  exact h.pathRequests _ _ (h.cullTables (h.saveWhenDirty _ hrotated) _)

end

end KeptByStages

end Reticulum.Transport
