import Reticulum.Transport.HeldAnnounces
import Reticulum.Transport.Replay

/-!
# How often an emission is rebroadcast

The random blob of an announce says when it was emitted. `inbound`
(`src/transport.rs`) queues an announce when its blob is newer than all the blobs
it remembers of the destination, and `jobs` lets a queued announce leave until its
retries are used up. So the emissions that are queued for a destination with a
live route are strictly increasing, and each leaves at most `PATHFINDER_R + 1`
times (`emissions_bounded`). An announce too short for a blob is never validated
and counts as new every time.

## Implementation notes

What happens in a run is recorded as a list of passages, the latest first.
-/

namespace Reticulum.Transport

/-- When an announce was emitted, by its random blob. -/
def emissionOf (p : Wire.Packet) : Option Nat := (announceBlob p).map randomBlobEmitted

/-- An announce of the destination is queued, or leaves from the announce table. -/
inductive Passage
  | queued (emission : Option Nat) (fromLocalClient : Bool)
  | left (emission : Option Nat)
  deriving DecidableEq

/-- An announce that comes in, or a pass. -/
inductive EmissionEvent
  | announce (frame : Incoming)
  | jobs (pass : Pass)

/-- What a frame queues for a destination. -/
def queuedPassage (c : Crypto) (n : Instance) (frame : Incoming) (destinationHash : Bytes) :
    List Passage :=
  match queuedAnnounce c n frame with
  | some (hash, p) =>
      if hash = destinationHash then
        [.queued (emissionOf p) (fromLocalClient n.toTransportState p)]
      else []
  | none => []

/-- What leaves for a destination in a pass. -/
def leftPassage (n : Instance) (pass : Pass) (destinationHash : Bytes) : List Passage :=
  if ((jobs n pass).2.rebroadcasts destinationHash).isSome then
    [.left ((n.announceTable destinationHash).bind fun e => emissionOf e.packet)]
  else []

/-- A step of a run: the node, and the passages so far, the latest first. -/
def emissionStep (c : Crypto) (destinationHash : Bytes) (state : Instance × List Passage) :
    EmissionEvent → Option (Instance × List Passage)
  | .announce frame =>
      some ((receive c state.1 frame.call frame.raw frame.receivingInterface).1,
        queuedPassage c state.1 frame destinationHash ++ state.2)
  | .jobs pass => some ((jobs state.1 pass).1, leftPassage state.1 pass destinationHash ++ state.2)

/-- The emissions that were queued, the latest first. -/
def queuedEmissions (trace : List Passage) : List (Option Nat) :=
  trace.filterMap fun
    | .queued emission _ => some emission
    | .left _ => none

/-- How often a queued announce may leave. -/
def allowance (fromLocalClient : Bool) : Nat := if fromLocalClient then 1 else pathfinderR.toNat + 1

/-- The emissions that are queued are strictly increasing, and none leaves too often. -/
structure Sparing (trace : List Passage) : Prop where
  increasing : (queuedEmissions trace).Pairwise fun later earlier =>
    ∃ x y, later = some x ∧ earlier = some y ∧ y < x
  bounded : ∀ after emission client before,
    trace = after ++ .queued emission client :: before →
      after.count (.left emission) ≤ allowance client

/-- The destination has a route that is live. -/
def LiveRoute (n : Instance) (now : ℚ) (destinationHash : Bytes) : Prop :=
  ∃ routes, n.pathTable destinationHash = some routes ∧
    routes.any (routeIsLive n.interfaces now) = true

/-- A frame is an announce of the destination, which has a live route once an announce of it
was queued. -/
def AnnouncesLive (c : Crypto) (destinationHash : Bytes) (state : Instance × List Passage) :
    EmissionEvent → Prop
  | .announce frame =>
      (∃ p, readFrame c frame.raw frame.receivingInterface = some p ∧
        p.packetType = Wire.announce ∧ p.destinationHash = some destinationHash) ∧
      (queuedEmissions state.2 ≠ [] → LiveRoute state.1 frame.call.reading.now destinationHash)
  | .jobs _ => True

/-- An announce that `inbound` accepts carries a random blob. -/
def CarriesBlob (c : Crypto) (state : Instance × List Passage) : EmissionEvent → Prop
  | .announce frame => ∀ p, readFrame c frame.raw frame.receivingInterface = some p →
      announceShouldAdd c state.1.toTransportState p = true → (announceBlob p).isSome
  | .jobs _ => True

/-! ## The blobs -/

/-- The latest emission that is remembered of a destination. -/
def latestEmission (s : TransportState) (destinationHash : Bytes) : Nat :=
  (((s.pathRandomBlobs destinationHash).getD []).map randomBlobEmitted).foldl max 0

/-- The destination has a route. -/
def Known (s : TransportState) (destinationHash : Bytes) : Prop :=
  (s.pathTable destinationHash).getD [] ≠ []

variable {frame : Incoming} {emission : Option Nat}

section Blobs

variable {c : Crypto} {s : TransportState} {r : Reading} {p : Wire.Packet}
  {destinationHash blob : Bytes}

theorem le_latestEmission {blobs : List Bytes} (h : s.pathRandomBlobs destinationHash = some blobs)
    (hmem : blob ∈ blobs) : randomBlobEmitted blob ≤ latestEmission s destinationHash := by
  unfold latestEmission
  rw [h, Option.getD_some, List.foldl_max]
  have hemitted : randomBlobEmitted blob ∈ blobs.map randomBlobEmitted := List.mem_map_of_mem hmem
  exact (List.le_max?_getD_of_mem hemitted).trans (Nat.le_max_right _ _)

section

variable (hblob : announceBlob p = some blob)

include hblob

/-- A new emission is one that was not seen. -/
theorem not_seen_of_isNewEmission
    (hnew : isNewEmission s r p destinationHash = true) (hknown : Known s destinationHash) :
    blob ∉ (s.pathRandomBlobs destinationHash).getD [] := by
  unfold isNewEmission at hnew
  rw [hblob] at hnew
  dsimp only at hnew
  unfold announceIsNewEmission at hnew
  unfold Known at hknown
  split at hnew
  · rename_i hroutes
    rw [hroutes] at hknown
    exact absurd rfl hknown
  · rename_i hroutes
    rw [hroutes] at hknown
    exact absurd rfl hknown
  · split at hnew
    · cases hnew
    · rename_i hseen
      simpa using hseen

/-- A new emission of a destination with a live route is later than all that are
remembered. -/
theorem latest_lt_of_isNewEmission
    (hnew : isNewEmission s r p destinationHash = true) {routes : List PathEntry}
    (hroutes : s.pathTable destinationHash = some routes)
    (hlive : routes.any (routeIsLive s.interfaces r.now) = true) :
    latestEmission s destinationHash < randomBlobEmitted blob := by
  unfold isNewEmission at hnew
  rw [hblob] at hnew
  dsimp only at hnew
  rw [hroutes] at hnew
  cases routes with
  | nil => cases hlive
  | cons route routes =>
      unfold announceIsNewEmission at hnew
      dsimp only at hnew
      split at hnew
      · cases hnew
      · split at hnew
        · assumption
        · cases hnew

/-- The blob of a new emission is remembered. -/
theorem mem_recordBlob
    (hnew : isNewEmission s r p destinationHash = true) :
    ∃ blobs, recordBlob s p destinationHash destinationHash = some blobs ∧ blob ∈ blobs := by
  unfold recordBlob
  rw [hblob]
  refine ⟨_, Table.insert_self _ _ _, ?_⟩
  generalize hbase : (if ((s.pathTable destinationHash).getD []).isEmpty = false then
    (s.pathRandomBlobs destinationHash).getD [] else []) = base
  have hfresh : blob ∉ base := by
    rw [← hbase]
    split
    · rename_i hknown
      refine not_seen_of_isNewEmission hblob hnew ?_
      intro hempty
      rw [hempty] at hknown
      cases hknown
    · exact List.not_mem_nil
  rw [if_neg (by simpa using hfresh)]
  have hshort : (base ++ [blob]).length - maxRandomBlobs ≤ base.length := by
    rw [List.length_append, List.length_singleton, maxRandomBlobs]
    omega
  rw [List.drop_append_of_le_length hshort]
  exact List.mem_append_right _ List.mem_cons_self

end

theorem routeIsLive_of_noted {s' : TransportState} (h : Noted s s') (now : ℚ) (route : PathEntry) :
    routeIsLive s'.interfaces now route = routeIsLive s.interfaces now route := by
  obtain ⟨interfaces, _, _, rfl, hinterfaces, -⟩ := h
  have hmode : ∀ name, (findInterface interfaces name).map (·.mode) =
      (findInterface s.interfaces name).map (·.mode) := by
    intro name
    have huntimed := congrArg (fun interfaces => (findInterface interfaces name).map (·.mode))
      hinterfaces
    simpa [findInterface_untimed, Function.comp_def, InterfaceStub.untimed] using huntimed
  unfold routeIsLive
  cases route.receivingInterface with
  | none => rfl
  | some name =>
      dsimp only [Option.bind_some]
      rw [hmode]

theorem blobs_admitAnnounce :
    (admitAnnounce s r p destinationHash).pathRandomBlobs destinationHash =
      if isNewEmission s r p destinationHash then recordBlob s p destinationHash destinationHash
      else s.pathRandomBlobs destinationHash := by
  unfold admitAnnounce
  dsimp only
  split <;> rfl

/-- What `inbound` remembers of an announce: nothing, or its blob when it is a new
emission. -/
theorem blobs_inbound {n : Instance}
    (hread : readFrame c frame.raw frame.receivingInterface = some p)
    (htype : p.packetType = Wire.announce) (hdest : p.destinationHash = some destinationHash) :
    let r := frame.call.reading
    let s' := (inbound c n.toTransportState r frame.raw frame.receivingInterface).2
    ((∀ q, queuedAnnounce c n frame ≠ some (destinationHash, q)) ∧
      s'.pathTable destinationHash = n.pathTable destinationHash ∧
      s'.pathRandomBlobs destinationHash = n.pathRandomBlobs destinationHash) ∨
    (announceShouldAdd c (admitted n.toTransportState r p) (hopped p) = true ∧
      s'.pathRandomBlobs destinationHash =
        if isNewEmission (admitted n.toTransportState r p) r (hopped p) destinationHash then
          recordBlob (admitted n.toTransportState r p) (hopped p) destinationHash destinationHash
        else n.pathRandomBlobs destinationHash) := by
  dsimp only
  obtain ⟨interfaces, clients, rates, hadmitted, -, -⟩ :=
    noted_admitted (s := n.toTransportState) (r := frame.call.reading) (p := p)
  obtain ⟨hquiet, hnoted⟩ | ⟨q, hread', ⟨-, heq⟩ | ⟨hother, -⟩⟩ :=
    inbound_cases c n.toTransportState frame.call.reading frame.raw frame.receivingInterface
  · left
    obtain ⟨_, _, _, hstate, -, -⟩ := hnoted
    rw [hstate, queuedAnnounce_of_quiet hquiet]
    refine ⟨fun q hqueued => ?_, rfl, rfl⟩
    cases hqueued
  · obtain rfl : p = q := Option.some.inj (hread.symm.trans hread')
    have hqueued := queuedAnnounce_of_announce hread (congrArg Prod.fst heq) htype hdest
    rw [heq, hqueued]
    obtain ⟨validated, known, ratchets, hashlist, -, ⟨hadd, hstate, -⟩ | ⟨hadd, hstate, -⟩⟩ :=
      inboundAnnounce_cases c (admitted n.toTransportState frame.call.reading p)
        frame.call.reading (hopped p)
    swap
    · left
      rw [hstate, if_neg (by simp [hadd]), hadmitted]
      refine ⟨fun q hqueued => ?_, rfl, rfl⟩
      cases hqueued
    rw [hstate]
    obtain ⟨table, ⟨hlocal, hprocess⟩ | ⟨hash, requests, pacing, pending, hhash, hprocess⟩⟩ :=
      processAnnounce_cases { admitted n.toTransportState frame.call.reading p with
        validatedAnnounceHashes := validated, knownDestinations := known
        knownRatchets := ratchets, packetHashlist := hashlist } frame.call.reading (hopped p)
    · left
      have hmem := hlocal destinationHash hdest
      rw [hprocess, if_neg (by simp [queuesAnnounce, hmem]), hadmitted]
      refine ⟨fun q hqueued => ?_, rfl, rfl⟩
      cases hqueued
    · right
      obtain rfl : destinationHash = hash := Option.some.inj (hdest.symm.trans hhash)
      refine ⟨hadd, ?_⟩
      have hblobs : n.pathRandomBlobs =
          (admitted n.toTransportState frame.call.reading p).pathRandomBlobs := by rw [hadmitted]
      rw [hprocess, hblobs]
      exact blobs_admitAnnounce
  · obtain rfl : p = q := Option.some.inj (hread.symm.trans hread')
    exact absurd htype hother

/-- The latest emission after an announce: as before, or at least that of the announce. -/
theorem latest_inbound {n : Instance}
    (hread : readFrame c frame.raw frame.receivingInterface = some p)
    (htype : p.packetType = Wire.announce) (hdest : p.destinationHash = some destinationHash)
    (hblob : announceShouldAdd c n.toTransportState p = true → (announceBlob p).isSome) :
    let r := frame.call.reading
    let s' := (inbound c n.toTransportState r frame.raw frame.receivingInterface).2
    ((∀ q, queuedAnnounce c n frame ≠ some (destinationHash, q)) ∧
      latestEmission s' destinationHash = latestEmission n.toTransportState destinationHash) ∨
    ∃ blob, announceBlob p = some blob ∧
      isNewEmission (admitted n.toTransportState r p) r (hopped p) destinationHash = true ∧
      randomBlobEmitted blob ≤ latestEmission s' destinationHash := by
  dsimp only
  obtain ⟨hnone, -, hblobs⟩ | ⟨hadd, hblobs⟩ := blobs_inbound (n := n) hread htype hdest
  · left
    refine ⟨hnone, ?_⟩
    unfold latestEmission
    rw [hblobs]
  by_cases hnew : isNewEmission (admitted n.toTransportState frame.call.reading p)
    frame.call.reading (hopped p) destinationHash = true
  · right
    have hsome : announceShouldAdd c n.toTransportState p = true := by
      obtain ⟨_, _, _, hadmitted, -, -⟩ :=
        noted_admitted (s := n.toTransportState) (r := frame.call.reading) (p := p)
      rw [hadmitted] at hadd
      exact hadd
    obtain ⟨blob, hannounced⟩ := Option.isSome_iff_exists.mp (hblob hsome)
    obtain ⟨blobs, hrecorded, hmem⟩ := mem_recordBlob (p := hopped p) hannounced hnew
    rw [if_pos hnew] at hblobs
    exact ⟨blob, hannounced, hnew, le_latestEmission (hblobs.trans hrecorded) hmem⟩
  · left
    rw [if_neg hnew] at hblobs
    refine ⟨?_, ?_⟩
    · intro q hqueued
      obtain ⟨p', hread', -, -, -, -, hqueues⟩ := exists_of_queuedAnnounce hqueued
      obtain rfl : p = p' := Option.some.inj (hread.symm.trans hread')
      simp [queuesAnnounce, hnew] at hqueues
    · unfold latestEmission
      rw [hblobs]

/-- A new emission that comes while there is a live route is the latest. -/
theorem latest_lt_of_live {n : Instance} (hblob : announceBlob p = some blob)
    (hnew : isNewEmission (admitted n.toTransportState frame.call.reading p) frame.call.reading
      (hopped p) destinationHash = true)
    (hlive : LiveRoute n frame.call.reading.now destinationHash) :
    latestEmission n.toTransportState destinationHash < randomBlobEmitted blob := by
  obtain ⟨routes, hroutes, hany⟩ := hlive
  have hnoted : Noted n.toTransportState (admitted n.toTransportState frame.call.reading p) :=
    noted_admitted
  have hlive' : routes.any (routeIsLive
      (admitted n.toTransportState frame.call.reading p).interfaces frame.call.reading.now) =
      true := by
    have hsame : routeIsLive (admitted n.toTransportState frame.call.reading p).interfaces
        frame.call.reading.now = routeIsLive n.interfaces frame.call.reading.now :=
      funext fun route => routeIsLive_of_noted hnoted _ route
    rw [hsame]
    exact hany
  obtain ⟨_, _, _, hadmitted, -, -⟩ := hnoted
  have hlatest : latestEmission (admitted n.toTransportState frame.call.reading p)
      destinationHash = latestEmission n.toTransportState destinationHash := by
    rw [hadmitted]
    rfl
  rw [← hlatest]
  refine latest_lt_of_isNewEmission (p := hopped p) hblob hnew ?_ hlive'
  rw [hadmitted]
  exact hroutes

end Blobs

/-- Routes may go, and the blobs of a destination go with its last route alone. -/
def Thins (s s' : TransportState) : Prop :=
  ∀ hash, Known s' hash → Known s hash ∧ s'.pathRandomBlobs hash = s.pathRandomBlobs hash

namespace Thins

variable {n : Instance} {s s' s'' : TransportState}

theorem refl : Thins s s := fun _ hknown => ⟨hknown, rfl⟩

theorem trans (h : Thins s s') (h' : Thins s' s'') : Thins s s'' := by
  intro hash hknown
  obtain ⟨hknown', hblobs'⟩ := h' hash hknown
  obtain ⟨hknown, hblobs⟩ := h hash hknown'
  exact ⟨hknown, hblobs'.trans hblobs⟩

/-- The routes of one destination are replaced by others. -/
theorem insert {destinationHash : Bytes} {routes : List PathEntry} (dirty : Bool)
    (hknown : Known s destinationHash) :
    Thins s { s with
      pathTable := s.pathTable.insert destinationHash routes, pathTableDirty := dirty } := by
  intro hash hhash
  by_cases heq : hash = destinationHash
  · exact ⟨heq ▸ hknown, rfl⟩
  · unfold Known at hhash
    dsimp only at hhash
    rw [Table.insert_of_ne _ heq] at hhash
    exact ⟨hhash, rfl⟩

/-- A destination is forgotten. -/
theorem remove (destinationHash : Bytes) (dirty : Bool) :
    Thins s { s with
      pathTable := s.pathTable.remove destinationHash
      pathRandomBlobs := s.pathRandomBlobs.remove destinationHash
      pathTableDirty := dirty } := by
  intro hash hhash
  by_cases heq : hash = destinationHash
  · subst heq
    simp [Known, Table.remove] at hhash
  · unfold Known at hhash
    dsimp only at hhash
    rw [Table.remove, Function.update_of_ne heq] at hhash
    exact ⟨hhash, Function.update_of_ne heq _ _⟩

theorem markPathUnresponsive (destinationHash : Bytes) (blockedInterface : Option String) :
    Thins s (markPathUnresponsive s destinationHash blockedInterface) := by
  unfold Transport.markPathUnresponsive
  split
  · exact refl
  rename_i routes hroutes
  dsimp only
  split
  · exact remove destinationHash _
  · rename_i hkept
    refine insert _ ?_
    rintro hempty
    rw [hroutes, Option.getD_some] at hempty
    subst hempty
    apply hkept
    cases blockedInterface <;> rfl

theorem closeLink (now : ℚ) (requests : Table (Option String)) (hash : Bytes) :
    Thins n.toTransportState (closeLink now (n, requests) hash).1.toTransportState := by
  unfold Transport.closeLink
  dsimp only
  split
  · exact refl
  split
  · exact refl
  · exact refl
  · rename_i front routes hroutes
    refine insert n.pathTableDirty ?_
    unfold Known
    rw [hroutes]
    exact List.cons_ne_nil _ _

theorem runTask (requests : Table (Option String)) (task : Rediscovery) :
    Thins n.toTransportState (runTask (n, requests) task).1.toTransportState := by
  unfold Transport.runTask
  dsimp only
  have hmark : Thins n.toTransportState (if task.markUnresponsive then
      Transport.markPathUnresponsive n.toTransportState task.destinationHash
        task.blockedInterface
    else n.toTransportState) := by
    split
    · exact markPathUnresponsive _ _
    · exact refl
  split
  · exact hmark.trans (remove _ _)
  · exact hmark

theorem cullEntries (pass : Pass) : Thins s (cullEntries s pass) := by
  intro hash hknown
  unfold Known Transport.cullEntries at hknown
  dsimp only at hknown
  cases hculled : (s.pathTable hash).bind (cullRoutes s.interfaces pass.now) with
  | none =>
      rw [hculled] at hknown
      exact absurd rfl hknown
  | some kept =>
      obtain ⟨routes, hroutes, hkept⟩ := Option.bind_eq_some_iff.mp hculled
      refine ⟨?_, ?_⟩
      · unfold Known
        rw [hroutes, Option.getD_some]
        rintro rfl
        cases hkept
      · unfold Transport.cullEntries
        dsimp only
        rw [if_pos (by rw [Table.contains, hculled]; rfl)]

theorem keptByStages (s : TransportState) (pass : Pass) :
    KeptByStages pass fun n => Thins s n.toTransportState :=
  .of_queues (fun _ _ h => h) (fun _ requests hash h => h.trans (closeLink pass.now requests hash))
    (fun _ requests task h => h.trans (runTask requests task)) fun _ h => h.trans (cullEntries pass)

theorem jobs (n : Instance) (pass : Pass) :
    Thins n.toTransportState (jobs n pass).1.toTransportState :=
  (keptByStages n.toTransportState pass).jobs refl

end Thins

/-! ## Runs -/

/-- What holds of a run so far: the emission that was queued last is remembered as long as
its destination has a route, and the entry for it has only the rest of its allowance. -/
structure EmissionInv (destinationHash : Bytes) (n : Instance) (trace : List Passage) : Prop where
  sparing : Sparing trace
  control : destinationHash ∈ n.controlHashes → queuedEmissions trace = []
  current : ∀ after emission client before,
    trace = after ++ .queued emission client :: before → queuedEmissions after = [] →
      (∃ x, emission = some x ∧
        (Known n.toTransportState destinationHash →
          x ≤ latestEmission n.toTransportState destinationHash)) ∧
      after.count (.left emission) + remaining (n.announceTable destinationHash) ≤
        allowance client ∧
      ∀ e, n.announceTable destinationHash = some e → emissionOf e.packet = emission

section Trace

variable {trace : List Passage}

/-- The passage that queued the latest emission. -/
theorem exists_of_queuedEmissions {rest : List (Option Nat)}
    (h : queuedEmissions trace = emission :: rest) :
    ∃ after client before, trace = after ++ .queued emission client :: before ∧
      queuedEmissions after = [] := by
  induction trace with
  | nil => cases h
  | cons passage trace ih =>
      cases passage with
      | queued emission' client =>
          obtain ⟨rfl, -⟩ := List.cons.inj h
          exact ⟨[], client, trace, rfl, rfl⟩
      | left emission' =>
          obtain ⟨after, client, before, heq, hnone⟩ := ih h
          exact ⟨.left emission' :: after, client, before, by rw [heq]; rfl, hnone⟩

/-- An emission that is later than the latest one is later than all. -/
theorem sparing_queued (h : Sparing trace) {x : Nat} (client : Bool)
    (hlater : ∀ emission rest, queuedEmissions trace = emission :: rest →
      ∃ y, emission = some y ∧ y < x) : Sparing (.queued (some x) client :: trace) where
  increasing := by
    change (some x :: queuedEmissions trace).Pairwise _
    rw [List.pairwise_cons]
    refine ⟨?_, h.increasing⟩
    intro earlier hmem
    cases hqueued : queuedEmissions trace with
    | nil =>
        rw [hqueued] at hmem
        cases hmem
    | cons emission rest =>
        obtain ⟨y, rfl, hy⟩ := hlater emission rest hqueued
        rw [hqueued] at hmem
        rcases List.mem_cons.mp hmem with rfl | hrest
        · exact ⟨x, y, rfl, rfl, hy⟩
        · have hpairwise := h.increasing
          rw [hqueued, List.pairwise_cons] at hpairwise
          obtain ⟨y', z, hy', rfl, hz⟩ := hpairwise.1 earlier hrest
          obtain rfl := Option.some.inj hy'
          exact ⟨x, z, rfl, rfl, hz.trans hy⟩
  bounded := by
    intro after emission client' before heq
    cases after with
    | nil => exact Nat.zero_le _
    | cons passage after =>
        obtain ⟨rfl, htail⟩ := List.cons.inj heq
        rw [List.count_cons_of_ne (by simp)]
        exact h.bounded after emission client' before htail

theorem queuedEmissions_ne_nil {after before : List Passage} {client : Bool}
    (h : trace = after ++ .queued emission client :: before) : queuedEmissions trace ≠ [] := by
  rw [h]
  simp [queuedEmissions]

theorem sparing_left (h : Sparing trace)
    (hspare : ∀ after client before, trace = after ++ .queued emission client :: before →
      after.count (.left emission) + 1 ≤ allowance client) : Sparing (.left emission :: trace) where
  increasing := h.increasing
  bounded := by
    intro after emission' client before heq
    cases after with
    | nil => cases heq
    | cons passage after =>
        obtain ⟨rfl, htail⟩ := List.cons.inj heq
        by_cases hsame : emission = emission'
        · subst hsame
          rw [List.count_cons_self]
          exact hspare after client before htail
        · rw [List.count_cons_of_ne (by simpa using hsame)]
          exact h.bounded after emission' client before htail

theorem queuedEmissions_append (before after : List Passage) :
    queuedEmissions (after ++ before) = queuedEmissions after ++ queuedEmissions before :=
  List.filterMap_append

/-- The latest emission was queued only once. -/
theorem queuedEmissions_after_latest (h : Sparing trace) {rest : List (Option Nat)}
    (hlatest : queuedEmissions trace = emission :: rest) {after before : List Passage}
    {client : Bool} (heq : trace = after ++ .queued emission client :: before) :
    queuedEmissions after = [] := by
  have hincreasing := h.increasing
  rw [heq, queuedEmissions_append] at hincreasing hlatest
  cases hafter : queuedEmissions after with
  | nil => rfl
  | cons first others =>
      rw [hafter] at hincreasing hlatest
      obtain ⟨rfl, -⟩ := List.cons.inj hlatest
      have hfirst := (List.pairwise_append.mp hincreasing).2.2 first List.mem_cons_self first
        List.mem_cons_self
      obtain ⟨x, y, hx, hy, hlt⟩ := hfirst
      obtain rfl := Option.some.inj (hx.symm.trans hy)
      exact absurd hlt (Nat.lt_irrefl _)

end Trace

section Steps

variable {c : Crypto} {n : Instance} {destinationHash : Bytes} {trace : List Passage}

theorem emissionInv_jobs (h : EmissionInv destinationHash n trace) (pass : Pass) :
    EmissionInv destinationHash (jobs n pass).1 (leftPassage n pass destinationHash ++ trace) := by
  have hcontrol : destinationHash ∈ (jobs n pass).1.controlHashes → queuedEmissions trace = [] := by
    rw [(jobs_passed n pass).controlHashes]
    exact h.control
  have hlatest : ∀ x, (Known n.toTransportState destinationHash →
      x ≤ latestEmission n.toTransportState destinationHash) →
      Known (jobs n pass).1.toTransportState destinationHash →
      x ≤ latestEmission (jobs n pass).1.toTransportState destinationHash := by
    intro x hx hknown
    obtain ⟨hknown', hblobs⟩ := Thins.jobs n pass destinationHash hknown
    unfold latestEmission
    rw [hblobs]
    exact hx hknown'
  have hpacket : ∀ emission, (∀ e, n.announceTable destinationHash = some e →
      emissionOf e.packet = emission) →
      ∀ e, (jobs n pass).1.announceTable destinationHash = some e →
        emissionOf e.packet = emission := by
    intro emission hentry e he
    obtain ⟨hsame, -⟩ | ⟨hpass, -⟩ := announceTable_jobs n pass destinationHash
    · exact hentry e (hsame.symm.trans he)
    · obtain ⟨e', he', hpassed⟩ := Option.bind_eq_some_iff.mp (hpass.symm.trans he)
      obtain ⟨-, ⟨-, rfl⟩ | ⟨-, timeout, rfl⟩⟩ := pass_eq_some hpassed
      · exact hentry _ he'
      · exact hentry e' he'
  have hremaining : remaining ((jobs n pass).1.announceTable destinationHash) ≤
      remaining (n.announceTable destinationHash) := by
    obtain ⟨hsame, -⟩ | ⟨hpass, -⟩ := announceTable_jobs n pass destinationHash
    · rw [hsame]
    · rw [hpass]
      cases n.announceTable destinationHash with
      | none => exact le_rfl
      | some e => exact remaining_pass_le
  unfold leftPassage
  split
  swap
  · refine ⟨h.sparing, hcontrol, ?_⟩
    intro after emission client before heq hafter
    obtain ⟨⟨x, hx, hknown⟩, hbudget, hentry⟩ := h.current after emission client before heq hafter
    exact ⟨⟨x, hx, hlatest x hknown⟩, by omega, hpacket emission hentry⟩
  · rename_i hsome
    obtain ⟨e, he, hleaves, hpass⟩ : ∃ e, n.announceTable destinationHash = some e ∧
        e.leaves pass.now = true ∧
        (jobs n pass).1.announceTable destinationHash = e.pass pass.now := by
      obtain ⟨-, hnone⟩ | ⟨hpass, hsent⟩ := announceTable_jobs n pass destinationHash
      · rw [hnone] at hsome
        cases hsome
      · rw [hsent, Option.isSome_map] at hsome
        obtain ⟨e, hfilter⟩ := Option.isSome_iff_exists.mp hsome
        obtain ⟨he, hleaves⟩ := Option.filter_eq_some_iff.mp hfilter
        exact ⟨e, he, hleaves, by rw [hpass, he]; rfl⟩
    have hless := remaining_of_leaves hleaves
    rw [← hpass, ← he] at hless
    have hbind : (n.announceTable destinationHash).bind (fun e => emissionOf e.packet) =
        emissionOf e.packet := by rw [he]; rfl
    rw [hbind]
    -- what leaves is the announce that was queued last
    have hcurrent : ∀ after client before,
        trace = after ++ .queued (emissionOf e.packet) client :: before →
        queuedEmissions after = [] := by
      intro after client before heq
      cases hlast : queuedEmissions trace with
      | nil => exact absurd hlast (queuedEmissions_ne_nil heq)
      | cons emission rest =>
          obtain ⟨after', client', before', heq', hafter'⟩ := exists_of_queuedEmissions hlast
          obtain ⟨-, -, hentry⟩ := h.current after' emission client' before' heq' hafter'
          rw [← hentry e he] at hlast
          exact queuedEmissions_after_latest h.sparing hlast heq
    refine ⟨sparing_left h.sparing ?_, hcontrol, ?_⟩
    · intro after client before heq
      obtain ⟨-, hbudget, -⟩ := h.current after _ client before heq (hcurrent after client before heq)
      omega
    · intro after emission client before heq hafter
      cases after with
      | nil => cases heq
      | cons passage after =>
          obtain ⟨rfl, htail⟩ := List.cons.inj heq
          obtain ⟨⟨x, hx, hknown⟩, hbudget, hentry⟩ :=
            h.current after emission client before htail hafter
          refine ⟨⟨x, hx, hlatest x hknown⟩, ?_, hpacket emission hentry⟩
          rw [← hentry e he, List.count_cons_self, hentry e he]
          omega

/-- The entry that an announce is queued with has its whole allowance. -/
theorem remaining_queuedEntry (s : TransportState) (r : Reading) (p : Wire.Packet) :
    remaining (some (queuedEntry s r p destinationHash)) = allowance (fromLocalClient s p) := by
  unfold remaining queuedEntry allowance
  dsimp only
  cases fromLocalClient s p <;> decide

theorem fromLocalClient_of_noted {s s' : TransportState} (h : Noted s s') (p : Wire.Packet) :
    fromLocalClient s' p = fromLocalClient s p := by
  obtain ⟨_, clients, _, rfl, -, hclients⟩ := h
  unfold fromLocalClient
  cases p.receivingInterface with
  | none => rfl
  | some name =>
      have hnames := congrArg (List.any · fun i => i.name == name) hclients
      simpa [List.any_map, Function.comp_def, InterfaceStub.untimed] using hnames

theorem queuedPassage_of_not_queued
    (h : ∀ q, queuedAnnounce c n frame ≠ some (destinationHash, q)) :
    queuedPassage c n frame destinationHash = [] := by
  unfold queuedPassage
  split
  · rename_i hash q hqueued
    rw [if_neg]
    rintro rfl
    exact h q hqueued
  · rfl

theorem known_of_liveRoute {now : ℚ} (h : LiveRoute n now destinationHash) :
    Known n.toTransportState destinationHash := by
  obtain ⟨routes, hroutes, hany⟩ := h
  unfold Known
  rw [hroutes, Option.getD_some]
  rintro rfl
  cases hany

/-- An announce for a destination that is not a control destination is left to no handler. -/
theorem receive_of_not_control {p : Wire.Packet}
    (hread : readFrame c frame.raw frame.receivingInterface = some p)
    (hdest : p.destinationHash = some destinationHash)
    (hcontrol : destinationHash ∉ n.controlHashes) :
    (∀ aspects q, (inbound c n.toTransportState frame.call.reading frame.raw
      frame.receivingInterface).1 ≠ .control aspects q) ∧
    (receive c n frame.call frame.raw frame.receivingInterface).1.toTransportState =
      (inbound c n.toTransportState frame.call.reading frame.raw frame.receivingInterface).2 := by
  have hnone : controlAspects n.toTransportState p = none := by
    rw [controlAspects_eq_none_iff, hdest]
    intro hash hhash
    exact Option.some.inj hhash ▸ hcontrol
  have houtcome : ∀ aspects q, (inbound c n.toTransportState frame.call.reading frame.raw
      frame.receivingInterface).1 ≠ .control aspects q := by
    intro aspects q hq
    obtain ⟨p', hread', -, -, hsome, -⟩ := exists_of_control hq
    obtain rfl : p = p' := Option.some.inj (hread.symm.trans hread')
    rw [hnone] at hsome
    cases hsome
  refine ⟨houtcome, ?_⟩
  obtain ⟨-, heq | ⟨q, hq, -⟩ | ⟨q, hq, -⟩⟩ :=
    receive_cases c n frame.call frame.raw frame.receivingInterface
  · rw [heq]
  · exact absurd hq (houtcome _ _)
  · exact absurd hq (houtcome _ _)

theorem emissionInv_announce (h : EmissionInv destinationHash n trace) (frame : Incoming)
    (hannounces : AnnouncesLive c destinationHash (n, trace) (.announce frame))
    (hcarries : CarriesBlob c (n, trace) (.announce frame)) :
    EmissionInv destinationHash (receive c n frame.call frame.raw frame.receivingInterface).1
      (queuedPassage c n frame destinationHash ++ trace) := by
  obtain ⟨⟨p, hread, htype, hdest⟩, hlive⟩ := hannounces
  have hblob := hcarries p hread
  have hremembers := Remembers.receive (c := c) n frame.call frame.raw frame.receivingInterface
  by_cases hcontrol : destinationHash ∈ n.controlHashes
  · have hempty := h.control hcontrol
    have hnone : ∀ q, queuedAnnounce c n frame ≠ some (destinationHash, q) := by
      intro q hqueued
      obtain ⟨p', -, -, hdest', hnone, -⟩ := exists_of_queuedAnnounce hqueued
      exact controlAspects_eq_none_iff.mp hnone destinationHash hdest' hcontrol
    rw [queuedPassage_of_not_queued hnone]
    refine ⟨h.sparing, fun _ => hempty, ?_⟩
    intro after emission client before heq
    exact absurd hempty (queuedEmissions_ne_nil heq)
  obtain ⟨houtcome, hstate⟩ := receive_of_not_control hread hdest hcontrol
  have hforeign : destinationHash ∉
      (receive c n frame.call frame.raw frame.receivingInterface).1.controlHashes := by
    rw [hremembers.control]
    exact hcontrol
  have hlatest := latest_inbound hread htype hdest hblob
  dsimp only at hlatest
  rw [← hstate] at hlatest
  obtain ⟨q, hqueued, hentry⟩ | ⟨hnone, hheard | ⟨q, e, hq, -⟩⟩ :=
    announceTable_receive c n frame destinationHash
  · obtain ⟨hnone, -⟩ | ⟨blob, hannounced, hnew, hle⟩ := hlatest
    · exact absurd hqueued (hnone _)
    obtain ⟨p', hread', hsame, -, -, -, -⟩ := exists_of_queuedAnnounce hqueued
    obtain rfl : p = p' := Option.some.inj (hread.symm.trans hread')
    have hemission : emissionOf (hopped q) = some (randomBlobEmitted blob) := by
      rw [hsame]
      exact congrArg (Option.map randomBlobEmitted) hannounced
    have hpassage : queuedPassage c n frame destinationHash =
        [.queued (some (randomBlobEmitted blob))
          (fromLocalClient n.toTransportState (hopped q))] := by
      unfold queuedPassage
      rw [hqueued]
      dsimp only
      rw [if_pos rfl, hemission]
    rw [hpassage]
    refine ⟨sparing_queued h.sparing _ ?_, fun hmem => absurd hmem hforeign, ?_⟩
    · intro emission rest hlast
      have hroute : LiveRoute n frame.call.reading.now destinationHash := by
        refine hlive ?_
        change queuedEmissions trace ≠ []
        rw [hlast]
        exact List.cons_ne_nil _ _
      obtain ⟨after, client, before, heq, hafter⟩ := exists_of_queuedEmissions hlast
      obtain ⟨⟨y, hy, hknown⟩, -, -⟩ := h.current after emission client before heq hafter
      exact ⟨y, hy, (hknown (known_of_liveRoute hroute)).trans_lt
        (latest_lt_of_live hannounced hnew hroute)⟩
    · intro after emission client before heq hafter
      cases after with
      | cons passage after =>
          obtain ⟨rfl, -⟩ := List.cons.inj heq
          cases hafter
      | nil =>
          obtain ⟨hhead, -⟩ := List.cons.inj heq
          obtain ⟨rfl, rfl⟩ := Passage.queued.inj hhead
          refine ⟨⟨_, rfl, fun _ => hle⟩, ?_, ?_⟩
          · rw [hentry, remaining_queuedEntry, fromLocalClient_of_noted noted_admitted]
            simp
          · intro e he
            rw [hentry] at he
            obtain rfl := Option.some.inj he
            exact hemission
  · rw [queuedPassage_of_not_queued hnone]
    refine ⟨h.sparing, fun hmem => absurd hmem hforeign, ?_⟩
    intro after emission client before heq hafter
    obtain ⟨⟨x, hx, hknown⟩, hbudget, hentry⟩ := h.current after emission client before heq hafter
    have hroute := hlive (queuedEmissions_ne_nil heq)
    have hx' := hknown (known_of_liveRoute hroute)
    refine ⟨⟨x, hx, fun _ => ?_⟩, ?_, ?_⟩
    · obtain ⟨-, hsame⟩ | ⟨blob, hannounced, hnew, hle⟩ := hlatest
      · rw [hsame]
        exact hx'
      · exact (hx'.trans_lt (latest_lt_of_live hannounced hnew hroute)).le.trans hle
    · have hless := remaining_of_heard hheard
      exact (Nat.add_le_add_left hless _).trans hbudget
    · intro e he
      obtain heq' | hgone | ⟨e', count, he', hafter'⟩ := hheard
      · exact hentry e (heq'.symm.trans he)
      · rw [hgone] at he
        cases he
      · obtain rfl := Option.some.inj (hafter'.symm.trans he)
        exact hentry e' he'
  · exact absurd hq (houtcome _ _)

end Steps

theorem emissionInv_step {c : Crypto} {destinationHash : Bytes} (state : Instance × List Passage)
    (event : EmissionEvent) (state' : Instance × List Passage)
    (h : EmissionInv destinationHash state.1 state.2)
    (hok : AnnouncesLive c destinationHash state event ∧ CarriesBlob c state event)
    (hstep : emissionStep c destinationHash state event = some state') :
    EmissionInv destinationHash state'.1 state'.2 := by
  cases event with
  | announce frame =>
      obtain rfl := Option.some.inj hstep
      exact emissionInv_announce h frame hok.1 hok.2
  | jobs pass =>
      obtain rfl := Option.some.inj hstep
      exact emissionInv_jobs h pass

theorem emissionInv_start (n : Instance) (destinationHash : Bytes) :
    EmissionInv destinationHash n [] := by
  refine ⟨⟨List.Pairwise.nil, ?_⟩, fun _ => rfl, ?_⟩
  · intro after emission client before heq
    simp at heq
  · intro after emission client before heq
    simp at heq

/-- In every run of announces of a destination that carry a random blob, with a live route
from the first that is queued on, the emissions that are queued are strictly increasing,
and each leaves at most as often as it is allowed to. -/
theorem emissions_bounded (c : Crypto) (destinationHash : Bytes) (n : Instance)
    (events : List EmissionEvent)
    (hevents : Runs.Meets (emissionStep c destinationHash)
      (fun state event => AnnouncesLive c destinationHash state event ∧ CarriesBlob c state event)
      (n, []) events) :
    Runs.Always (emissionStep c destinationHash) (fun state => Sparing state.2) (n, []) events := by
  have hinv := Runs.always_of_meets (emissionInv_step (c := c))
    (emissionInv_start n destinationHash) hevents
  exact fun done state hdone hrun => (hinv done state hdone hrun).sparing

/-! ## An announce without a blob -/

/-- The announce of the zero destination with its blob, from the left. -/
def announcedZero : EmissionEvent :=
  .announce
    { call := { reading := .zero, randomHash := [], tunnelPaths := [] }
      raw := zeroFrame 1
      receivingInterface := some "left" }

/-- An announce of the zero destination too short for a blob, from the left. -/
def shortIncoming : Incoming :=
  { call := { reading := .zero, randomHash := [], tunnelPaths := [] }
    raw := [0x01, 0x01] ++ List.replicate 16 0 ++ [0x00, 0x07]
    receivingInterface := some "left" }

theorem liveRoute_of_map {n : Instance} {now : ℚ} {destinationHash : Bytes}
    (h : ((n.pathTable destinationHash).map fun routes =>
      routes.any (routeIsLive n.interfaces now)) = some true) :
    LiveRoute n now destinationHash := by
  obtain ⟨routes, hroutes, hany⟩ := Option.map_eq_some_iff.mp h
  exact ⟨routes, hroutes, hany⟩

section Samples

set_option maxRecDepth 4000

theorem carriesBlob_zero (state : Instance × List Passage) :
    CarriesBlob zeroCrypto state announcedZero := by
  intro p hread _
  have hblob : ((readFrame zeroCrypto (zeroFrame 1) (some "left")).map fun p =>
      (announceBlob p).isSome) = some true := by decide +kernel
  rw [show readFrame zeroCrypto (zeroFrame 1) (some "left") = some p from hread] at hblob
  exact Option.some.inj hblob

/-- Two copies of an announce, with passes in between. -/
theorem emissions_bounded_twice :
    Runs.Always (emissionStep zeroCrypto (List.replicate 16 0)) (fun state => Sparing state.2)
      (idleRelay, []) [announcedZero, .jobs (plainPass 2), announcedZero, .jobs (plainPass 20)] := by
  refine emissions_bounded _ _ _ _ ?_
  rintro m₁ ⟨⟩
  refine ⟨⟨⟨⟨zeroAnnounced 1, rfl, by decide, rfl⟩, ?_⟩, carriesBlob_zero _⟩, ?_⟩
  · intro hqueued
    exact absurd rfl hqueued
  rintro m₂ ⟨⟩
  refine ⟨⟨True.intro, True.intro⟩, ?_⟩
  rintro m₃ ⟨⟩
  refine ⟨⟨⟨⟨zeroAnnounced 1, rfl, by decide, rfl⟩, ?_⟩, carriesBlob_zero _⟩, ?_⟩
  · intro _
    exact liveRoute_of_map (by decide +kernel)
  rintro m₄ ⟨⟩
  exact ⟨⟨True.intro, True.intro⟩, True.intro⟩

theorem queuedEmissions_short :
    (Runs.exec (emissionStep zeroCrypto (List.replicate 16 0)) (idleRelay, [])
      [.announce shortIncoming, .announce shortIncoming]).map (fun state =>
        queuedEmissions state.2) = some [none, none] := by
  decide +kernel

/-- Two copies of an announce without a blob are both queued. -/
theorem emissions_bounded_false :
    ¬ ∀ (c : Crypto) (destinationHash : Bytes) (n : Instance) (events : List EmissionEvent),
      Runs.Meets (emissionStep c destinationHash) (AnnouncesLive c destinationHash) (n, []) events →
      Runs.Always (emissionStep c destinationHash) (fun state => Sparing state.2) (n, [])
        events := by
  intro hall
  have hannounce : ∃ p, readFrame zeroCrypto shortIncoming.raw shortIncoming.receivingInterface =
      some p ∧ p.packetType = Wire.announce ∧ p.destinationHash = some (List.replicate 16 0) :=
    ⟨_, rfl, by decide, rfl⟩
  have hmeets : Runs.Meets (emissionStep zeroCrypto (List.replicate 16 0))
      (AnnouncesLive zeroCrypto (List.replicate 16 0)) (idleRelay, [])
      [.announce shortIncoming, .announce shortIncoming] := by
    rintro m₁ ⟨⟩
    refine ⟨⟨hannounce, fun hqueued => absurd rfl hqueued⟩, ?_⟩
    rintro m₂ ⟨⟩
    exact ⟨⟨hannounce, fun _ => liveRoute_of_map (by decide +kernel)⟩, True.intro⟩
  obtain ⟨state, hrun, hqueued⟩ := Option.map_eq_some_iff.mp queuedEmissions_short
  have hincreasing := (hall _ _ _ _ hmeets _ _ (List.prefix_refl _) hrun).increasing
  rw [hqueued, List.pairwise_cons] at hincreasing
  obtain ⟨_, _, hlater, -⟩ := hincreasing.1 none List.mem_cons_self
  cases hlater

end Samples

end Reticulum.Transport
