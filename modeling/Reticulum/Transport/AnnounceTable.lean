import Reticulum.Transport.Receive

/-!
# What changes the announce table

An entry of `announce_table` (`src/transport.rs`) is queued by `inbound` for an
announce with a new emission, touched when a neighbour is heard rebroadcasting it,
replaced by the answer to a path request, and sent and retired by `jobs`. Each of
these is described once here, for the entry of one destination.
-/

namespace Reticulum.Transport

/-- Whether `inbound` puts an announce into `announce_table`. -/
def queuesAnnounce (s : TransportState) (r : Reading) (p : Wire.Packet) (destinationHash : Bytes) :
    Bool :=
  !s.destinations.contains destinationHash &&
    ((s.transportEnabled || fromLocalClient s p) && p.context != pathResponse &&
      isNewEmission s r p destinationHash)

/-- The entry that `inbound` puts into `announce_table`. -/
def queuedEntry (s : TransportState) (r : Reading) (p : Wire.Packet) (destinationHash : Bytes) :
    AnnounceEntry :=
  { timestamp := r.now
    retransmitTimeout := if fromLocalClient s p then r.now else r.now + r.random * pathfinderRw
    retries := if fromLocalClient s p then pathfinderR else 0
    receivedFrom := receivedFrom p destinationHash
    hops := p.hops
    packet := p
    localRebroadcasts := 0
    blockRebroadcasts := false
    attachedInterface := none }

/-- The announce that a frame puts into `announce_table`, with its destination. -/
def queuedAnnounce (c : Crypto) (n : Instance) (frame : Incoming) : Option (Bytes × Wire.Packet) :=
  let s := n.toTransportState
  let r := frame.call.reading
  match readFrame c frame.raw frame.receivingInterface,
      (inbound c s r frame.raw frame.receivingInterface).1 with
  | some p, .processed _ =>
      if p.packetType = Wire.announce ∧ announceShouldAdd c (admitted s r p) (hopped p) then
        (p.destinationHash.filter (queuesAnnounce (admitted s r p) r (hopped p))).map (·, hopped p)
      else none
  | _, _ => none

/-- An entry after a neighbour may have been heard rebroadcasting it. -/
def Heard (before after : Option AnnounceEntry) : Prop :=
  after = before ∨ after = none ∨
    ∃ e count, before = some e ∧ after = some { e with localRebroadcasts := count }

section Inbound

variable {c : Crypto} {s : TransportState} {r : Reading} {p : Wire.Packet}
  {destinationHash : Bytes}

theorem heard_heardRebroadcast (hash : Bytes) :
    Heard (s.announceTable hash) ((heardRebroadcast s r p destinationHash).announceTable hash) := by
  by_cases heq : hash = destinationHash
  swap
  · left
    unfold heardRebroadcast
    split
    · split
      · rfl
      · split
        · split
          · exact Function.update_of_ne heq _ _
          · exact Table.insert_of_ne _ heq _
        · rfl
    · rfl
  subst heq
  unfold heardRebroadcast
  split
  swap
  · exact .inl rfl
  split
  · exact .inl rfl
  rename_i e he
  split
  swap
  · exact .inl rfl
  split
  · exact .inr (.inl (Function.update_self _ _ _))
  · exact .inr (.inr ⟨e, _, he, Table.insert_self _ _ _⟩)

theorem announceTable_queueRebroadcast (newEmission : Bool) :
    (queueRebroadcast s r p destinationHash newEmission).announceTable =
      if (s.transportEnabled || fromLocalClient s p) && p.context != pathResponse && newEmission then
        s.announceTable.insert destinationHash (queuedEntry s r p destinationHash)
      else s.announceTable := by
  unfold queueRebroadcast
  split <;> rfl

/-- The announce table after an announce. -/
theorem announceTable_processAnnounce (hdest : p.destinationHash = some destinationHash) :
    (processAnnounce s r p).1.announceTable =
      if queuesAnnounce s r p destinationHash then
        (heardRebroadcast s r p destinationHash).announceTable.insert destinationHash
          (queuedEntry s r p destinationHash)
      else (heardRebroadcast s r p destinationHash).announceTable := by
  obtain ⟨table, hheard⟩ := heardRebroadcast_eq s r p destinationHash
  unfold processAnnounce
  rw [hdest]
  dsimp only
  rw [hheard]
  dsimp only
  unfold queuesAnnounce
  cases hlocal : s.destinations.contains destinationHash with
  | true => simp
  | false =>
      rw [if_neg (by simp)]
      obtain ⟨requests, hanswer⟩ := answerDiscovery_eq
        (admitAnnounce { s with announceTable := table } r p destinationHash) p destinationHash
      rw [hanswer]
      obtain ⟨_, _, hforward⟩ := forwardToLocalClients_eq (queueRebroadcast
        { admitAnnounce { s with announceTable := table } r p destinationHash with
          discoveryPathRequests := requests } r p destinationHash
        (isNewEmission { s with announceTable := table } r p destinationHash)) r p destinationHash
      rw [hforward]
      dsimp only
      rw [announceTable_queueRebroadcast, Bool.not_false, Bool.true_and]
      rfl

theorem announceTable_admitted : (admitted s r p).announceTable = s.announceTable := by
  obtain ⟨_, _, _, heq, -, -⟩ := noted_admitted (s := s) (r := r) (p := p)
  rw [heq]

/-- The announce table after a packet that is not an announce. -/
theorem announceTable_of_forwarded {s' : TransportState} (h : Forwarded s s') :
    s'.announceTable = s.announceTable := by
  obtain ⟨_, _, _, _, rfl, -, -⟩ := h
  rfl

/-- The announce table after an announce that may be invalid. -/
theorem announceTable_inboundAnnounce (hdest : p.destinationHash = some destinationHash) :
    (inboundAnnounce c s r p).2.announceTable =
      if announceShouldAdd c s p then
        if queuesAnnounce s r p destinationHash then
          (heardRebroadcast s r p destinationHash).announceTable.insert destinationHash
            (queuedEntry s r p destinationHash)
        else (heardRebroadcast s r p destinationHash).announceTable
      else s.announceTable := by
  obtain ⟨validated, known, ratchets, hashlist, -, ⟨hadd, heq, -⟩ | ⟨hadd, heq, -⟩⟩ :=
    inboundAnnounce_cases c s r p
  · rw [heq, hadd, if_pos rfl, announceTable_processAnnounce hdest]
    have hheard : (heardRebroadcast { s with
        validatedAnnounceHashes := validated, knownDestinations := known
        knownRatchets := ratchets, packetHashlist := hashlist } r p
          destinationHash).announceTable =
        (heardRebroadcast s r p destinationHash).announceTable := by
      unfold heardRebroadcast
      dsimp only
      repeat' split
      all_goals rfl
    rw [hheard]
    rfl
  · rw [heq, hadd, if_neg (by simp)]

/-- A frame that is not processed queues nothing. -/
theorem queuedAnnounce_of_quiet {n : Instance} {frame : Incoming}
    (h : (inbound c n.toTransportState frame.call.reading frame.raw
      frame.receivingInterface).1.isQuiet = true) : queuedAnnounce c n frame = none := by
  unfold queuedAnnounce
  dsimp only
  split
  · rename_i hprocessed
    rw [hprocessed] at h
    cases h
  · rfl

/-- What a processed announce queues. -/
theorem queuedAnnounce_of_announce {n : Instance} {frame : Incoming} {effects : Effects}
    (hread : readFrame c frame.raw frame.receivingInterface = some p)
    (hprocessed : (inbound c n.toTransportState frame.call.reading frame.raw
      frame.receivingInterface).1 = .processed effects)
    (htype : p.packetType = Wire.announce) (hdest : p.destinationHash = some destinationHash) :
    queuedAnnounce c n frame =
      if announceShouldAdd c (admitted n.toTransportState frame.call.reading p) (hopped p) = true ∧
          queuesAnnounce (admitted n.toTransportState frame.call.reading p) frame.call.reading
            (hopped p) destinationHash = true then
        some (destinationHash, hopped p)
      else none := by
  unfold queuedAnnounce
  dsimp only
  rw [hread, hprocessed]
  dsimp only
  rw [hdest]
  by_cases hadd : announceShouldAdd c (admitted n.toTransportState frame.call.reading p)
    (hopped p) = true
  · by_cases hqueues : queuesAnnounce (admitted n.toTransportState frame.call.reading p)
      frame.call.reading (hopped p) destinationHash = true
    · simp [htype, hadd, hqueues]
    · simp [htype, hadd, hqueues]
  · simp [hadd]

/-- What is queued is an announce that was accepted, and not for a control destination. -/
theorem exists_of_queuedAnnounce {n : Instance} {frame : Incoming} {q : Wire.Packet}
    (h : queuedAnnounce c n frame = some (destinationHash, q)) :
    ∃ p, readFrame c frame.raw frame.receivingInterface = some p ∧ q = hopped p ∧
      p.destinationHash = some destinationHash ∧
      controlAspects n.toTransportState p = none ∧
      announceShouldAdd c (admitted n.toTransportState frame.call.reading p) (hopped p) = true ∧
      queuesAnnounce (admitted n.toTransportState frame.call.reading p) frame.call.reading
        (hopped p) destinationHash = true := by
  unfold queuedAnnounce at h
  dsimp only at h
  split at h
  swap
  · cases h
  rename_i p effects hread hprocessed
  split at h
  swap
  · cases h
  rename_i hadd
  obtain ⟨hash, hfilter, heq⟩ := Option.map_eq_some_iff.mp h
  obtain ⟨rfl, rfl⟩ := Prod.mk.inj heq
  obtain ⟨hdest, hqueues⟩ := Option.filter_eq_some_iff.mp hfilter
  exact ⟨p, hread, rfl, hdest, controlAspects_of_processed hread hprocessed, hadd.2, hqueues⟩

/-- The entry of a destination after `inbound`: queued, or heard from a neighbour. -/
theorem announceTable_inbound (c : Crypto) (n : Instance) (frame : Incoming) (hash : Bytes) :
    let s := n.toTransportState
    let r := frame.call.reading
    let after := (inbound c s r frame.raw frame.receivingInterface).2.announceTable hash
    (∃ p, queuedAnnounce c n frame = some (hash, hopped p) ∧
      after = some (queuedEntry (admitted s r p) r (hopped p) hash)) ∨
    (∀ p, queuedAnnounce c n frame ≠ some (hash, p)) ∧ Heard (s.announceTable hash) after := by
  dsimp only
  obtain ⟨hquiet, hnoted⟩ | ⟨p, hread, ⟨htype, heq⟩ | ⟨htype, heq⟩⟩ :=
    inbound_cases c n.toTransportState frame.call.reading frame.raw frame.receivingInterface
  · right
    refine ⟨fun p => ?_, .inl ?_⟩
    · rw [queuedAnnounce_of_quiet hquiet]
      intro hsome
      cases hsome
    · obtain ⟨_, _, _, hstate, -, -⟩ := hnoted
      rw [hstate]
  · obtain ⟨⟨destinationHash, hdest⟩, -⟩ := fields_of_readFrame hread
    have hqueued := queuedAnnounce_of_announce hread (congrArg Prod.fst heq) htype hdest
    have htable : (inbound c n.toTransportState frame.call.reading frame.raw
        frame.receivingInterface).2.announceTable = _ :=
      (congrArg (fun result => result.2.announceTable) heq).trans
        (announceTable_inboundAnnounce (p := hopped p) hdest)
    have hheard : Heard (n.announceTable hash)
        ((heardRebroadcast (admitted n.toTransportState frame.call.reading p) frame.call.reading
          (hopped p) destinationHash).announceTable hash) := by
      have h := @heard_heardRebroadcast (admitted n.toTransportState frame.call.reading p)
        frame.call.reading (hopped p) destinationHash hash
      rw [announceTable_admitted] at h
      exact h
    rw [hqueued, htable]
    by_cases hadd : announceShouldAdd c (admitted n.toTransportState frame.call.reading p)
      (hopped p) = true
    swap
    · right
      rw [if_neg (fun h => hadd h.1), if_neg hadd, announceTable_admitted]
      exact ⟨fun q hsome => (by cases hsome), .inl rfl⟩
    by_cases hqueues : queuesAnnounce (admitted n.toTransportState frame.call.reading p)
      frame.call.reading (hopped p) destinationHash = true
    swap
    · right
      rw [if_neg (fun h => hqueues h.2), if_pos hadd, if_neg hqueues]
      exact ⟨fun q hsome => (by cases hsome), hheard⟩
    rw [if_pos ⟨hadd, hqueues⟩, if_pos hadd, if_pos hqueues]
    by_cases hhash : hash = destinationHash
    · subst hhash
      exact .inl ⟨p, rfl, Table.insert_self _ _ _⟩
    · right
      rw [Table.insert_of_ne _ hhash]
      refine ⟨fun q hsome => hhash ?_, hheard⟩
      exact (congrArg Prod.fst (Option.some.inj hsome)).symm
  · right
    refine ⟨fun q => ?_, .inl ?_⟩
    · unfold queuedAnnounce
      dsimp only
      rw [hread, heq]
      simp [htype]
    · rw [heq, announceTable_of_forwarded .inboundPacket, announceTable_admitted]

/-- What a path request puts into the announce table is a path response. -/
theorem pathRequestHandler_responses (c : Crypto) (n : Instance) (call : Call) (p : Wire.Packet)
    (hash : Bytes) :
    (pathRequestHandler c n call p).1.announceTable hash = n.announceTable hash ∨
      ∃ e, (pathRequestHandler c n call p).1.announceTable hash = some e ∧
        e.blockRebroadcasts = true := by
  obtain heq | ⟨tag, -, -, -, heq⟩ := pathRequestHandler_cases c n call p
  · rw [heq]
    exact .inl rfl
  · rw [heq]
    exact (Asked.pathRequest call _ _).responses hash

/-- The entry of a destination after a frame: queued, heard from a neighbour, or a response
to a path request. -/
theorem announceTable_receive (c : Crypto) (n : Instance) (frame : Incoming) (hash : Bytes) :
    let s := n.toTransportState
    let r := frame.call.reading
    let after := (receive c n frame.call frame.raw frame.receivingInterface).1.announceTable hash
    (∃ p, queuedAnnounce c n frame = some (hash, hopped p) ∧
      after = some (queuedEntry (admitted s r p) r (hopped p) hash)) ∨
    (∀ p, queuedAnnounce c n frame ≠ some (hash, p)) ∧
      (Heard (s.announceTable hash) after ∨
        ∃ q e, (inbound c s r frame.raw frame.receivingInterface).1 =
            .control ["path", "request"] q ∧
          after = some e ∧ e.blockRebroadcasts = true) := by
  have hinbound := announceTable_inbound c n frame hash
  obtain ⟨-, heq | ⟨p, hcontrol, heq⟩ | ⟨p, hcontrol, heq⟩⟩ :=
    receive_cases c n frame.call frame.raw frame.receivingInterface
  · dsimp only at hinbound ⊢
    rw [heq]
    obtain hqueued | ⟨hnone, hheard⟩ := hinbound
    · exact .inl hqueued
    · exact .inr ⟨hnone, .inl hheard⟩
  · have hquiet : queuedAnnounce c n frame = none :=
      queuedAnnounce_of_quiet (by rw [hcontrol]; rfl)
    obtain ⟨_, hqueued, -⟩ | ⟨hnone, hheard⟩ := hinbound
    · rw [hquiet] at hqueued
      cases hqueued
    refine .inr ⟨hnone, ?_⟩
    rw [heq]
    obtain hsame | ⟨e, he, hblock⟩ := pathRequestHandler_responses c
      { n with
        toTransportState := (inbound c n.toTransportState frame.call.reading frame.raw
          frame.receivingInterface).2 } frame.call p hash
    · left
      rw [hsame]
      exact hheard
    · exact .inr ⟨p, e, hcontrol, he, hblock⟩
  · have hquiet : queuedAnnounce c n frame = none :=
      queuedAnnounce_of_quiet (by rw [hcontrol]; rfl)
    obtain ⟨_, hqueued, -⟩ | ⟨hnone, hheard⟩ := hinbound
    · rw [hquiet] at hqueued
      cases hqueued
    refine .inr ⟨hnone, .inl ?_⟩
    rw [heq]
    unfold tunnelSynthesizeHandler
    split
    · exact hheard
    · rename_i tunnelId interface _
      obtain ⟨_, _, _, _, hstate⟩ := handleTunnel_eq
        (inbound c n.toTransportState frame.call.reading frame.raw frame.receivingInterface).2
        frame.call.reading tunnelId interface frame.call.tunnelPaths
      dsimp only
      rw [hstate]
      exact hheard

end Inbound

/-- The entry of a destination after a pass, and whether it left in the pass. -/
theorem announceTable_jobs (n : Instance) (pass : Pass) (hash : Bytes) :
    ((jobs n pass).1.announceTable hash = n.announceTable hash ∧
      (jobs n pass).2.rebroadcasts hash = none) ∨
    ((jobs n pass).1.announceTable hash = (n.announceTable hash).bind (·.pass pass.now) ∧
      (jobs n pass).2.rebroadcasts hash =
        ((n.announceTable hash).filter (·.leaves pass.now)).map
          (rebroadcastOf n.toTransportState hash)) := by
  have hpassed := jobs_passed n pass
  rw [hpassed.announceTable, hpassed.rebroadcasts]
  unfold rebroadcastAnnounces
  split
  · exact .inr ⟨rfl, rfl⟩
  · exact .inl ⟨rfl, rfl⟩

/-- What stays of an entry over a pass. -/
theorem pass_eq_some {e e' : AnnounceEntry} {now : ℚ} (h : e.pass now = some e') :
    e.completed = false ∧
      ((e.leaves now = false ∧ e' = e) ∨
        (e.leaves now = true ∧ ∃ timeout, e' = { e with
          retransmitTimeout := timeout, retries := saturatingSucc e.retries })) := by
  unfold AnnounceEntry.pass at h
  split at h
  · cases h
  rename_i hcompleted
  have hopen : e.completed = false := by simpa using hcompleted
  refine ⟨hopen, ?_⟩
  unfold AnnounceEntry.leaves
  rw [hopen]
  split at h
  · rename_i hlate
    exact .inr ⟨by simpa using hlate, _, (Option.some.inj h).symm⟩
  · rename_i hearly
    exact .inl ⟨by simpa using hearly, (Option.some.inj h).symm⟩

/-- How often an entry may still leave. -/
def remaining : Option AnnounceEntry → Nat
  | none => 0
  | some e => pathfinderR.toNat + 1 - e.retries.toNat

theorem remaining_of_heard {before after : Option AnnounceEntry} (h : Heard before after) :
    remaining after ≤ remaining before := by
  obtain rfl | rfl | ⟨e, count, rfl, rfl⟩ := h
  · exact le_rfl
  · exact Nat.zero_le _
  · exact le_rfl

/-- An entry that leaves may leave one time less. -/
theorem remaining_of_leaves {e : AnnounceEntry} {now : ℚ} (h : e.leaves now = true) :
    remaining (e.pass now) + 1 ≤ remaining (some e) := by
  unfold AnnounceEntry.leaves at h
  obtain ⟨hopen, hlate⟩ : e.completed = false ∧ e.retransmitTimeout < now := by simpa using h
  unfold AnnounceEntry.pass
  rw [if_neg (by simp [hopen]), if_pos hlate]
  have hretries : e.retries.toNat ≤ pathfinderR.toNat := by
    have hle : ¬ pathfinderR < e.retries := by
      intro hlt
      simp [AnnounceEntry.completed, hlt] at hopen
    rw [UInt8.lt_iff_toNat_lt] at hle
    omega
  have hsucc : (saturatingSucc e.retries).toNat = e.retries.toNat + 1 := by
    have hone : pathfinderR.toNat = 1 := by decide
    unfold saturatingSucc
    rw [if_neg]
    · rw [UInt8.toNat_add]
      change (e.retries.toNat + 1) % 256 = _
      omega
    · intro h255
      rw [h255, hone] at hretries
      exact absurd hretries (by decide)
  unfold remaining
  dsimp only
  omega

theorem remaining_pass_le {e : AnnounceEntry} {now : ℚ} :
    remaining (e.pass now) ≤ remaining (some e) := by
  by_cases hleaves : e.leaves now = true
  · exact Nat.le_of_succ_le (remaining_of_leaves hleaves)
  · cases hpass : e.pass now with
    | none => exact Nat.zero_le _
    | some e' =>
        obtain ⟨-, ⟨-, rfl⟩ | ⟨htrue, -⟩⟩ := pass_eq_some hpass
        · exact le_rfl
        · exact absurd htrue hleaves

end Reticulum.Transport
