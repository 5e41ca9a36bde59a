import Reticulum.Lib.Pacer
import Reticulum.Transport.RequestLoops

/-!
# Announces for local clients

`inbound` and `path_request` (`src/transport.rs`) send announces to local clients
`LOCAL_CLIENT_ANNOUNCE_PACE` apart, at once or through a queue that `jobs` drains.
The pacing of one client is a pacer. The path that sends at once reads the
schedule alone, not what waits or what was drained last, so that the frames stay
apart and in order in every run in which it finds the pacer rested (`paced_run`).

## Implementation notes

A frame is accepted for a client when it is handed to the pacing. The answer to a
discovery request is sent to the node that asked, past the pacing.
-/

namespace Reticulum.Transport

/-- The frames for one client, in their order. -/
def framesFor (client : String) (frames : List (String × Bytes)) : List Bytes :=
  (frames.filter fun frame => frame.1 == client).map Prod.snd

theorem framesFor_append (client : String) (frames frames' : List (String × Bytes)) :
    framesFor client (frames ++ frames') = framesFor client frames ++ framesFor client frames' := by
  simp [framesFor]

/-- The tolerance within which a frame is sent at once. -/
def paceTolerance : ℚ := 1 / 1000

/-- The entries of the queue for one client. -/
def queuedFor (client : String) (pending : List (ℚ × String × Bytes)) :
    List (ℚ × String × Bytes) :=
  pending.filter fun entry => entry.2.1 == client

/-- The pacer of a client. -/
def pacerOf (s : TransportState) (lastSent : String → Option ℚ) (client : String) : Pacer ℚ Bytes :=
  { scheduled := s.clientAnnouncePacing client
    pending := (queuedFor client s.pendingLocalAnnounces).map fun entry => (entry.1, entry.2.2)
    lastSent := lastSent client }

/-- Frames for local clients are paced, one after the other. -/
def paceAll (s : TransportState) (r : Reading) (accepted : List (String × Bytes)) :
    TransportState × List (String × Bytes) :=
  accepted.foldl (fun acc frame => paceLocalClient r frame.2 acc frame.1) (s, [])

/-! ## What is accepted and what is dispatched -/

/-- An announce for the local clients that it did not come from. -/
def clientFrames (s : TransportState) (p : Wire.Packet) (destinationHash : Bytes) :
    List (String × Bytes) :=
  ((s.localClientInterfaces.map (·.name)).filter fun name =>
    p.receivingInterface != some name).map
      (·, announceRaw s p destinationHash (if p.context = pathResponse then pathResponse else 0))

/-- The frames that `inbound` accepts for local clients: those of a valid announce of a
destination of another node. -/
def forwardedFrames (c : Crypto) (n : Instance) (frame : Incoming) : List (String × Bytes) :=
  let s := n.toTransportState
  let r := frame.call.reading
  match readFrame c frame.raw frame.receivingInterface,
      (inbound c s r frame.raw frame.receivingInterface).1 with
  | some p, .processed _ =>
      if p.packetType = Wire.announce ∧ announceShouldAdd c (admitted s r p) (hopped p) then
        (p.destinationHash.filter fun hash => !s.destinations.contains hash).elim []
          (clientFrames s (hopped p))
      else []
  | _, _ => []

/-- The path response that `path_request` accepts for a local client: the cached announce of
a path that is known. -/
def responseFrames (c : Crypto) (n : Instance) (call : Call) (destinationHash : Bytes)
    (isFromLocalClient : Bool) (attachedInterface : Option String)
    (requestorTransportId : Option Bytes) : List (String × Bytes) :=
  if !isFromLocalClient || n.destinations.contains destinationHash then []
  else
    match selectPath n.pathTable n.interfaces destinationHash call.reading.now with
    | none => []
    | some best =>
        if withholds n best attachedInterface requestorTransportId then []
        else
          match cachedAnnounce c n best.packetHash, attachedInterface with
          | some packet, some name =>
              [(name, announceRaw n.toTransportState { packet with hops := best.hops }
                destinationHash pathResponse)]
          | _, _ => []

/-- The frames that `path_request_handler` accepts for local clients. -/
def answeredFrames (c : Crypto) (n : Instance) (call : Call) (p : Wire.Packet) :
    List (String × Bytes) :=
  match acceptedRequest n p with
  | none => []
  | some key => responseFrames c n call key.destinationHash (fromLocalClient n.toTransportState p)
      p.receivingInterface (parseRequest p.data).requestingTransportInstance

/-- The frames that an event hands to the pacing of the local clients. -/
def acceptedFrames (c : Crypto) (n : Instance) : RequestEvent → List (String × Bytes)
  | .receive frame => forwardedFrames c n frame ++
      (requestPacket c n frame).elim [] (answeredFrames c (n.taken c frame) frame.call)
  | .handle call p => answeredFrames c n call p
  | .jobs _ => []

/-- The frames that `inbound` sends when it processes an announce. -/
def announcedFrames (c : Crypto) (n : Instance) (frame : Incoming) : List (String × Bytes) :=
  match readFrame c frame.raw frame.receivingInterface,
      (receive c n frame.call frame.raw frame.receivingInterface).2.1 with
  | some p, .processed effects => if p.packetType = Wire.announce then effects.outbound else []
  | _, _ => []

/-- The announce frames that an event dispatches: those of an announce that comes in, of an
answer to a path request, and of the queue. -/
def dispatchedFrames (c : Crypto) (n : Instance) : RequestEvent → List (String × Bytes)
  | .receive frame => announcedFrames c n frame ++
      (receive c n frame.call frame.raw frame.receivingInterface).2.2.frames
  | .handle call p => (pathRequestHandler c n call p).2.frames
  | .jobs pass => (jobs n pass).2.frames

/-- The node after an event. -/
def nodeAfter (c : Crypto) (n : Instance) : RequestEvent → Instance
  | .receive frame => (receive c n frame.call frame.raw frame.receivingInterface).1
  | .handle call p => (pathRequestHandler c n call p).1
  | .jobs pass => (jobs n pass).1

/-- The time of an event. -/
def RequestEvent.time : RequestEvent → ℚ
  | .receive frame => frame.call.reading.now
  | .handle call _ => call.reading.now
  | .jobs pass => pass.now

/-- A node, what it has accepted for a client, and what it has dispatched to the client, with
the times. -/
structure ClientLog where
  node : Instance
  accepted : List Bytes
  dispatched : List (ℚ × Bytes)

/-- One event, as the client sees it. -/
def clientStep (c : Crypto) (client : String) (log : ClientLog) (event : RequestEvent) :
    Option ClientLog :=
  some
    { node := nodeAfter c log.node event
      accepted := log.accepted ++ framesFor client (acceptedFrames c log.node event)
      dispatched := log.dispatched ++
        (framesFor client (dispatchedFrames c log.node event)).map (event.time, ·) }

/-- The pacer of a client at a node. -/
def Instance.pacer (n : Instance) (client : String) : Pacer ℚ Bytes :=
  pacerOf n.toTransportState n.clientAnnounceLastSent client

/-- A frame that would go to the client at once finds nothing waiting, and the scheduled time
and the last drain far enough back. Passes run at positive times. -/
def RestedAtOnce (c : Crypto) (client : String) (log : ClientLog) : RequestEvent → Prop
  | .jobs pass => 0 < pass.now
  | event =>
      framesFor client (acceptedFrames c log.node event) ≠ [] →
      (log.node.pacer client).AtOnce localClientAnnouncePace paceTolerance event.time →
      (log.node.pacer client).Rested localClientAnnouncePace event.time

/-- Passes that are far enough apart and late enough to send all that waits for a client. -/
structure Drains (n : Instance) (client : String) (passes : List Pass) : Prop where
  positive : ∀ pass ∈ passes, 0 < pass.now
  apart : passes.Pairwise fun x y => x.now + localClientAnnouncePace ≤ y.now
  due : ∀ pass ∈ passes, ∀ e ∈ (n.pacer client).pending, e.1 ≤ pass.now
  last : ∀ pass ∈ passes, ∀ t, n.clientAnnounceLastSent client = some t →
    t + localClientAnnouncePace ≤ pass.now
  enough : (n.pacer client).pending.length ≤ passes.length

/-- A client is paced: the frames it was sent are far enough apart; they are those accepted
for it, in their order, up to those that still wait; and enough passes send the rest. -/
structure ClientPaced (c : Crypto) (client : String) (log : ClientLog) : Prop where
  apart : log.dispatched.Pairwise fun x y => x.1 + localClientAnnouncePace ≤ y.1
  order : log.accepted =
    log.dispatched.map Prod.snd ++ (log.node.pacer client).pending.map Prod.snd
  drained : ∀ passes, Drains log.node client passes → ∃ log',
    Runs.exec (clientStep c client) log (passes.map .jobs) = some log' ∧
      log'.accepted = log.accepted ∧ log'.dispatched.map Prod.snd = log.accepted

/-- A client is registered, and no discovery request is answered to it. -/
structure IsLocal (client : String) (s : TransportState) : Prop where
  registered : client ∈ s.localClientInterfaces.map (·.name)
  undiscovered : ∀ hash request, s.discoveryPathRequests hash = some request →
    request.requestingInterface ≠ some client

/-! ## The pacer of a client -/

section Pacing

variable (r : Reading) (client : String) (lastSent : String → Option ℚ)

/-- One frame is accepted by the pacer of its client, and by no other. -/
theorem pacerOf_paceLocalClient (raw : Bytes) (acc : TransportState × List (String × Bytes))
    (name : String) :
    let result := if name = client then
        (pacerOf acc.1 lastSent client).accept localClientAnnouncePace paceTolerance r.now raw
      else (pacerOf acc.1 lastSent client, [])
    pacerOf (paceLocalClient r raw acc name).1 lastSent client = result.1 ∧
      framesFor client (paceLocalClient r raw acc name).2 =
        framesFor client acc.2 ++ result.2 := by
  obtain ⟨s, sent⟩ := acc
  unfold paceLocalClient
  by_cases hname : name = client
  · subst hname
    dsimp only
    rw [if_pos rfl]
    unfold Pacer.accept
    by_cases honce : max r.now ((s.clientAnnouncePacing name).getD
        (r.now - localClientAnnouncePace) + localClientAnnouncePace) ≤ r.now + 1 / 1000
    · have honce' : (pacerOf s lastSent name).AtOnce localClientAnnouncePace paceTolerance r.now :=
        honce
      rw [if_pos honce, if_pos honce']
      refine ⟨?_, by simp [framesFor]⟩
      simp only [pacerOf, Function.update_self]
      rfl
    · have honce' : ¬ (pacerOf s lastSent name).AtOnce localClientAnnouncePace paceTolerance
          r.now := honce
      rw [if_neg honce, if_neg honce']
      refine ⟨?_, by simp⟩
      simp only [pacerOf, Function.update_self, queuedFor, List.filter_append, List.map_append]
      simp
      rfl
  · dsimp only
    rw [if_neg hname]
    split
    · refine ⟨?_, by simp [framesFor, hname]⟩
      simp [pacerOf, Function.update_of_ne (Ne.symm hname)]
    · refine ⟨?_, by simp⟩
      simp [pacerOf, queuedFor, Function.update_of_ne (Ne.symm hname), hname]

/-- The frames of a client are accepted by its pacer, all at the time of the call. -/
theorem pacerOf_foldl (accepted : List (String × Bytes))
    (acc : TransportState × List (String × Bytes)) :
    let result := (pacerOf acc.1 lastSent client).acceptAll localClientAnnouncePace paceTolerance
      r.now (framesFor client accepted)
    let acc' := accepted.foldl (fun acc frame => paceLocalClient r frame.2 acc frame.1) acc
    pacerOf acc'.1 lastSent client = result.1 ∧
      framesFor client acc'.2 = framesFor client acc.2 ++ result.2 := by
  induction accepted generalizing acc with
  | nil => exact ⟨rfl, (List.append_nil _).symm⟩
  | cons frame accepted ih =>
      obtain ⟨hpacer, hframes⟩ :=
        pacerOf_paceLocalClient r client lastSent frame.2 acc frame.1
      obtain ⟨hpacer', hframes'⟩ := ih (paceLocalClient r frame.2 acc frame.1)
      dsimp only at hpacer hframes hpacer' hframes' ⊢
      rw [List.foldl_cons, hpacer', hframes', hpacer, hframes]
      by_cases hname : frame.1 = client
      · have hfor : framesFor client (frame :: accepted) = frame.2 :: framesFor client accepted := by
          simp [framesFor, hname]
        rw [hfor, if_pos hname, List.append_assoc]
        exact ⟨rfl, rfl⟩
      · have hfor : framesFor client (frame :: accepted) = framesFor client accepted := by
          simp [framesFor, hname]
        rw [hfor, if_neg hname, List.append_nil]
        exact ⟨rfl, rfl⟩

theorem pacerOf_paceAll (s : TransportState) (accepted : List (String × Bytes)) :
    let result := (pacerOf s lastSent client).acceptAll localClientAnnouncePace paceTolerance
      r.now (framesFor client accepted)
    pacerOf (paceAll s r accepted).1 lastSent client = result.1 ∧
      framesFor client (paceAll s r accepted).2 = result.2 :=
  pacerOf_foldl r client lastSent accepted (s, [])

end Pacing

/-! ## The drain of the queue -/

section Drain

variable {client : String} {lastSent : String → Option ℚ} {now : ℚ}

theorem queuedFor_cons_self {entry : ℚ × String × Bytes} (h : entry.2.1 = client)
    (pending : List (ℚ × String × Bytes)) :
    queuedFor client (entry :: pending) = entry :: queuedFor client pending := by
  simp [queuedFor, h]

theorem queuedFor_cons_of_ne {entry : ℚ × String × Bytes} (h : entry.2.1 ≠ client)
    (pending : List (ℚ × String × Bytes)) :
    queuedFor client (entry :: pending) = queuedFor client pending := by
  simp [queuedFor, h]

/-- Sorting the queue keeps the order of a client that is sorted already. -/
theorem queuedFor_mergeSort {pending : List (ℚ × String × Bytes)}
    (h : (queuedFor client pending).Pairwise fun a b => a.1 ≤ b.1) :
    queuedFor client (pending.mergeSort fun a b => a.1 ≤ b.1) = queuedFor client pending := by
  have hsub : (queuedFor client pending).Sublist (pending.mergeSort fun a b => a.1 ≤ b.1) := by
    refine List.sublist_mergeSort ?_ ?_ (h.imp fun hle => by simpa using hle) List.filter_sublist
    · intro a b d hab hbd
      simp only [decide_eq_true_eq] at hab hbd ⊢
      exact hab.trans hbd
    · intro a b
      simpa using le_total a.1 b.1
  have hfilter := hsub.filter fun entry => entry.2.1 == client
  have hself : (queuedFor client pending).filter (fun entry => entry.2.1 == client) =
      queuedFor client pending := by
    simp [queuedFor]
  rw [hself] at hfilter
  have hlength : (queuedFor client pending).length =
      (queuedFor client (pending.mergeSort fun a b => a.1 ≤ b.1)).length :=
    ((List.mergeSort_perm pending _).filter _).length_eq.symm
  exact (hfilter.eq_of_length hlength).symm

/-- At most one frame of a client is due: the first one whose time has come, unless the last
one was too recent. -/
theorem queuedFor_dueAnnounces (seen : List String) (pending : List (ℚ × String × Bytes)) :
    queuedFor client (dueAnnounces lastSent now seen pending) =
      if client ∈ seen ∨ sentTooRecently lastSent now client = true then []
      else ((queuedFor client pending).find? fun entry => !decide (now < entry.1)).toList := by
  induction pending generalizing seen with
  | nil => simp [dueAnnounces, queuedFor]
  | cons entry pending ih =>
      unfold dueAnnounces
      by_cases hname : entry.2.1 = client
      · have hqueued := queuedFor_cons_self hname
        rw [hqueued, hname]
        by_cases hblocked : client ∈ seen ∨ sentTooRecently lastSent now client = true
        · rw [if_pos hblocked, if_pos (by simpa [or_assoc] using .inr hblocked), ih,
            if_pos hblocked]
        · obtain ⟨hseen, hrecent⟩ := not_or.mp hblocked
          rw [if_neg hblocked]
          by_cases hlate : now < entry.1
          · rw [if_pos (by simp [hlate]), ih, if_neg hblocked,
              List.find?_cons_of_neg (by simp [hlate])]
          · rw [if_neg (by simp [hlate, hseen, hrecent]), hqueued, ih, if_pos (by simp),
              List.find?_cons_of_pos (by simp [hlate])]
            rfl
      · have hqueued := queuedFor_cons_of_ne hname
        rw [hqueued]
        split
        · exact ih seen
        · rw [hqueued, ih]
          simp [Ne.symm hname]

/-- A frame that is removed is one of its own client. -/
theorem queuedFor_eraseP (near : ℚ → Bool) (name : String) (pending : List (ℚ × String × Bytes)) :
    queuedFor client (pending.eraseP fun entry => near entry.1 && entry.2.1 == name) =
      if name = client then (queuedFor client pending).eraseP fun entry => near entry.1
      else queuedFor client pending := by
  induction pending with
  | nil => simp [queuedFor]
  | cons entry pending ih =>
      by_cases hentry : entry.2.1 = client
      · have hqueued := queuedFor_cons_self hentry
        by_cases hname : name = client
        · rw [if_pos hname] at ih ⊢
          cases hnear : near entry.1 with
          | true => simp [hnear, hentry, hname, hqueued]
          | false => simp only [List.eraseP_cons, hnear, Bool.false_and, cond_false, hqueued, ih]
        · have hother : (entry.2.1 == name) = false := by simp [hentry, Ne.symm hname]
          rw [if_neg hname] at ih ⊢
          simp only [List.eraseP_cons, hother, Bool.and_false, cond_false, hqueued, ih]
      · have hqueued := queuedFor_cons_of_ne hentry
        cases hremoved : (near entry.1 && entry.2.1 == name) with
        | true =>
            have hname : name ≠ client := by
              rintro rfl
              simp [hentry] at hremoved
            simp only [List.eraseP_cons, hremoved, cond_true, hqueued, if_neg hname]
        | false => simp only [List.eraseP_cons, hremoved, cond_false, hqueued, ih]

theorem queuedFor_removePending (pending : List (ℚ × String × Bytes)) (due : ℚ × String × Bytes) :
    queuedFor client (removePending pending due) =
      if due.2.1 = client then
        (queuedFor client pending).eraseP fun entry => |entry.1 - due.1| < 1 / 1000000000
      else queuedFor client pending :=
  queuedFor_eraseP (fun t => |t - due.1| < 1 / 1000000000) due.2.1 pending

variable (client) in
/-- The queue of a client after the pass. -/
theorem queuedFor_foldl (due pending : List (ℚ × String × Bytes)) :
    queuedFor client (due.foldl removePending pending) =
      (queuedFor client due).foldl
        (fun queue d => queue.eraseP fun entry => |entry.1 - d.1| < 1 / 1000000000)
        (queuedFor client pending) := by
  induction due generalizing pending with
  | nil => rfl
  | cons d due ih =>
      rw [List.foldl_cons, ih, queuedFor_removePending]
      by_cases hname : d.2.1 = client
      · rw [if_pos hname]
        simp [queuedFor, hname]
      · rw [if_neg hname]
        simp [queuedFor, hname]

variable (client lastSent now) in
/-- The last time that the queue of a client was drained. -/
theorem lastSent_foldl (due : List (ℚ × String × Bytes)) :
    (due.foldl (fun (lastSent : String → Option ℚ) entry =>
        Function.update lastSent entry.2.1 (some now)) lastSent) client =
      if (queuedFor client due).isEmpty then lastSent client else some now := by
  induction due generalizing lastSent with
  | nil => rfl
  | cons d due ih =>
      rw [List.foldl_cons, ih]
      by_cases hname : d.2.1 = client
      · rw [queuedFor_cons_self hname, hname, Function.update_self, ite_self]
        rfl
      · rw [queuedFor_cons_of_ne hname, Function.update_of_ne (Ne.symm hname)]

variable (client) in
theorem framesFor_map (due : List (ℚ × String × Bytes)) :
    framesFor client (due.map (·.2)) = (queuedFor client due).map (·.2.2) := by
  unfold framesFor queuedFor
  rw [List.filter_map, List.map_map]
  rfl

variable (lastSent now) in
/-- The frame of a client that a pass sends: the first one that waits, if it is due. -/
theorem queuedFor_due {pending : List (ℚ × String × Bytes)}
    (h : (queuedFor client pending).Pairwise fun a b => a.1 ≤ b.1) :
    queuedFor client (dueAnnounces lastSent now [] (pending.mergeSort fun a b => a.1 ≤ b.1)) =
      match queuedFor client pending with
      | [] => []
      | entry :: _ =>
          if now < entry.1 || sentTooRecently lastSent now client then [] else [entry] := by
  rw [queuedFor_dueAnnounces, queuedFor_mergeSort h]
  simp only [List.not_mem_nil, false_or]
  cases hqueued : queuedFor client pending with
  | nil => simp
  | cons entry rest =>
      rw [hqueued, List.pairwise_cons] at h
      cases hrecent : sentTooRecently lastSent now client with
      | true => simp
      | false =>
          by_cases hlate : now < entry.1
          · have hnone : rest.find? (fun e => !decide (now < e.1)) = none := by
              rw [List.find?_eq_none]
              intro e he
              simpa using hlate.trans_le (h.1 e he)
            simp [hlate, hnone]
          · simp [hlate]

variable (now) in
/-- A pass drains the pacer of each client whose queue is in order. -/
theorem pacerOf_drainLocalAnnounces (n : Instance)
    (h : (queuedFor client n.pendingLocalAnnounces).Pairwise fun a b => a.1 ≤ b.1) :
    let result := (pacerOf n.toTransportState n.clientAnnounceLastSent client).drain
      localClientAnnouncePace now
    pacerOf (drainLocalAnnounces n now).1.toTransportState
        (drainLocalAnnounces n now).1.clientAnnounceLastSent client = result.1 ∧
      framesFor client (drainLocalAnnounces n now).2 = result.2 := by
  let sorted := n.pendingLocalAnnounces.mergeSort fun a b => a.1 ≤ b.1
  let due := dueAnnounces n.clientAnnounceLastSent now [] sorted
  have hdue : queuedFor client due = _ := queuedFor_due n.clientAnnounceLastSent now h
  have hpending := queuedFor_foldl client due sorted
  have hlast := lastSent_foldl client n.clientAnnounceLastSent now due
  have hframes := framesFor_map client due
  rw [queuedFor_mergeSort h] at hpending
  have hafter : pacerOf (drainLocalAnnounces n now).1.toTransportState
        (drainLocalAnnounces n now).1.clientAnnounceLastSent client =
      { scheduled := n.clientAnnouncePacing client
        pending := (queuedFor client (due.foldl removePending sorted)).map
          fun entry => (entry.1, entry.2.2)
        lastSent := (due.foldl (fun (lastSent : String → Option ℚ) entry =>
          Function.update lastSent entry.2.1 (some now)) n.clientAnnounceLastSent) client } := rfl
  have hsent : framesFor client (drainLocalAnnounces n now).2 =
      framesFor client (due.map (·.2)) := rfl
  rw [hafter, hsent, hpending, hlast, hframes]
  cases hqueue : queuedFor client n.pendingLocalAnnounces with
  | nil =>
      rw [hqueue] at hdue
      rw [hdue]
      unfold Pacer.drain pacerOf
      rw [hqueue]
      exact ⟨rfl, rfl⟩
  | cons entry rest =>
      rw [hqueue] at hdue
      have hdrain := Pacer.drain_of_pending localClientAnnouncePace now
        (p := pacerOf n.toTransportState n.clientAnnounceLastSent client) (t := entry.1)
        (b := entry.2.2) (by rw [pacerOf, hqueue]; rfl)
      have hrecent : (pacerOf n.toTransportState n.clientAnnounceLastSent client).recent
          localClientAnnouncePace now = sentTooRecently n.clientAnnounceLastSent now client := rfl
      rw [hdrain, hrecent]
      cases hblocked : decide (now < entry.1) ||
          sentTooRecently n.clientAnnounceLastSent now client with
      | true =>
          have hnone : queuedFor client due = [] := hdue.trans (if_pos hblocked)
          rw [hnone, if_pos rfl, pacerOf, hqueue]
          exact ⟨rfl, rfl⟩
      | false =>
          have hone : queuedFor client due = [entry] :=
            hdue.trans (if_neg (by rw [hblocked]; exact Bool.false_ne_true))
          rw [hone, if_neg Bool.false_ne_true]
          simp [pacerOf]

end Drain

/-! ## One call -/

/-- What a call makes of the pacer of a client: the pacer accepts the frames of the client. -/
structure Paces (client : String) (lastSent : String → Option ℚ) (r : Reading)
    (s : TransportState) (accepted : List (String × Bytes)) (s' : TransportState)
    (sent : List (String × Bytes)) : Prop where
  pacer : pacerOf s' lastSent client = ((pacerOf s lastSent client).acceptAll
    localClientAnnouncePace paceTolerance r.now (framesFor client accepted)).1
  sent : framesFor client sent = ((pacerOf s lastSent client).acceptAll
    localClientAnnouncePace paceTolerance r.now (framesFor client accepted)).2
  isLocal : IsLocal client s'

section Calls

variable {c : Crypto} {client : String} {lastSent : String → Option ℚ} {r : Reading}
  {s s' : TransportState} {n : Instance} {call : Call} {p : Wire.Packet} {destinationHash : Bytes}

/-- A call that hands nothing to the pacing. -/
theorem paces_nothing (hlocal : IsLocal client s')
    (hpacing : s'.clientAnnouncePacing = s.clientAnnouncePacing)
    (hpending : s'.pendingLocalAnnounces = s.pendingLocalAnnounces) :
    Paces client lastSent r s [] s' [] := by
  refine ⟨?_, rfl, hlocal⟩
  unfold pacerOf
  rw [hpacing, hpending]
  rfl

/-- One part of a call after the other. -/
theorem Paces.trans {s'' : TransportState} {accepted accepted' sent sent' : List (String × Bytes)}
    (h : Paces client lastSent r s accepted s' sent)
    (h' : Paces client lastSent r s' accepted' s'' sent') :
    Paces client lastSent r s (accepted ++ accepted') s'' (sent ++ sent') := by
  refine ⟨?_, ?_, h'.isLocal⟩
  · rw [framesFor_append, Pacer.acceptAll_append, ← h.pacer]
    exact h'.pacer
  · rw [framesFor_append, framesFor_append, Pacer.acceptAll_append, ← h.pacer, ← h.sent]
    exact congrArg _ h'.sent

theorem paceAll_eq (s : TransportState) (r : Reading) (accepted : List (String × Bytes)) :
    ∃ pacing pending, (paceAll s r accepted).1 =
      { s with clientAnnouncePacing := pacing, pendingLocalAnnounces := pending } := by
  have hfold : ∀ acc : TransportState × List (String × Bytes), ∃ pacing pending,
      (accepted.foldl (fun acc frame => paceLocalClient r frame.2 acc frame.1) acc).1 =
        { acc.1 with clientAnnouncePacing := pacing, pendingLocalAnnounces := pending } := by
    induction accepted with
    | nil => exact fun _ => ⟨_, _, rfl⟩
    | cons frame accepted ih =>
        intro acc
        obtain ⟨pacing, pending, heq⟩ := ih (paceLocalClient r frame.2 acc frame.1)
        refine ⟨pacing, pending, heq.trans ?_⟩
        unfold paceLocalClient
        dsimp only
        split <;> rfl
  exact hfold (s, [])

variable (lastSent r) in
theorem paces_paceAll (hlocal : IsLocal client s) (accepted : List (String × Bytes)) :
    Paces client lastSent r s accepted (paceAll s r accepted).1 (paceAll s r accepted).2 := by
  obtain ⟨hpacer, hsent⟩ := pacerOf_paceAll r client lastSent s accepted
  refine ⟨hpacer, hsent, ?_⟩
  obtain ⟨_, _, heq⟩ := paceAll_eq s r accepted
  rw [heq]
  exact ⟨hlocal.registered, hlocal.undiscovered⟩

theorem forwardToLocalClients_eq_paceAll (s : TransportState) (r : Reading) (p : Wire.Packet)
    (destinationHash : Bytes) :
    forwardToLocalClients s r p destinationHash = paceAll s r (clientFrames s p destinationHash) := by
  unfold forwardToLocalClients paceAll clientFrames
  rw [List.foldl_map]

variable (p destinationHash) in
/-- The answer to a discovery request is not for a local client. -/
theorem isLocal_answerDiscovery (hlocal : IsLocal client s) :
    IsLocal client (answerDiscovery s p destinationHash).1 ∧
      framesFor client (answerDiscovery s p destinationHash).2 = [] := by
  unfold answerDiscovery
  split
  swap
  · exact ⟨hlocal, rfl⟩
  split
  · exact ⟨hlocal, rfl⟩
  rename_i request hrequest
  refine ⟨⟨hlocal.registered, ?_⟩, ?_⟩
  · intro hash other hother
    by_cases heq : hash = destinationHash
    · subst heq
      simp [Table.remove] at hother
    · refine hlocal.undiscovered hash other ?_
      rw [← hother]
      exact (Function.update_of_ne heq _ _).symm
  · have hne := hlocal.undiscovered destinationHash request hrequest
    cases hname : request.requestingInterface with
    | none => rfl
    | some name =>
        rw [hname] at hne
        have hclient : name ≠ client := fun heq => hne (congrArg some heq)
        simp [framesFor, hclient]

variable (lastSent r p) in
/-- A valid announce is handed to the pacing of the local clients. -/
theorem paces_processAnnounce (hlocal : IsLocal client s) :
    Paces client lastSent r s
      ((p.destinationHash.filter fun hash => !s.destinations.contains hash).elim []
        (clientFrames s p))
      (processAnnounce s r p).1 (processAnnounce s r p).2 := by
  unfold processAnnounce
  cases hdest : p.destinationHash with
  | none => exact paces_nothing hlocal rfl rfl
  | some hash =>
      obtain ⟨table, hheard⟩ := heardRebroadcast_eq s r p hash
      dsimp only
      rw [hheard]
      cases hown : s.destinations.contains hash with
      | true =>
          rw [if_pos rfl, Option.filter_some, if_neg (by simpa using hown)]
          exact paces_nothing ⟨hlocal.registered, hlocal.undiscovered⟩ rfl rfl
      | false =>
          rw [if_neg Bool.false_ne_true, Option.filter_some, if_pos (by simpa using hown)]
          have hadmitted : IsLocal client (admitAnnounce { s with announceTable := table } r p hash) :=
            ⟨hlocal.registered, hlocal.undiscovered⟩
          obtain ⟨hanswered, hanswers⟩ := isLocal_answerDiscovery p hash hadmitted
          obtain ⟨requests, hanswer⟩ :=
            answerDiscovery_eq (admitAnnounce { s with announceTable := table } r p hash) p hash
          rw [hanswer] at hanswered ⊢
          obtain ⟨table', hqueue⟩ := queueRebroadcast_eq
            { admitAnnounce { s with announceTable := table } r p hash with
              discoveryPathRequests := requests } r p hash
            (isNewEmission { s with announceTable := table } r p hash)
          rw [hqueue, forwardToLocalClients_eq_paceAll]
          have hpaces := paces_paceAll lastSent r
            (s := { admitAnnounce { s with announceTable := table } r p hash with
              discoveryPathRequests := requests, announceTable := table' })
            ⟨hanswered.registered, hanswered.undiscovered⟩ (clientFrames s p hash)
          refine ⟨hpaces.pacer, ?_, hpaces.isLocal⟩
          rw [framesFor_append, hanswers, List.nil_append]
          exact hpaces.sent

/-! ### Path requests -/

theorem noteLocalRequest_eq (n : Instance) (r : Reading) (destinationHash : Bytes)
    (attachedInterface : Option String) :
    ∃ requests, noteLocalRequest n r destinationHash attachedInterface =
      { n with pendingLocalPathRequests := requests } := by
  unfold noteLocalRequest
  dsimp only
  split
  · split <;> exact ⟨_, rfl⟩
  · exact ⟨_, rfl⟩

theorem requestOnEach_eq (r : Reading) (destinationHash : Bytes) (tag : Option Bytes)
    (n : Instance) (names : List String) :
    ∃ requests, (requestOnEach r destinationHash tag n names).1 =
      { n with pathRequests := requests } := by
  induction names generalizing n with
  | nil => exact ⟨_, rfl⟩
  | cons name names ih =>
      obtain ⟨requests, heq⟩ := ih (requestPath n r
        { destinationHash := destinationHash, tag := tag, attachedInterface := some name }).1
      exact ⟨requests, heq⟩

theorem discoverOnEach_eq (r : Reading) (destinationHash : Bytes) (tag : Option Bytes)
    (n : Instance) (names : List String) :
    ∃ requests caps, (discoverOnEach r destinationHash tag n names).1 =
      { n with pathRequests := requests, announceCaps := caps } := by
  induction names generalizing n with
  | nil => exact ⟨_, _, rfl⟩
  | cons name names ih =>
      obtain ⟨requests, caps, heq⟩ := ih (requestPathRecursive n r destinationHash name tag).1
      refine ⟨requests, caps, heq.trans ?_⟩
      unfold requestPathRecursive
      dsimp only
      split
      · rfl
      · split <;> rfl

section

variable (hlocal : IsLocal client n.toTransportState)

include hlocal

/-- A request for a path that is not known is answered to nobody. -/
theorem paces_requestUnknown {isFromLocalClient : Bool} {attachedInterface : Option String}
    (hfrom : isFromLocalClient = false → attachedInterface ≠ some client) (randomHash : Bytes)
    (searches : Bool) (tag : Option Bytes) :
    Paces client lastSent r n.toTransportState []
      (requestUnknown n r randomHash destinationHash isFromLocalClient searches attachedInterface
        tag).1.toTransportState
      (requestUnknown n r randomHash destinationHash isFromLocalClient searches attachedInterface
        tag).2.frames := by
  unfold requestUnknown
  split
  · obtain ⟨_, heq⟩ := requestOnEach_eq r destinationHash (some randomHash) n
      (otherInterfaces n attachedInterface)
    dsimp only
    rw [heq]
    exact paces_nothing hlocal rfl rfl
  rename_i hremote
  have hne := hfrom (by simpa using hremote)
  split
  · split
    · exact paces_nothing hlocal rfl rfl
    dsimp only
    have hlisted : IsLocal client { n.toTransportState with
        discoveryPathRequests := n.discoveryPathRequests.insert destinationHash
          { destinationHash := destinationHash, timeout := r.now + pathRequestTimeout
            requestingInterface := attachedInterface } } := by
      refine ⟨hlocal.registered, ?_⟩
      intro hash request hrequest
      by_cases heq : hash = destinationHash
      · subst heq
        obtain rfl := Option.some.inj ((Table.insert_self _ _ _).symm.trans hrequest)
        exact hne
      · exact hlocal.undiscovered hash request ((Table.insert_of_ne _ heq _).symm.trans hrequest)
    obtain ⟨_, _, heq⟩ := discoverOnEach_eq r destinationHash tag { n with
        discoveryPathRequests := n.discoveryPathRequests.insert destinationHash
          { destinationHash := destinationHash, timeout := r.now + pathRequestTimeout
            requestingInterface := attachedInterface } } (otherInterfaces n attachedInterface)
    change Paces client lastSent r n.toTransportState [] (discoverOnEach r destinationHash tag _
      (otherInterfaces n attachedInterface)).1.toTransportState []
    rw [heq]
    exact paces_nothing hlisted rfl rfl
  · obtain ⟨_, heq⟩ := requestOnEach_eq r destinationHash none n
      (n.localClientInterfaces.map (·.name))
    dsimp only
    rw [heq]
    exact paces_nothing hlocal rfl rfl

/-- The answer from the cache is handed to the pacing, when a local client asks. -/
theorem paces_answerFromCache (best : PathEntry) (isFromLocalClient : Bool)
    (attachedInterface : Option String) (requestorTransportId : Option Bytes) :
    Paces client lastSent r n.toTransportState
      (if !isFromLocalClient || withholds n best attachedInterface requestorTransportId then []
        else
          match cachedAnnounce c n best.packetHash, attachedInterface with
          | some packet, some name =>
              [(name, announceRaw n.toTransportState { packet with hops := best.hops }
                destinationHash pathResponse)]
          | _, _ => [])
      (answerFromCache c n r destinationHash best isFromLocalClient attachedInterface
        requestorTransportId).1.toTransportState
      (answerFromCache c n r destinationHash best isFromLocalClient attachedInterface
        requestorTransportId).2.frames := by
  unfold answerFromCache
  cases hwithholds : withholds n best attachedInterface requestorTransportId with
  | true =>
      rw [if_pos rfl, if_pos (by simp)]
      exact paces_nothing hlocal rfl rfl
  | false =>
      rw [if_neg Bool.false_ne_true]
      cases hcached : cachedAnnounce c n best.packetHash with
      | none =>
          dsimp only
          rw [ite_self]
          exact paces_nothing hlocal rfl rfl
      | some packet =>
          cases attachedInterface with
          | none =>
              dsimp only
              rw [ite_self]
              exact paces_nothing ⟨hlocal.registered, hlocal.undiscovered⟩ rfl rfl
          | some name =>
              cases isFromLocalClient with
              | false => exact paces_nothing ⟨hlocal.registered, hlocal.undiscovered⟩ rfl rfl
              | true =>
                  have hpaces := paces_paceAll lastSent r
                    (s := { n.toTransportState with
                      announceTable := n.announceTable.insert destinationHash
                        (answerEntry n r best { packet with hops := best.hops } true (some name)) })
                    ⟨hlocal.registered, hlocal.undiscovered⟩
                    [(name, announceRaw n.toTransportState { packet with hops := best.hops }
                      destinationHash pathResponse)]
                  exact ⟨hpaces.pacer, hpaces.sent, hpaces.isLocal⟩

/-- A request that does not come from a local client is not answered to it. -/
theorem paces_pathRequest {isFromLocalClient : Bool} {attachedInterface : Option String}
    (hfrom : isFromLocalClient = false → attachedInterface ≠ some client)
    (requestorTransportId tag : Option Bytes) :
    Paces client lastSent call.reading n.toTransportState
      (responseFrames c n call destinationHash isFromLocalClient attachedInterface
        requestorTransportId)
      (pathRequest c n call destinationHash isFromLocalClient attachedInterface
        requestorTransportId tag).1.toTransportState
      (pathRequest c n call destinationHash isFromLocalClient attachedInterface
        requestorTransportId tag).2.frames := by
  obtain ⟨requests, hnoted⟩ : ∃ requests, (if n.localClientInterfaces.isEmpty then n
      else noteLocalRequest n call.reading destinationHash attachedInterface) =
        { n with pendingLocalPathRequests := requests } := by
    split
    · exact ⟨_, rfl⟩
    · exact noteLocalRequest_eq _ _ _ _
  unfold pathRequest responseFrames
  dsimp only
  rw [hnoted]
  dsimp only
  cases hown : n.destinations.contains destinationHash with
  | true =>
      rw [if_pos rfl, if_pos (by simp)]
      exact paces_nothing hlocal rfl rfl
  | false =>
      rw [if_neg Bool.false_ne_true, Bool.or_false]
      cases hclient : isFromLocalClient with
      | true =>
          rw [Bool.or_true, if_pos rfl, if_neg (by simp)]
          cases hbest : selectPath n.pathTable n.interfaces destinationHash call.reading.now with
          | none =>
              exact paces_requestUnknown (n := { n with pendingLocalPathRequests := requests })
                hlocal (fun h => by cases h) _ _ _
          | some best =>
              exact paces_answerFromCache (n := { n with pendingLocalPathRequests := requests })
                hlocal best true _ _
      | false =>
          rw [if_pos (by simp)]
          split
          · exact paces_answerFromCache (n := { n with pendingLocalPathRequests := requests })
              hlocal _ false _ _
          · exact paces_requestUnknown (n := { n with pendingLocalPathRequests := requests })
              hlocal (fun _ => hfrom hclient) _ _ _

/-- The handler hands its path response to the pacing. -/
theorem paces_handler :
    Paces client lastSent call.reading n.toTransportState (answeredFrames c n call p)
      (pathRequestHandler c n call p).1.toTransportState
      (pathRequestHandler c n call p).2.frames := by
  rw [pathRequestHandler_eq]
  unfold answeredFrames
  cases acceptedRequest n p with
  | none => exact paces_nothing hlocal rfl rfl
  | some key =>
      refine paces_pathRequest (n := recordTag n key.unique) hlocal ?_ _ _
      intro hremote hname
      have hregistered := hlocal.registered
      obtain ⟨i, hi, hiname⟩ := List.mem_map.mp hregistered
      have hclient : fromLocalClient n.toTransportState p = true := by
        unfold fromLocalClient
        rw [hname, Option.any_some, List.any_eq_true]
        exact ⟨i, hi, beq_iff_eq.mpr hiname⟩
      rw [hremote] at hclient
      cases hclient

end

/-! ### Frames -/

theorem clientNames_of_noted (h : Noted s s') :
    s'.localClientInterfaces.map (·.name) = s.localClientInterfaces.map (·.name) := by
  obtain ⟨interfaces, clients, rates, rfl, -, hclients⟩ := h
  have hnames := congrArg (List.map (·.name)) hclients
  rw [List.map_map, List.map_map] at hnames
  exact hnames

theorem IsLocal.of_noted (hlocal : IsLocal client s) (h : Noted s s') : IsLocal client s' := by
  have hnames := clientNames_of_noted h
  obtain ⟨_, _, _, rfl, -, -⟩ := h
  exact ⟨hnames ▸ hlocal.registered, hlocal.undiscovered⟩

theorem IsLocal.of_forwarded (hlocal : IsLocal client s) (h : Forwarded s s') :
    IsLocal client s' := by
  obtain ⟨_, _, _, _, rfl, -, -⟩ := h
  exact ⟨hlocal.registered, hlocal.undiscovered⟩

/-- The frames for the clients depend on their names alone. -/
theorem clientFrames_of_noted (h : Noted s s') (p : Wire.Packet) (destinationHash : Bytes) :
    clientFrames s' p destinationHash = clientFrames s p destinationHash := by
  have hnames := clientNames_of_noted h
  have hidentity : s'.identityHash = s.identityHash := by
    obtain ⟨_, _, _, rfl, -, -⟩ := h
    rfl
  unfold clientFrames announceRaw
  rw [hnames, hidentity]

theorem receive_of_processed {frame : Incoming} {effects : Effects}
    (h : (inbound c n.toTransportState frame.call.reading frame.raw
      frame.receivingInterface).1 = .processed effects) :
    receive c n frame.call frame.raw frame.receivingInterface =
      (n.taken c frame, .processed effects, .none) := by
  unfold receive
  dsimp only
  rw [h]
  rfl

/-- A frame that is not processed hands nothing of its own to the pacing. -/
theorem frames_of_quiet {frame : Incoming}
    (h : (inbound c n.toTransportState frame.call.reading frame.raw
      frame.receivingInterface).1.isQuiet = true) :
    forwardedFrames c n frame = [] ∧ announcedFrames c n frame = [] := by
  have houtcome := (receive_cases c n frame.call frame.raw frame.receivingInterface).1
  unfold forwardedFrames announcedFrames
  rw [houtcome]
  dsimp only
  constructor
  · split
    · rename_i hprocessed
      rw [hprocessed] at h
      cases h
    · rfl
  · split
    · rename_i hprocessed
      rw [hprocessed] at h
      cases h
    · rfl

variable (client lastSent) in
theorem pacerOf_of_noted (h : Noted s s') :
    pacerOf s' lastSent client = pacerOf s lastSent client := by
  obtain ⟨_, _, _, rfl, -, -⟩ := h
  rfl

variable (c lastSent r p) in
/-- An announce that is not valid, or is of a destination of this node, is not handed on. -/
theorem paces_inboundAnnounce (hlocal : IsLocal client s) :
    Paces client lastSent r s
      (if announceShouldAdd c (admitted s r p) (hopped p) then
        (p.destinationHash.filter fun hash => !s.destinations.contains hash).elim []
          (clientFrames s (hopped p))
      else [])
      (inboundAnnounce c (admitted s r p) r (hopped p)).2
      (inboundAnnounce c (admitted s r p) r (hopped p)).1.outbound := by
  have hnoted := noted_admitted (s := s) (r := r) (p := p)
  have hlocal' := hlocal.of_noted hnoted
  have hpacer := pacerOf_of_noted client lastSent hnoted
  have hclients := clientFrames_of_noted hnoted (hopped p)
  have hdestinations : (admitted s r p).destinations = s.destinations := by
    obtain ⟨_, _, _, heq, -, -⟩ := hnoted
    rw [heq]
  obtain ⟨validated, known, ratchets, hashlist, -, hcases⟩ :=
    inboundAnnounce_cases c (admitted s r p) r (hopped p)
  obtain ⟨hadd, hstate, hout⟩ | ⟨hadd, hstate, hout⟩ := hcases
  · have hpaces := paces_processAnnounce lastSent r (hopped p)
      (s := { admitted s r p with
        validatedAnnounceHashes := validated, knownDestinations := known
        knownRatchets := ratchets, packetHashlist := hashlist })
      ⟨hlocal'.registered, hlocal'.undiscovered⟩
    rw [hstate, hout, hadd, if_pos rfl, ← hdestinations, ← funext hclients]
    refine ⟨?_, ?_, hpaces.isLocal⟩
    · rw [← hpacer]
      exact hpaces.pacer
    · rw [← hpacer]
      exact hpaces.sent
  · rw [hstate, hout, hadd, if_neg Bool.false_ne_true]
    refine ⟨?_, rfl, ⟨hlocal'.registered, hlocal'.undiscovered⟩⟩
    exact hpacer

variable (c r p) in
theorem paces_inboundPacket (hlocal : IsLocal client s) :
    Paces client lastSent r s [] (inboundPacket c (admitted s r p) r (hopped p)).2 [] := by
  have hnoted := noted_admitted (s := s) (r := r) (p := p)
  have hforwarded := Forwarded.inboundPacket (c := c) (s := admitted s r p) (r := r)
    (p := hopped p)
  refine ⟨?_, rfl, (hlocal.of_noted hnoted).of_forwarded hforwarded⟩
  have hpacer := pacerOf_of_noted client lastSent hnoted
  obtain ⟨_, _, _, _, heq, -, -⟩ := hforwarded
  rw [heq]
  exact hpacer

variable (c lastSent) in
/-- What `inbound` itself hands to the pacing. -/
theorem paces_taken (hlocal : IsLocal client n.toTransportState) (frame : Incoming) :
    Paces client lastSent frame.call.reading n.toTransportState (forwardedFrames c n frame)
      (n.taken c frame).toTransportState (announcedFrames c n frame) := by
  obtain ⟨hquiet, hnoted⟩ | ⟨p, hread, ⟨htype, heq⟩ | ⟨htype, heq⟩⟩ :=
    inbound_cases c n.toTransportState frame.call.reading frame.raw frame.receivingInterface
  · obtain ⟨hforwarded, hannounced⟩ := frames_of_quiet hquiet
    rw [hforwarded, hannounced]
    exact ⟨pacerOf_of_noted client lastSent hnoted, rfl, hlocal.of_noted hnoted⟩
  · have hprocessed := congrArg Prod.fst heq
    have htaken : (n.taken c frame).toTransportState = _ := congrArg Prod.snd heq
    have hpaces := paces_inboundAnnounce c lastSent frame.call.reading p hlocal
    have hannounced : announcedFrames c n frame = (inboundAnnounce c (admitted n.toTransportState
        frame.call.reading p) frame.call.reading (hopped p)).1.outbound := by
      unfold announcedFrames
      rw [receive_of_processed hprocessed, hread]
      exact if_pos htype
    have hforwarded : forwardedFrames c n frame =
        if announceShouldAdd c (admitted n.toTransportState frame.call.reading p) (hopped p) then
          (p.destinationHash.filter fun hash => !n.destinations.contains hash).elim []
            (clientFrames n.toTransportState (hopped p))
        else [] := by
      unfold forwardedFrames
      dsimp only
      rw [hprocessed, hread]
      simp only [htype, true_and]
    rw [hannounced, hforwarded, htaken]
    exact hpaces
  · have hprocessed := congrArg Prod.fst heq
    have htaken : (n.taken c frame).toTransportState = _ := congrArg Prod.snd heq
    have hannounced : announcedFrames c n frame = [] := by
      unfold announcedFrames
      rw [receive_of_processed hprocessed, hread]
      exact if_neg htype
    have hforwarded : forwardedFrames c n frame = [] := by
      unfold forwardedFrames
      dsimp only
      rw [hprocessed, hread]
      exact if_neg fun h => htype h.1
    rw [hannounced, hforwarded, htaken]
    exact paces_inboundPacket c frame.call.reading p hlocal

/-- What the handlers hand to the pacing. -/
theorem paces_answered (frame : Incoming)
    (hlocal : IsLocal client (n.taken c frame).toTransportState) :
    Paces client lastSent frame.call.reading (n.taken c frame).toTransportState
      ((requestPacket c n frame).elim [] (answeredFrames c (n.taken c frame) frame.call))
      (receive c n frame.call frame.raw frame.receivingInterface).1.toTransportState
      (receive c n frame.call frame.raw frame.receivingInterface).2.2.frames := by
  cases hpacket : requestPacket c n frame with
  | some p =>
      rw [receive_of_requestPacket hpacket]
      exact paces_handler hlocal
  | none =>
      unfold receive
      dsimp only
      split
      swap
      · exact paces_nothing hlocal rfl rfl
      rename_i aspects q hcontrol
      split
      · rename_i haspects
        unfold requestPacket at hpacket
        rw [hcontrol] at hpacket
        simp [haspects] at hpacket
      split
      swap
      · exact paces_nothing hlocal rfl rfl
      unfold tunnelSynthesizeHandler
      split
      · exact paces_nothing hlocal rfl rfl
      · rename_i tunnelId interface _
        obtain ⟨_, _, _, _, hstate⟩ := handleTunnel_eq (n.taken c frame).toTransportState
          frame.call.reading tunnelId interface frame.call.tunnelPaths
        change Paces client lastSent frame.call.reading _ []
          (handleTunnel (n.taken c frame).toTransportState frame.call.reading tunnelId interface
            frame.call.tunnelPaths) []
        rw [hstate]
        exact paces_nothing ⟨hlocal.registered, hlocal.undiscovered⟩ rfl rfl

/-- A frame, with its handlers. -/
theorem paces_receive (hlocal : IsLocal client n.toTransportState) (frame : Incoming) :
    Paces client lastSent frame.call.reading n.toTransportState (acceptedFrames c n (.receive frame))
      (receive c n frame.call frame.raw frame.receivingInterface).1.toTransportState
      (dispatchedFrames c n (.receive frame)) := by
  have htaken := paces_taken c lastSent hlocal frame
  exact htaken.trans (paces_answered frame htaken.isLocal)

end Calls

/-! ## Passes -/

section Passes

variable {c : Crypto} {client : String} {n : Instance} {log log' : ClientLog}

theorem keptByStages_isLocal (client : String) (pass : Pass) :
    KeptByStages pass fun n => IsLocal client n.toTransportState := by
  refine .of_queues (fun _ _ h => ⟨h.registered, h.undiscovered⟩) ?_ ?_ ?_
  · intro n requests hash h
    unfold closeLink
    dsimp only
    repeat' split
    all_goals exact ⟨h.registered, h.undiscovered⟩
  · intro n requests task h
    unfold runTask markPathUnresponsive expirePath
    dsimp only
    repeat' split
    all_goals exact ⟨h.registered, h.undiscovered⟩
  · intro n h
    refine ⟨h.registered, ?_⟩
    intro hash request hrequest
    exact h.undiscovered hash request (Option.eq_some_of_filter_eq_some hrequest)

/-- A pass drains the pacer of a client. -/
theorem pacer_jobs (pass : Pass)
    (h : (queuedFor client n.pendingLocalAnnounces).Pairwise fun a b => a.1 ≤ b.1) :
    (jobs n pass).1.pacer client =
        ((n.pacer client).drain localClientAnnouncePace pass.now).1 ∧
      framesFor client (jobs n pass).2.frames =
        ((n.pacer client).drain localClientAnnouncePace pass.now).2 := by
  have hpassed := jobs_passed n pass
  obtain ⟨hpacer, hframes⟩ := pacerOf_drainLocalAnnounces pass.now n h
  rw [hpassed.frames]
  refine ⟨?_, hframes⟩
  refine Eq.trans ?_ hpacer
  unfold Instance.pacer pacerOf
  rw [hpassed.clientAnnouncePacing, hpassed.pendingLocalAnnounces, hpassed.clientAnnounceLastSent]
  rfl

/-- What a run keeps: the pacer of the client and what went through it. -/
structure ClientTracked (client : String) (log : ClientLog) : Prop where
  good : Pacer.Good localClientAnnouncePace (log.node.pacer client) log.accepted log.dispatched
  isLocal : IsLocal client log.node.toTransportState

theorem pace_nonneg : 0 ≤ localClientAnnouncePace := by
  unfold localClientAnnouncePace
  decide +kernel

theorem tolerance_lt_pace : paceTolerance < localClientAnnouncePace := by
  unfold paceTolerance localClientAnnouncePace
  decide +kernel

section

variable (h : ClientTracked client log)

include h

/-- What waits for the client is in order. -/
theorem ClientTracked.sorted :
    (queuedFor client log.node.pendingLocalAnnounces).Pairwise fun a b => a.1 ≤ b.1 := by
  have hspaced := h.good.spaced
  change ((queuedFor client log.node.pendingLocalAnnounces).map fun entry =>
    (entry.1, entry.2.2)).Pairwise _ at hspaced
  rw [List.pairwise_map] at hspaced
  exact hspaced.imp fun hle => (le_add_of_nonneg_right pace_nonneg).trans hle

/-- A call that hands its frames to the pacer keeps what went through it. -/
theorem ClientTracked.call {r : Reading} {n' : Instance}
    {accepted sent : List (String × Bytes)}
    (hpaces : Paces client log.node.clientAnnounceLastSent r log.node.toTransportState accepted
      n'.toTransportState sent)
    (hlast : n'.clientAnnounceLastSent = log.node.clientAnnounceLastSent)
    (hrested : framesFor client accepted ≠ [] →
      (log.node.pacer client).AtOnce localClientAnnouncePace paceTolerance r.now →
      (log.node.pacer client).Rested localClientAnnouncePace r.now) :
    ClientTracked client
      { node := n'
        accepted := log.accepted ++ framesFor client accepted
        dispatched := log.dispatched ++ (framesFor client sent).map (r.now, ·) } := by
  refine ⟨?_, hpaces.isLocal⟩
  have hgood := Pacer.good_acceptAll pace_nonneg tolerance_lt_pace h.good hrested
  have hpacer : n'.pacer client = pacerOf n'.toTransportState log.node.clientAnnounceLastSent
      client := by
    rw [Instance.pacer, hlast]
  rw [hpacer, hpaces.pacer, hpaces.sent]
  exact hgood

/-- A pass sends the first frame that waits, if it is due. -/
theorem ClientTracked.pass {pass : Pass} (hpass : 0 < pass.now) :
    ClientTracked client
      { node := (jobs log.node pass).1
        accepted := log.accepted
        dispatched := log.dispatched ++
          (framesFor client (jobs log.node pass).2.frames).map (pass.now, ·) } := by
  obtain ⟨hpacer, hframes⟩ := pacer_jobs pass h.sorted
  refine ⟨?_, (keptByStages_isLocal client pass).jobs h.isLocal⟩
  rw [hpacer, hframes]
  exact Pacer.good_drain pace_nonneg hpass h.good

end

theorem lastSent_handler (call : Call) (p : Wire.Packet) :
    (pathRequestHandler c n call p).1.clientAnnounceLastSent = n.clientAnnounceLastSent := by
  obtain ⟨_, heq⟩ := pathRequestHandler_state c n call p
  rw [heq]

theorem lastSent_receive (frame : Incoming) :
    (receive c n frame.call frame.raw frame.receivingInterface).1.clientAnnounceLastSent =
      n.clientAnnounceLastSent := by
  cases hpacket : requestPacket c n frame with
  | none =>
      obtain ⟨s, heq⟩ := receive_of_not_requestPacket hpacket
      rw [heq]
  | some p =>
      rw [receive_of_requestPacket hpacket]
      exact lastSent_handler frame.call p

/-- One event keeps what went through the pacer. -/
theorem clientTracked_step (log : ClientLog) (event : RequestEvent) (log' : ClientLog)
    (h : ClientTracked client log) (hevent : RestedAtOnce c client log event)
    (hstep : clientStep c client log event = some log') : ClientTracked client log' := by
  obtain rfl := Option.some.inj hstep
  cases event with
  | receive frame =>
      exact h.call (paces_receive h.isLocal frame) (lastSent_receive frame) hevent
  | handle call p => exact h.call (paces_handler h.isLocal) (lastSent_handler call p) hevent
  | jobs pass =>
      have hpassed := h.pass hevent
      rw [← List.append_nil log.accepted] at hpassed
      exact hpassed

/-! ## Runs -/

/-- Passes drain the pacer one after the other. -/
theorem exec_passes (c : Crypto) (h : ClientTracked client log) {passes : List Pass}
    (hpasses : ∀ pass ∈ passes, 0 < pass.now) :
    ∃ log', Runs.exec (clientStep c client) log (passes.map .jobs) = some log' ∧
      log'.accepted = log.accepted ∧
      log'.dispatched = log.dispatched ++
        ((log.node.pacer client).drainAll localClientAnnouncePace (passes.map Pass.now)).2 := by
  induction passes generalizing log with
  | nil => exact ⟨log, rfl, rfl, (List.append_nil _).symm⟩
  | cons pass passes ih =>
      obtain ⟨hpacer, hframes⟩ := pacer_jobs pass h.sorted
      have hnext := h.pass (hpasses pass List.mem_cons_self)
      obtain ⟨log', hexec, haccepted, hdispatched⟩ :=
        ih hnext fun pass hmem => hpasses pass (List.mem_cons_of_mem _ hmem)
      refine ⟨log', ?_, haccepted, ?_⟩
      · rw [List.map_cons, Runs.exec_cons_eq_some]
        refine ⟨_, rfl, ?_⟩
        change Runs.exec (clientStep c client)
          { node := _, accepted := log.accepted ++ [], dispatched := _ } _ = _
        rw [List.append_nil]
        exact hexec
      · rw [hdispatched]
        dsimp only
        rw [hpacer, hframes, List.append_assoc]
        rfl

/-- A tracked client is paced. -/
theorem ClientTracked.paced (c : Crypto) (h : ClientTracked client log) :
    ClientPaced c client log where
  apart := h.good.apart
  order := h.good.order
  drained := by
    intro passes hdrains
    obtain ⟨log', hexec, haccepted, hdispatched⟩ := exec_passes c h hdrains.positive
    refine ⟨log', hexec, haccepted, ?_⟩
    have hdue : ∀ now ∈ passes.map Pass.now, ∀ e ∈ (log.node.pacer client).pending, e.1 ≤ now := by
      intro now hnow e he
      obtain ⟨pass, hpass, rfl⟩ := List.mem_map.mp hnow
      exact hdrains.due pass hpass e he
    have hlast : ∀ now ∈ passes.map Pass.now, ∀ t, (log.node.pacer client).lastSent = some t →
        t + localClientAnnouncePace ≤ now := by
      intro now hnow t ht
      obtain ⟨pass, hpass, rfl⟩ := List.mem_map.mp hnow
      exact hdrains.last pass hpass t ht
    obtain ⟨-, hsent⟩ := Pacer.drainAll_pending (List.pairwise_map.mpr hdrains.apart) hdue hlast
      (by simpa using hdrains.enough)
    rw [hdispatched, List.map_append, hsent, h.good.order]

/-- A local client is paced in every run in which a frame that would go to it at once finds
the pacer rested. -/
theorem paced_run (c : Crypto) (client : String) (n : Instance)
    (hlocal : IsLocal client n.toTransportState) (hidle : n.pacer client = Pacer.idle)
    (events : List RequestEvent)
    (hevents : Runs.Meets (clientStep c client) (RestedAtOnce c client)
      { node := n, accepted := [], dispatched := [] } events) :
    Runs.Always (clientStep c client) (ClientPaced c client)
      { node := n, accepted := [], dispatched := [] } events := by
  have hstart : ClientTracked client { node := n, accepted := [], dispatched := [] } := by
    refine ⟨?_, hlocal⟩
    dsimp only
    rw [hidle]
    exact Pacer.good_idle
  have hall := Runs.always_of_meets clientTracked_step hstart hevents
  intro done log hdone hexec
  exact (hall done log hdone hexec).paced c

end Passes

/-! ## A late pass -/

/-- A relay with a local client. -/
def clientRelay : Instance :=
  { idleRelay with
    localClientInterfaces :=
      [{ name := "client", online := true, bitrate := none, hwMtu := none
         autoconfigureMtu := false, fixedMtu := false, mode := 1, tunnelId := none
         lastInboundAt := 0 }] }

/-- The announce of the zero destination comes from the left. -/
def zeroHeard (now : ℚ) : RequestEvent :=
  .receive
    { call := { reading := { Reading.zero with now := now }, randomHash := [], tunnelPaths := [] }
      raw := zeroFrame 1
      receivingInterface := some "left" }

theorem isLocal_clientRelay : IsLocal "client" clientRelay.toTransportState :=
  ⟨List.mem_cons_self, fun _ _ hrequest => by cases hrequest⟩

section Samples

set_option maxRecDepth 4000

/-- The first announce goes out at once, the second waits for a pass. -/
theorem paced_run_pass :
    Runs.Always (clientStep zeroCrypto "client") (ClientPaced zeroCrypto "client")
      { node := clientRelay, accepted := [], dispatched := [] }
      [zeroHeard 1000, zeroHeard (1000 + 1 / 10), .jobs (plainPass 1001)] := by
  refine paced_run _ _ _ isLocal_clientRelay rfl _ ?_
  rintro m₁ ⟨⟩
  refine ⟨?_, ?_⟩
  · intro _ _
    exact ⟨fun _ h => (by cases h), rfl, fun _ h => (by cases h)⟩
  rintro m₂ ⟨⟩
  refine ⟨?_, ?_⟩
  · intro _ honce
    exact absurd honce (by decide +kernel)
  rintro m₃ ⟨⟩
  exact ⟨(by decide +kernel : (0 : ℚ) < 1001), True.intro⟩

/-- Three announces, and a pass that comes late for the second. -/
def lateEvents : List RequestEvent :=
  [zeroHeard 1000, zeroHeard (1000 + 1 / 10), .jobs (plainPass 1002), zeroHeard (1002 + 1 / 10)]

theorem dispatched_lateEvents :
    (Runs.exec (clientStep zeroCrypto "client")
      { node := clientRelay, accepted := [], dispatched := [] } lateEvents).map
        (fun log => log.dispatched.map Prod.fst) = some [1000, 1002, 1002 + 1 / 10] := by
  decide +kernel

/-- The third announce goes out at once, a tenth of a second after the second. -/
theorem paced_run_false :
    ¬ ∀ (c : Crypto) (client : String) (n : Instance), IsLocal client n.toTransportState →
      n.pacer client = Pacer.idle → ∀ events : List RequestEvent,
      (∀ event ∈ events, 0 < event.time) → events.Pairwise (fun x y => x.time ≤ y.time) →
      Runs.Always (clientStep c client) (ClientPaced c client)
        { node := n, accepted := [], dispatched := [] } events := by
  intro hall
  have hpaced := hall zeroCrypto "client" clientRelay isLocal_clientRelay rfl lateEvents
    (by unfold lateEvents zeroHeard plainPass; simp [RequestEvent.time]; decide +kernel)
    (by unfold lateEvents zeroHeard plainPass; simp [RequestEvent.time]; decide +kernel)
  obtain ⟨log, hexec, htimes⟩ := Option.map_eq_some_iff.mp dispatched_lateEvents
  have hapart := (hpaced lateEvents log (List.prefix_refl _) hexec).apart
  have hpairs : (log.dispatched.map Prod.fst).Pairwise
      fun x y => x + localClientAnnouncePace ≤ y := List.pairwise_map.mpr hapart
  rw [htimes] at hpairs
  exact absurd hpairs (by decide +kernel)

end Samples

end Reticulum.Transport
