import Reticulum.Transport.HeldAnnounces

/-!
# Rediscovery of a path

`Transport::jobs` (`src/transport.rs`) asks again for the path of a link that was
never proved, and may block the interface that the link request came from. The
blocked interface is handed to `request_path` as the one to send on, and to
`mark_path_unresponsive` as the one whose routes failed, though the request was
forwarded over another. `rediscovers_iff` says when the requests and the routes are
nevertheless what a blocked interface stands for.

## Implementation notes

A task is looked at where it stands in the pass: after the tasks before it, and with
the requests that the pass has already planned.
-/

namespace Reticulum.Transport

/-- The node and the planned requests of a pass when it comes to its tables. -/
def beforeCull (n : Instance) (pass : Pass) : Instance × Table (Option String) :=
  let (n, requests) := pass.closedLinks.foldl (closeLink pass.now) (n, fun _ => none)
  let (n, _) := rebroadcastAnnounces n pass.now
  let (n, _) := drainLocalAnnounces n pass.now
  (saveWhenDirty (rotateTags (cullPendingRequests (rotateHashlist n) pass.now)) pass.now, requests)

/-- An interface that path requests can leave on. -/
def Sendable (n : Instance) (name : String) : Prop :=
  ∃ i ∈ n.interfaces, i.name = name ∧ i.online = true ∧ n.interfaceOut name = true

/-- A pass comes to a link whose proof is late and asks for its path again, with a blocked
interface; `state` is what the tasks before it have left. -/
structure Rediscovers (n : Instance) (pass : Pass) (entry : LinkEntry) (task : Rediscovery)
    (blocked : String) (state : Instance × Table (Option String)) : Prop where
  due : (beforeCull n pass).1.tablesLastCulled + (beforeCull n pass).1.tablesCullInterval < pass.now
  decided : rediscovery (beforeCull n pass).1 pass.now entry = some task
  blocks : task.blockedInterface = some blocked
  reached : ∃ earlier linkId later, pass.linkOrder = earlier ++ linkId :: later ∧
    (beforeCull n pass).1.linkTable linkId = some entry ∧ entry.validated = false ∧
    entry.proofTimeout < pass.now ∧
    state = (earlier.filterMap (rediscoveryTask (beforeCull n pass).1 pass.now)).foldl runTask
      (beforeCull n pass)

/-- The interfaces that the path requests of a pass for a destination leave on. -/
def requestsLeaveOn (n : Instance) (pass : Pass) (destinationHash : Bytes) : List String :=
  match (jobs n pass).2.requests destinationHash with
  | none => []
  | some attachedInterface => requestInterfaces (jobs n pass).1 attachedInterface

/-- The routes of a table to a destination. -/
def routesTo (n : Instance) (destinationHash : Bytes) : List PathEntry :=
  (n.pathTable destinationHash).getD []

/-- A route over an interface. -/
def PathEntry.over (e : PathEntry) (name : Option String) : Bool :=
  name.isSome && e.receivingInterface == name

/-- The failed route is avoided: the requests leave on every interface but the blocked one,
and what is removed when the path is marked is the routes to the destination over the
interface that the link request was forwarded to. -/
structure AvoidsFailedRoute (n : Instance) (pass : Pass) (entry : LinkEntry) (task : Rediscovery)
    (blocked : String) (state : Instance × Table (Option String)) : Prop where
  requests : ∀ name, name ∈ requestsLeaveOn n pass entry.destinationHash ↔
    Sendable (jobs n pass).1 name ∧ name ≠ blocked
  routes : task.markUnresponsive = true → ∀ hash, routesTo (runTask state task).1 hash =
    if hash = entry.destinationHash then
      (routesTo state.1 hash).filter fun e => !e.over entry.nextHopInterface
    else routesTo state.1 hash

/-- What is planned for the destination already decides where the requests leave: nothing is,
and no interface can send; all interfaces are asked, and the blocked one cannot send; or one
interface is asked, and of those that can send it is all but the blocked one. -/
def RequestsElsewhere (n : Instance) (planned : Option (Option String)) (blocked : String) : Prop :=
  match planned with
  | none => ∀ name, ¬ Sendable n name
  | some none => ¬ Sendable n blocked
  | some (some attached) => ∀ name, Sendable n name → (name = attached ↔ name ≠ blocked)

/-- The link request was forwarded over the interface it came from, or the destination has
no route over either. -/
def SameOrUnused (n : Instance) (entry : LinkEntry) : Prop :=
  entry.nextHopInterface = entry.receivedInterface ∨
    ∀ e ∈ routesTo n entry.destinationHash,
      e.over entry.nextHopInterface = false ∧ e.over entry.receivedInterface = false

/-! ## Where the requests leave -/

section Requests

variable {n : Instance} {pass : Pass} {entry : LinkEntry} {task : Rediscovery} {blocked : String}
  {state : Instance × Table (Option String)}

/-- A pass in terms of the state before the tables are culled. -/
theorem requests_jobs (n : Instance) (pass : Pass) :
    (jobs n pass).2.requests = (cullTables (beforeCull n pass) pass).2 := rfl

/-- A task keeps what is planned for a destination. -/
theorem requests_runTask (task : Rediscovery) (hash : Bytes) :
    (runTask state task).2 hash =
      if hash = task.destinationHash then
        some ((state.2 hash).getD task.blockedInterface)
      else state.2 hash := by
  obtain ⟨n, requests⟩ := state
  change (if requests.contains task.destinationHash then requests
    else requests.insert task.destinationHash task.blockedInterface) hash = _
  by_cases heq : hash = task.destinationHash
  · subst heq
    rw [if_pos rfl]
    unfold Table.contains
    cases hplanned : requests task.destinationHash with
    | none => simp [Table.insert_self, hplanned]
    | some attached => simp [hplanned]
  · rw [if_neg heq]
    split
    · rfl
    · exact Table.insert_of_ne _ heq _

/-- What is planned for a destination stays planned. -/
theorem requests_runTasks (tasks : List Rediscovery) {hash : Bytes} {attached : Option String}
    (h : state.2 hash = some attached) : (tasks.foldl runTask state).2 hash = some attached := by
  induction tasks generalizing state with
  | nil => exact h
  | cons task tasks ih =>
      apply ih
      rw [requests_runTask]
      split
      · rw [h]
        rfl
      · exact h

/-- What a pass can decide about a late link: no interface is blocked, or the one that the
link request came from. -/
theorem rediscovery_eq_some {now : ℚ} (h : rediscovery n now entry = some task) :
    (task.destinationHash = entry.destinationHash ∧ task.expire = !n.transportEnabled) ∧
      (task.blockedInterface = none ∧ task.markUnresponsive = false ∨
        task.blockedInterface = entry.receivedInterface ∧
          (task.markUnresponsive = true → n.transportEnabled = true)) := by
  unfold rediscovery at h
  dsimp only at h
  split at h
  · cases h
  split at h
  · cases h
    exact ⟨⟨rfl, rfl⟩, .inl ⟨rfl, rfl⟩⟩
  split at h
  · cases h
    exact ⟨⟨rfl, rfl⟩, .inl ⟨rfl, rfl⟩⟩
  split at h
  · cases h
    exact ⟨⟨rfl, rfl⟩, .inr ⟨rfl, fun hmark => (Bool.and_eq_true _ _ ▸ hmark).1⟩⟩
  split at h
  · cases h
    exact ⟨⟨rfl, rfl⟩, .inr ⟨rfl, fun hmark => (Bool.and_eq_true _ _ ▸ hmark).1⟩⟩
  · cases h

theorem mem_requestInterfaces {attachedInterface : Option String} {name : String} :
    name ∈ requestInterfaces n attachedInterface ↔
      Sendable n name ∧ (attachedInterface = none ∨ attachedInterface = some name) := by
  unfold requestInterfaces Sendable
  simp only [List.mem_map, List.mem_filter, Bool.and_eq_true, Bool.or_eq_true, beq_iff_eq]
  constructor
  · rintro ⟨i, ⟨hi, ⟨honline, hout⟩, hattached⟩, rfl⟩
    exact ⟨⟨i, hi, rfl, honline, hout⟩, hattached⟩
  · rintro ⟨⟨i, hi, rfl, honline, hout⟩, hattached⟩
    exact ⟨i, ⟨hi, ⟨honline, hout⟩, hattached⟩, rfl⟩

/-- The requests of a pass for the destination of a task: as planned before, or else attached
to the blocked interface. -/
theorem requests_of_rediscovers (h : Rediscovers n pass entry task blocked state) :
    (jobs n pass).2.requests entry.destinationHash =
      some ((state.2 entry.destinationHash).getD (some blocked)) := by
  obtain ⟨earlier, linkId, later, horder, hentry, hvalidated, htimeout, rfl⟩ := h.reached
  have htask : rediscoveryTask (beforeCull n pass).1 pass.now linkId = some task := by
    unfold rediscoveryTask
    rw [hentry, Option.bind_some, if_pos (by simp [hvalidated, htimeout])]
    exact h.decided
  have htasks : rediscoveryTasks (beforeCull n pass).1 pass =
      earlier.filterMap (rediscoveryTask (beforeCull n pass).1 pass.now) ++
        task :: later.filterMap (rediscoveryTask (beforeCull n pass).1 pass.now) := by
    unfold rediscoveryTasks
    rw [horder, List.filterMap_append, List.filterMap_cons, htask]
  rw [requests_jobs]
  unfold cullTables
  dsimp only
  rw [if_pos h.due, htasks, List.foldl_append, List.foldl_cons]
  refine requests_runTasks _ ?_
  have hdest := (rediscovery_eq_some h.decided).1.1
  rw [requests_runTask, if_pos hdest.symm, h.blocks]

/-- Whether the requests leave where they should is decided by what was planned before. -/
theorem requestsElsewhere_iff (h : Rediscovers n pass entry task blocked state) :
    (∀ name, name ∈ requestsLeaveOn n pass entry.destinationHash ↔
      Sendable (jobs n pass).1 name ∧ name ≠ blocked) ↔
    RequestsElsewhere (jobs n pass).1 (state.2 entry.destinationHash) blocked := by
  unfold requestsLeaveOn
  rw [requests_of_rediscovers h]
  simp only [mem_requestInterfaces]
  unfold RequestsElsewhere
  cases hplanned : state.2 entry.destinationHash with
  | none =>
      simp only [Option.getD_none, reduceCtorEq, false_or, Option.some.injEq]
      constructor
      · intro hall name hname
        by_cases heq : name = blocked
        · exact ((hall name).mp ⟨hname, heq.symm⟩).2 heq
        · exact heq ((hall name).mpr ⟨hname, heq⟩).2.symm
      · intro hnone name
        exact ⟨fun hname => absurd hname.1 (hnone name), fun hname => absurd hname.1 (hnone name)⟩
  | some attachedInterface =>
      cases attachedInterface with
      | none =>
          simp only [Option.getD_some, true_or, and_true]
          constructor
          · intro hall hblocked
            exact ((hall blocked).mp hblocked).2 rfl
          · intro hblocked name
            refine ⟨fun hname => ⟨hname, ?_⟩, And.left⟩
            rintro rfl
            exact hblocked hname
      | some attached =>
          simp only [Option.getD_some, reduceCtorEq, false_or, Option.some.injEq]
          constructor
          · intro hall name hname
            refine ⟨fun heq => ((hall name).mp ⟨hname, heq.symm⟩).2, fun hne => ?_⟩
            exact ((hall name).mpr ⟨hname, hne⟩).2.symm
          · intro hall name
            refine and_congr_right fun hname => ?_
            rw [eq_comm]
            exact hall name hname

end Requests

/-! ## Which routes are removed -/

section Routes

variable {n : Instance} {pass : Pass} {entry : LinkEntry} {task : Rediscovery} {blocked : String}
  {state : Instance × Table (Option String)}

/-- Marking a path removes the routes over the interface that it is given. -/
theorem routesTo_markPathUnresponsive (s : TransportState) (destinationHash : Bytes)
    (blocked : String) (hash : Bytes) :
    (((markPathUnresponsive s destinationHash (some blocked)).pathTable hash).getD []) =
      if hash = destinationHash then
        ((s.pathTable hash).getD []).filter fun e => !e.over (some blocked)
      else (s.pathTable hash).getD [] := by
  have hkept : ∀ routes : List PathEntry, responsiveRoutes routes (some blocked) =
      routes.filter fun e => !e.over (some blocked) := fun _ => rfl
  unfold markPathUnresponsive
  cases hroutes : s.pathTable destinationHash with
  | none =>
      dsimp only
      split
      · rename_i heq
        rw [heq, hroutes]
        rfl
      · rfl
  | some routes =>
      dsimp only
      rw [hkept]
      by_cases heq : hash = destinationHash
      · subst heq
        rw [if_pos rfl, hroutes, Option.getD_some]
        split
        · rename_i hempty
          rw [List.isEmpty_iff] at hempty
          simp [Table.remove, hempty]
        · simp [Table.insert_self]
      · rw [if_neg heq]
        split
        · simp [Table.remove, Function.update_of_ne heq]
        · dsimp only
          rw [Table.insert_of_ne _ heq]

/-- What is removed for a task is the routes over the blocked interface. -/
theorem routesTo_runTask (h : Rediscovers n pass entry task blocked state)
    (hmark : task.markUnresponsive = true) (hash : Bytes) :
    routesTo (runTask state task).1 hash =
      if hash = entry.destinationHash then
        (routesTo state.1 hash).filter fun e => !e.over entry.receivedInterface
      else routesTo state.1 hash := by
  obtain ⟨⟨hdest, hexpire⟩, ⟨-, hunmarked⟩ | ⟨hreceived, henabled⟩⟩ := rediscovery_eq_some h.decided
  · rw [hunmarked] at hmark
    cases hmark
  rw [henabled hmark] at hexpire
  have hblocked : entry.receivedInterface = some blocked := hreceived.symm.trans h.blocks
  have hrun : (runTask state task).1.pathTable =
      (markPathUnresponsive state.1.toTransportState task.destinationHash
        task.blockedInterface).pathTable := by
    unfold runTask
    dsimp only
    rw [hmark, hexpire]
    rfl
  unfold routesTo
  rw [hrun, h.blocks, hblocked, ← hdest]
  exact routesTo_markPathUnresponsive state.1.toTransportState task.destinationHash blocked hash

/-- The routes that are removed are those over the interface that the request was forwarded
to exactly when the two interfaces are one, or neither is used. -/
theorem sameOrUnused_iff :
    ((routesTo n entry.destinationHash).filter fun e => !e.over entry.receivedInterface) =
      ((routesTo n entry.destinationHash).filter fun e => !e.over entry.nextHopInterface) ↔
    SameOrUnused n entry := by
  unfold SameOrUnused
  constructor
  · intro heq
    by_cases hsame : entry.nextHopInterface = entry.receivedInterface
    · exact .inl hsame
    refine .inr fun e he => ?_
    have hiff : (e.over entry.receivedInterface = false) ↔ (e.over entry.nextHopInterface = false) := by
      have hmem := congrArg (e ∈ ·) heq
      simpa [he] using hmem
    -- a route over one of two different interfaces is not over the other
    have hone : ¬ (e.over entry.nextHopInterface = true ∧ e.over entry.receivedInterface = true) := by
      rintro ⟨hnext, hreceived⟩
      rw [PathEntry.over, Bool.and_eq_true, beq_iff_eq] at hnext hreceived
      exact hsame (hnext.2.symm.trans hreceived.2)
    cases hnext : e.over entry.nextHopInterface with
    | false => exact ⟨rfl, hiff.mpr hnext⟩
    | true =>
        have hreceived : e.over entry.receivedInterface = true := by
          by_contra hfalse
          rw [hiff.mp (by simpa using hfalse)] at hnext
          cases hnext
        exact absurd ⟨hnext, hreceived⟩ hone
  · rintro (hsame | hunused)
    · rw [hsame]
    · refine List.filter_congr fun e he => ?_
      obtain ⟨hnext, hreceived⟩ := hunused e he
      rw [hnext, hreceived]

end Routes

/-- The failed route is avoided exactly when the requests were to leave elsewhere anyway, and
the two interfaces of the link are one or the destination has no route over either. -/
theorem rediscovers_iff (n : Instance) (pass : Pass) (entry : LinkEntry) (task : Rediscovery)
    (blocked : String) (state : Instance × Table (Option String))
    (h : Rediscovers n pass entry task blocked state) :
    AvoidsFailedRoute n pass entry task blocked state ↔
      RequestsElsewhere (jobs n pass).1 (state.2 entry.destinationHash) blocked ∧
        (task.markUnresponsive = true → SameOrUnused state.1 entry) := by
  constructor
  · intro havoids
    refine ⟨(requestsElsewhere_iff h).mp havoids.requests, fun hmark => ?_⟩
    have hroutes := havoids.routes hmark entry.destinationHash
    rw [routesTo_runTask h hmark, if_pos rfl, if_pos rfl] at hroutes
    exact sameOrUnused_iff.mp hroutes
  · rintro ⟨helsewhere, hsame⟩
    refine ⟨(requestsElsewhere_iff h).mpr helsewhere, fun hmark hash => ?_⟩
    rw [routesTo_runTask h hmark]
    by_cases heq : hash = entry.destinationHash
    · subst heq
      rw [if_pos rfl, if_pos rfl]
      exact sameOrUnused_iff.mpr (hsame hmark)
    · rw [if_neg heq, if_neg heq]

/-! ## A link that was never proved -/

/-- A link request that came from the left, and was forwarded to the right. -/
def lateLink : LinkEntry :=
  { timestamp := 0, nextHopTransport := [], nextHopInterface := some "right", remainingHops := 1
    receivedInterface := some "left", takenHops := 1, destinationHash := [5], validated := false
    proofTimeout := 10 }

/-- A relay with a late link to a destination that is one hop away, on the right. -/
def lateRelay : Instance :=
  { idleRelay with
    linkTable := idleRelay.linkTable.insert [7] lateLink
    pathTable := idleRelay.pathTable.insert [5]
      [{ timestamp := 0, nextHop := [5], hops := 1, expires := 1000
         receivingInterface := some "right", packetHash := [] }] }

/-- A pass that comes to the late link. -/
def latePass : Pass := { now := 100, closedLinks := [], linkOrder := [[7]], pathOrder := [[5]] }

/-- What the pass decides. -/
def lateTask : Rediscovery :=
  { destinationHash := [5], blockedInterface := some "left", markUnresponsive := true
    expire := false }

section Samples

set_option maxRecDepth 4000

theorem rediscovers_late :
    Rediscovers lateRelay latePass lateLink lateTask "left" (beforeCull lateRelay latePass) where
  due := by decide +kernel
  decided := by decide +kernel
  blocks := rfl
  reached := ⟨[], [7], [], rfl, by decide +kernel, rfl, by decide +kernel, rfl⟩

/-- The pass asks on the left, where the link request came from, and keeps the route that
failed. -/
theorem rediscovers_iff_late :
    AvoidsFailedRoute lateRelay latePass lateLink lateTask "left" (beforeCull lateRelay latePass) ↔
      RequestsElsewhere (jobs lateRelay latePass).1
          ((beforeCull lateRelay latePass).2 lateLink.destinationHash) "left" ∧
        (lateTask.markUnresponsive = true →
          SameOrUnused (beforeCull lateRelay latePass).1 lateLink) :=
  rediscovers_iff _ _ _ _ _ _ rediscovers_late

theorem requestsLeaveOn_late : requestsLeaveOn lateRelay latePass [5] = ["left"] := by
  decide +kernel

/-- The path requests for the late link leave on the blocked interface alone. -/
theorem avoids_failed_route_false :
    ¬ ∀ (n : Instance) (pass : Pass) (entry : LinkEntry) (task : Rediscovery) (blocked : String)
        (state : Instance × Table (Option String)),
      Rediscovers n pass entry task blocked state →
      AvoidsFailedRoute n pass entry task blocked state := by
  intro hall
  have havoids := hall _ _ _ _ _ _ rediscovers_late
  have hleft : "left" ∈ requestsLeaveOn lateRelay latePass lateLink.destinationHash := by
    change "left" ∈ requestsLeaveOn lateRelay latePass [5]
    rw [requestsLeaveOn_late]
    exact List.mem_cons_self
  exact ((havoids.requests "left").mp hleft).2 rfl

end Samples

end Reticulum.Transport
