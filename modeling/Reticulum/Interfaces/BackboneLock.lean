import Reticulum.Lib.Lock
import Reticulum.Lib.Runs

/-!
# The interface lock of a Backbone client

The read loop looks for the socket under the interface lock, and the branch without a
socket calls `reconnect_until_success` inside that guard, which takes the lock first of
all. `backbone_waits_iff` says in which runs a thread waits for itself.

## Implementation notes

Each section under the interface lock is a call on the fields of the interface. `glance`
stands for the sections that only read: names for the log and for the tunnel, the look of
the heartbeat, and a received frame, which is handed on with the lock held. Handlers call
`process_outgoing` with the lock held. Transport does not take the interface lock, as it
hands what it sends to the writer of the interface.
-/

namespace Reticulum.Interfaces.BackboneLock

open Lock Lock.Call

/-- The fields of the interface that the sections read or write. -/
structure Fields where
  initiator : Bool
  maxReconnectTries : Option Nat
  online : Bool
  socket : Bool
  detached : Bool

/-- The first section of a round of `reconnect_until_success`: whether to go on. -/
def mayReconnect (attempts : Nat) : Call Fields Bool :=
  withLock do
    let fields ← read
    pure (!fields.detached && !fields.maxReconnectTries.any fun max => max ≤ attempts)

/-- The second: `connect`, and whether it succeeded. -/
def connect (connected : Bool) : Call Fields PUnit :=
  withLock (update fun fields =>
    if connected then { fields with socket := true, online := true } else fields)

/-- The top of the loop: a socket is taken along, or `reconnect_until_success` is called. -/
def lookup : Call Fields Bool :=
  withLock do
    let fields ← read
    if fields.socket then pure true else mayReconnect 0

/-- The loop has read to the end. -/
def readEnds : Call Fields Bool :=
  withLock do
    update fun fields => { fields with online := false, socket := false }
    let fields ← read
    pure fields.initiator

/-- A section that only reads. -/
def glance : Call Fields PUnit := withLock (pure ⟨⟩)

/-- A handler calls `process_outgoing`; a write that fails clears the socket. -/
def processOutgoing (written : Bool) : Call Fields PUnit :=
  withLock (update fun fields =>
    if fields.online && !fields.detached && fields.socket && !written then
      { fields with online := false, socket := false }
    else fields)

def detach : Call Fields PUnit :=
  withLock (update fun fields => { fields with online := false, socket := false, detached := true })

/-! ## The loop and the other threads -/

/-- Where the loop of `start_read_loop` is. -/
inductive Phase
  | lookup
  | clone
  | reading
  | deregister
  | check
  | dial
  | ended
  deriving DecidableEq

/-- The interface, the loop, and whether a thread waits for itself. -/
structure State where
  fields : Fields
  phase : Phase
  attempts : Nat
  waits : Bool

/-- The loop of an interface with a socket starts. -/
def State.start (initiator : Bool) (maxReconnectTries : Option Nat) : State where
  fields :=
    { initiator := initiator, maxReconnectTries := maxReconnectTries, online := true
      socket := true, detached := false }
  phase := .lookup
  attempts := 0
  waits := false

/-- A step of the loop, or a section of another thread. -/
inductive Event
  | lookup
  | clone (cloned : Bool)
  | glance
  | readEnds
  | deregister
  | check
  | dial (connected : Bool)
  | outgoing (written : Bool)
  | detach

namespace State

/-- A thread takes the lock for a section. One that waits for itself does so for ever. -/
def enter {A : Type} (s : State) (section' : Call Fields A) (next : A → State → State) : State :=
  match section' false s.fields with
  | some (a, fields) => next a { s with fields := fields }
  | none => { s with waits := true }

/-- While a thread waits for itself nobody else gets the lock. -/
def takes (s next : State) : Option State := if s.waits then none else some next

/-- A step of the loop is taken where the loop is. -/
def when (s : State) (phase : Phase) (next : State) : Option State :=
  if s.phase = phase then s.takes next else none

/-- What an event does. -/
def step (s : State) : Event → Option State
  | .lookup =>
      s.when .lookup (s.enter BackboneLock.lookup fun _ s => { s with phase := .clone })
  | .clone cloned => s.when .clone { s with phase := if cloned then .reading else .lookup }
  | .glance => s.takes (s.enter BackboneLock.glance fun _ s => s)
  | .readEnds =>
      s.when .reading (s.enter BackboneLock.readEnds fun initiator s =>
        { s with phase := if initiator then .check else .deregister, attempts := 0 })
  | .deregister =>
      s.when .deregister (s.enter BackboneLock.glance fun _ s => { s with phase := .ended })
  | .check =>
      s.when .check (s.enter (mayReconnect s.attempts) fun goesOn s =>
        { s with phase := if goesOn then .dial else .ended })
  | .dial connected =>
      s.when .dial (s.enter (connect connected) fun _ s =>
        { s with phase := if connected then .lookup else .check, attempts := s.attempts + 1 })
  | .outgoing written => s.takes (s.enter (processOutgoing written) fun _ s => s)
  | .detach => s.takes (s.enter BackboneLock.detach fun _ s => s)

/-- The top of the loop finds a socket. -/
def Careful (s : State) : Event → Prop
  | .lookup => s.fields.socket = true
  | _ => True

/-! ## Sections -/

theorem enter_waits_eq_false {A : Type} {s : State} {section' : Call Fields A}
    {next : A → State → State} (hs : s.waits = false)
    (hnext : ∀ a t, (next a t).waits = t.waits) (h : section' false s.fields ≠ none) :
    (s.enter section' next).waits = false := by
  unfold enter
  cases hrun : section' false s.fields with
  | none => exact absurd hrun h
  | some r => exact (hnext r.1 _).trans hs

theorem mayReconnect_ne_none (attempts : Nat) (fields : Fields) :
    mayReconnect attempts false fields ≠ none := by
  simp [mayReconnect]

theorem connect_ne_none (connected : Bool) (fields : Fields) :
    connect connected false fields ≠ none := by
  simp [connect]

theorem readEnds_ne_none (fields : Fields) : BackboneLock.readEnds false fields ≠ none := by
  simp [BackboneLock.readEnds]

theorem glance_ne_none (fields : Fields) : BackboneLock.glance false fields ≠ none := by
  simp [BackboneLock.glance]

theorem processOutgoing_ne_none (written : Bool) (fields : Fields) :
    processOutgoing written false fields ≠ none := by
  simp [processOutgoing]

theorem detach_ne_none (fields : Fields) : BackboneLock.detach false fields ≠ none := by
  simp [BackboneLock.detach]

/-- Only the branch without a socket takes the lock again. -/
theorem lookup_eq_none_iff (fields : Fields) :
    BackboneLock.lookup false fields = none ↔ fields.socket = false := by
  cases hsocket : fields.socket <;> simp [BackboneLock.lookup, mayReconnect, hsocket]

/-! ## Steps -/

theorem of_takes {s next s' : State} (h : s.takes next = some s') : next = s' := by
  unfold takes at h
  split at h
  · cases h
  · exact Option.some.inj h

theorem of_when {s next s' : State} {phase : Phase} (h : s.when phase next = some s') :
    next = s' := by
  unfold when at h
  split at h
  · exact of_takes h
  · cases h

theorem waits_step {s : State} (hs : s.waits = false) {e : Event} (hok : Careful s e) {s' : State}
    (hstep : s.step e = some s') : s'.waits = false := by
  cases e with
  | lookup =>
      obtain rfl := of_when hstep
      refine enter_waits_eq_false hs (fun _ _ => rfl) fun hnone => ?_
      have hsocket : s.fields.socket = true := hok
      rw [(lookup_eq_none_iff s.fields).mp hnone] at hsocket
      cases hsocket
  | clone cloned =>
      obtain rfl := of_when hstep
      exact hs
  | glance =>
      obtain rfl := of_takes hstep
      exact enter_waits_eq_false hs (fun _ _ => rfl) (glance_ne_none s.fields)
  | readEnds =>
      obtain rfl := of_when hstep
      exact enter_waits_eq_false hs (fun _ _ => rfl) (readEnds_ne_none s.fields)
  | deregister =>
      obtain rfl := of_when hstep
      exact enter_waits_eq_false hs (fun _ _ => rfl) (glance_ne_none s.fields)
  | check =>
      obtain rfl := of_when hstep
      exact enter_waits_eq_false hs (fun _ _ => rfl) (mayReconnect_ne_none s.attempts s.fields)
  | dial connected =>
      obtain rfl := of_when hstep
      exact enter_waits_eq_false hs (fun _ _ => rfl) (connect_ne_none connected s.fields)
  | outgoing written =>
      obtain rfl := of_takes hstep
      exact enter_waits_eq_false hs (fun _ _ => rfl) (processOutgoing_ne_none written s.fields)
  | detach =>
      obtain rfl := of_takes hstep
      exact enter_waits_eq_false hs (fun _ _ => rfl) (detach_ne_none s.fields)

theorem waits_of_not_careful {s : State} {e : Event} (hok : ¬Careful s e) {s' : State}
    (hstep : s.step e = some s') : s'.waits = true := by
  cases e with
  | lookup =>
      have hsocket : s.fields.socket = false := by simpa [Careful] using hok
      obtain rfl := of_when hstep
      rw [enter, (lookup_eq_none_iff s.fields).mpr hsocket]
  | _ => exact absurd True.intro hok

end State

/-- In exactly those runs no thread waits for itself in which the top of the loop always finds a
socket. -/
theorem backbone_waits_iff (initiator : Bool) (maxReconnectTries : Option Nat)
    (events : List Event) :
    Runs.Always State.step (fun s => s.waits = false) (State.start initiator maxReconnectTries)
        events ↔
      Runs.Meets State.step State.Careful (State.start initiator maxReconnectTries) events :=
  Runs.always_iff_meets (I := fun s => s.waits = false) (fun _ hs => hs)
    (fun _ _ _ hs hok hstep => State.waits_step hs hok hstep)
    (fun _ _ _ _ hok hstep hfalse => by
      rw [State.waits_of_not_careful hok hstep] at hfalse
      cases hfalse)
    rfl events

/-- A write fails before the loop has looked for the socket. -/
theorem backbone_waits_false :
    ¬Runs.Always State.step (fun s => s.waits = false) (State.start true none)
      [.outgoing false, .lookup] := by
  intro h
  have hwaits := h _ _ List.prefix_rfl rfl
  exact absurd hwaits (by decide)

end Reticulum.Interfaces.BackboneLock
