import Reticulum.Lib.Runs

/-!
# The life of a TCP client interface

Each section under the interface lock is one step, and so is each look at the nudge
count. The read loop looks whether the interface is detached in one section and connects
in a later one, and a loop that finds no socket goes on to reconnect whoever opened the
connection. `tcp_lifecycle_iff` says which runs are harmed by that.

## Implementation notes

A read of the loop ends at any time: when the peer closes, on an error, or when the kill
switch is set. Whether a connection was short-lived is told by the event that ends it, and
whether a wait took all of its back-off by the event that ends that. `dialled` records that the
loop called `connect`, and `nudged` that there was a nudge since the loop last looked.
-/

namespace Reticulum.Interfaces.TcpLife

/-- Where the loop of `start_read_loop` is. -/
inductive Phase
  | clone
  | reading
  | deregister
  | count
  | wait
  | recount
  | check
  | dial
  | ended
  deriving DecidableEq

/-- The loop is done with its connection. -/
def Phase.isOver : Phase → Bool
  | .clone | .reading | .deregister => false
  | _ => true

/-- What the steps read and write: fields of the interface, variables of the loop, the nudge count,
and whether Transport knows the interface. -/
structure Client where
  initiator : Bool
  maxReconnectTries : Option Nat
  online : Bool
  socket : Bool
  detached : Bool
  phase : Phase
  shortLivedStreak : Nat
  attempts : Nat
  seen : Option UInt64
  generation : UInt64
  registered : Bool
  dialled : Bool
  nudged : Bool
  deriving DecidableEq

/-- Whether an interface was made to dial, with its first attempt made, or for a connection that was
accepted. -/
inductive Origin
  | dialled (connected : Bool) (maxReconnectTries : Option Nat)
  | accepted
  deriving DecidableEq

/-- The loop of an interface starts. -/
def Client.start (generation : UInt64) : Origin → Client
  | .dialled connected maxReconnectTries =>
      { initiator := true, maxReconnectTries := maxReconnectTries, online := connected
        socket := connected, detached := false, phase := .clone, shortLivedStreak := 0
        attempts := 0, seen := none, generation := generation, registered := true
        dialled := false, nudged := false }
  | .accepted =>
      { initiator := false, maxReconnectTries := none, online := true
        socket := true, detached := false, phase := .clone, shortLivedStreak := 0
        attempts := 0, seen := none, generation := generation, registered := true
        dialled := false, nudged := false }

/-- A step of the loop, a packet with what becomes of the write, `detach`, and `nudge_reconnect`. -/
inductive Event
  | clone (cloned : Bool)
  | readEnds (shortLived : Bool)
  | deregister
  | count
  | wake (elapsed : Bool)
  | recount
  | check
  | dial (connected : Bool)
  | outgoing (written : Bool)
  | detach
  | nudge

/-- `next_short_lived_streak`. -/
def nextShortLivedStreak (previous : Nat) (shortLived : Bool) : Nat :=
  if shortLived then min (previous + 1) 0xFFFFFFFF else 0

namespace Client

/-- A step of the loop is taken where the loop is. -/
def when (s : Client) (phase : Phase) (next : Client) : Option Client :=
  if s.phase = phase then some next else none

/-- `socket` is cleared and the interface goes offline. -/
def drop (s : Client) : Client := { s with online := false, socket := false }

/-- `connect`, when the connection comes about. -/
def connect (s : Client) : Client := { s with socket := true, online := true }

/-- The loop looks at the nudge count. -/
def look (s : Client) : Client := { s with seen := some s.generation, nudged := false }

/-- There were as many attempts as there may be. -/
def exhausted (s : Client) : Bool :=
  s.maxReconnectTries.any fun max => max < s.attempts

/-- The condition under which `wait_or_nudge` does not wait. -/
def returnsAtOnce (s : Client) : Bool := s.seen.any fun seen => s.generation != seen

/-- What an event does. -/
def step (s : Client) : Event → Option Client
  | .clone cloned =>
      s.when .clone { s with phase := if s.socket && cloned then .reading else .count }
  | .readEnds shortLived =>
      s.when .reading { s.drop with
        shortLivedStreak := nextShortLivedStreak s.shortLivedStreak shortLived
        phase := if s.initiator then .count else .deregister }
  | .deregister => s.when .deregister { s with registered := false, phase := .ended }
  | .count => s.when .count { s.look with attempts := s.shortLivedStreak, phase := .wait }
  | .wake elapsed =>
      if elapsed || s.returnsAtOnce then s.when .wait { s with phase := .recount } else none
  | .recount => s.when .recount { s.look with attempts := s.attempts + 1, phase := .check }
  | .check =>
      s.when .check { s with phase := if s.detached || s.exhausted then .ended else .dial }
  | .dial connected =>
      s.when .dial
        (if connected then { s.connect with dialled := true, seen := none, phase := .clone }
        else { s with dialled := true, phase := .wait })
  | .outgoing written =>
      some (if s.online && !s.detached && s.socket && !written then s.drop else s)
  | .detach => some { s.drop with detached := true }
  | .nudge => some { s with generation := s.generation + 1, nudged := true }

/-- An interface that is online has a socket. One that was detached has none and is not online. One
that was accepted has not dialled, and is out of Transport once its loop is done with the connection.
After a nudge the next wait returns at once. -/
structure Sound (s : Client) : Prop where
  held : s.online = true → s.socket = true
  detached : s.detached = true → s.online = false ∧ s.socket = false
  accepted : s.initiator = false →
    s.dialled = false ∧ (s.phase.isOver = true → s.registered = false)
  nudged : s.nudged = true → s.seen ≠ none → s.returnsAtOnce = true

/-- The loop of an accepted interface finds the socket and can clone it, no connection comes about
after `detach`, and no nudge takes the count around to where the loop last saw it. -/
def Careful (s : Client) : Event → Prop
  | .clone cloned => s.initiator = false → s.socket = true ∧ cloned = true
  | .dial connected => connected = true → s.detached = false
  | .nudge => ∀ seen, s.seen = some seen → s.generation + 1 ≠ seen
  | _ => True

/-! ## Steps -/

theorem when_eq_some {s next s' : Client} {phase : Phase} :
    s.when phase next = some s' ↔ s.phase = phase ∧ next = s' := by
  unfold when
  split
  · rename_i hphase
    simp [hphase]
  · rename_i hphase
    simp [hphase]

/-- What careful steps keep. -/
structure Kept (s : Client) : Prop where
  held : s.online = true → s.socket = true
  detached : s.detached = true → s.online = false ∧ s.socket = false
  dialled : s.initiator = false → s.dialled = false
  registered : s.initiator = false →
    (s.phase.isOver = false ∧ s.registered = true) ∨ (s.phase = .ended ∧ s.registered = false)
  nudged : s.nudged = true → s.seen ≠ none → s.returnsAtOnce = true

theorem Kept.sound {s : Client} (h : s.Kept) : s.Sound where
  held := h.held
  detached := h.detached
  accepted := fun haccepted => by
    refine ⟨h.dialled haccepted, fun hover => ?_⟩
    rcases h.registered haccepted with ⟨hlive, -⟩ | ⟨-, hgone⟩
    · rw [hlive] at hover
      cases hover
    · exact hgone
  nudged := h.nudged

theorem kept_start (generation : UInt64) (origin : Origin) : (start generation origin).Kept := by
  cases origin with
  | dialled connected maxReconnectTries =>
      exact ⟨id, fun h => (Bool.false_ne_true h).elim, fun h => (Bool.false_ne_true h.symm).elim,
        fun h => (Bool.false_ne_true h.symm).elim, fun h => (Bool.false_ne_true h).elim⟩
  | accepted =>
      exact ⟨id, fun h => (Bool.false_ne_true h).elim, fun _ => rfl, fun _ => .inl ⟨rfl, rfl⟩,
        fun h => (Bool.false_ne_true h).elim⟩

/-- An accepted interface whose loop is in the code for reconnecting. -/
theorem Kept.initiator {s : Client} (h : s.Kept) (hover : s.phase.isOver = true)
    (hended : s.phase ≠ .ended) : s.initiator = true := by
  rw [← Bool.not_eq_false]
  intro haccepted
  rcases h.registered haccepted with ⟨hlive, -⟩ | ⟨hgone, -⟩
  · rw [hlive] at hover
    cases hover
  · exact hended hgone

theorem returnsAtOnce_iff {s : Client} :
    (s.seen ≠ none → s.returnsAtOnce = true) ↔ ∀ seen, s.seen = some seen → s.generation ≠ seen := by
  unfold returnsAtOnce
  cases s.seen with
  | none => simp
  | some seen => simp

/-- A step of the loop between its look at the nudge count and the next moves only the phase. -/
theorem Kept.move {s : Client} (h : s.Kept) {phase : Phase} (hinitiator : s.initiator = true) :
    Kept { s with phase := phase } where
  held := h.held
  detached := h.detached
  dialled := h.dialled
  registered := fun haccepted => absurd (hinitiator.symm.trans haccepted) (by decide)
  nudged := h.nudged

theorem Kept.drop {s : Client} (h : s.Kept) : s.drop.Kept where
  held := fun honline => (Bool.false_ne_true honline).elim
  detached := fun _ => ⟨rfl, rfl⟩
  dialled := h.dialled
  registered := h.registered
  nudged := h.nudged

theorem kept_step {s : Client} (h : s.Kept) {e : Event} (hok : s.Careful e) {s' : Client}
    (hstep : s.step e = some s') : s'.Kept := by
  cases e with
  | clone cloned =>
      obtain ⟨hphase, rfl⟩ := when_eq_some.mp hstep
      refine { h with registered := fun haccepted => ?_ }
      rcases h.registered haccepted with ⟨-, hregistered⟩ | ⟨hended, -⟩
      · obtain ⟨hsocket, hcloned⟩ := hok haccepted
        refine .inl ⟨?_, hregistered⟩
        dsimp only
        rw [hsocket, hcloned]
        rfl
      · rw [hphase] at hended
        cases hended
  | readEnds shortLived =>
      obtain ⟨hphase, rfl⟩ := when_eq_some.mp hstep
      refine ⟨h.drop.held, h.drop.detached, h.dialled, fun haccepted => ?_, h.nudged⟩
      have hfalse : s.initiator = false := haccepted
      rcases h.registered hfalse with ⟨-, hregistered⟩ | ⟨hended, -⟩
      · refine .inl ⟨?_, hregistered⟩
        dsimp only
        rw [hfalse]
        rfl
      · rw [hphase] at hended
        cases hended
  | deregister =>
      obtain ⟨hphase, rfl⟩ := when_eq_some.mp hstep
      exact ⟨h.held, h.detached, h.dialled, fun _ => .inr ⟨rfl, rfl⟩, h.nudged⟩
  | count =>
      obtain ⟨hphase, rfl⟩ := when_eq_some.mp hstep
      have hinitiator := h.initiator (by rw [hphase]; rfl) (by rw [hphase]; decide)
      refine ⟨h.held, h.detached, h.dialled, fun haccepted => ?_,
        fun hnudged => (Bool.false_ne_true hnudged).elim⟩
      exact absurd (hinitiator.symm.trans haccepted) (by decide)
  | wake elapsed =>
      rw [step] at hstep
      split at hstep
      · obtain ⟨hphase, rfl⟩ := when_eq_some.mp hstep
        exact h.move (h.initiator (by rw [hphase]; rfl) (by rw [hphase]; decide))
      · cases hstep
  | recount =>
      obtain ⟨hphase, rfl⟩ := when_eq_some.mp hstep
      have hinitiator := h.initiator (by rw [hphase]; rfl) (by rw [hphase]; decide)
      refine ⟨h.held, h.detached, h.dialled, fun haccepted => ?_,
        fun hnudged => (Bool.false_ne_true hnudged).elim⟩
      exact absurd (hinitiator.symm.trans haccepted) (by decide)
  | check =>
      obtain ⟨hphase, rfl⟩ := when_eq_some.mp hstep
      exact h.move (h.initiator (by rw [hphase]; rfl) (by rw [hphase]; decide))
  | dial connected =>
      obtain ⟨hphase, rfl⟩ := when_eq_some.mp hstep
      have hinitiator := h.initiator (by rw [hphase]; rfl) (by rw [hphase]; decide)
      cases connected with
      | false =>
          refine ⟨h.held, h.detached, fun haccepted => ?_, fun haccepted => ?_, h.nudged⟩
          · exact absurd (hinitiator.symm.trans haccepted) (by decide)
          · exact absurd (hinitiator.symm.trans haccepted) (by decide)
      | true =>
          have hattached := hok rfl
          refine ⟨fun _ => rfl, fun hdetached => ?_, fun haccepted => ?_, fun haccepted => ?_,
            fun _ hnone => absurd rfl hnone⟩
          · exact absurd (hattached.symm.trans hdetached) Bool.false_ne_true
          · exact absurd (hinitiator.symm.trans haccepted) (by decide)
          · exact absurd (hinitiator.symm.trans haccepted) (by decide)
  | outgoing written =>
      obtain rfl := Option.some.inj hstep
      split
      · exact h.drop
      · exact h
  | detach =>
      obtain rfl := Option.some.inj hstep
      exact ⟨h.drop.held, fun _ => ⟨rfl, rfl⟩, h.dialled, h.registered, h.nudged⟩
  | nudge =>
      obtain rfl := Option.some.inj hstep
      exact ⟨h.held, h.detached, h.dialled, h.registered, fun _ => returnsAtOnce_iff.mpr hok⟩

theorem not_sound_step {s : Client} (h : s.Kept) {e : Event} (hok : ¬s.Careful e) {s' : Client}
    (hstep : s.step e = some s') : ¬s'.Sound := by
  intro hsound
  cases e with
  | clone cloned =>
      obtain ⟨hphase, rfl⟩ := when_eq_some.mp hstep
      simp only [Careful, Classical.not_imp] at hok
      obtain ⟨haccepted, hlost⟩ := hok
      have hcount : (s.socket && cloned) = false := by
        rw [← Bool.not_eq_true, Bool.and_eq_true]
        exact hlost
      have hgone : s.registered = false := (hsound.accepted haccepted).2 (by rw [hcount]; rfl)
      rcases h.registered haccepted with ⟨-, hregistered⟩ | ⟨hended, -⟩
      · exact absurd (hgone.symm.trans hregistered) Bool.false_ne_true
      · rw [hphase] at hended
        cases hended
  | dial connected =>
      obtain ⟨hphase, rfl⟩ := when_eq_some.mp hstep
      simp only [Careful, Classical.not_imp, Bool.not_eq_false] at hok
      obtain ⟨rfl, hdetached⟩ := hok
      have honline : true = false := (hsound.detached hdetached).1
      cases honline
  | nudge =>
      obtain rfl := Option.some.inj hstep
      exact hok (returnsAtOnce_iff.mp (hsound.nudged rfl))
  | readEnds shortLived => exact hok True.intro
  | deregister => exact hok True.intro
  | count => exact hok True.intro
  | wake elapsed => exact hok True.intro
  | recount => exact hok True.intro
  | check => exact hok True.intro
  | outgoing written => exact hok True.intro
  | detach => exact hok True.intro

end Client

/-! ## Runs -/

/-- A run passes only through sound states exactly when all its steps are careful. -/
theorem tcp_lifecycle_iff (generation : UInt64) (origin : Origin) (events : List Event) :
    Runs.Always Client.step Client.Sound (Client.start generation origin) events ↔
      Runs.Meets Client.step Client.Careful (Client.start generation origin) events :=
  Runs.always_iff_meets (fun _ hs => Client.Kept.sound hs)
    (fun _ _ _ hs hok hstep => Client.kept_step hs hok hstep)
    (fun _ _ _ hs hok hstep => Client.not_sound_step hs hok hstep)
    (Client.kept_start generation origin) events

/-- `detach` between the look at `detached` and the connection leaves a connection behind, and a write
that fails before the loop of an accepted interface looks for the socket makes it dial. -/
theorem tcp_lifecycle_false :
    ¬Runs.Always Client.step Client.Sound (Client.start 0 (.dialled false none))
        [.clone true, .count, .wake true, .recount, .check, .detach, .dial true] ∧
      ¬Runs.Always Client.step Client.Sound (Client.start 0 .accepted)
        [.outgoing false, .clone true, .count, .wake true, .recount, .check, .dial true] := by
  refine ⟨fun h => ?_, fun h => ?_⟩
  · have honline := ((h _ _ List.prefix_rfl rfl).detached rfl).1
    exact absurd honline (by decide)
  · have hdialled := ((h _ _ List.prefix_rfl rfl).accepted rfl).1
    exact absurd hdialled (by decide)

end Reticulum.Interfaces.TcpLife
