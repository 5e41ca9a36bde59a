import Reticulum.Link.Receive

/-!
# The watchdog of a link

`actor_watchdog_tick` tears down a link that is not established in time, moves
a link that has heard nothing for `stale_time` to STALE and tears it down after
a grace time. It runs after every message and once a second, unless the
watchdog lock is taken.
-/

namespace Reticulum.Link

/-- When the link was last heard of. -/
def lastHeard (l : Link) : Nat := max (max l.lastInbound l.lastProof) (l.activatedAt.getD 0)

/-- The keepalive of the initiator, when one is due. -/
def sendKeepalive (l : Link) (now : Nat) : Link :=
  if l.initiator ∧ l.lastKeepalive + l.keepalive ≤ now ∧ l.destination ≠ .poisoned then
    hadOutbound l now true
  else l

/-- The link has been silent for its `stale_time`. -/
def becomeStale (l : Link) (r : Readings) : Link :=
  { l with
    state := .stale, status := .stale, staleSince := some r.now, staleGrace := r.staleGrace }

/-- A teardown of the watchdog. -/
def timeOut (l : Link) (now : Nat) : Link := teardown { l with teardownReason := .timeout } now

/-- `actor_watchdog_tick`. The grace time is a saturated `u64`, so its sum may
wrap. -/
def actorWatchdogTick (l : Link) (r : Readings) : Link :=
  match l.state with
  | .pending | .handshake =>
      if l.requestTimeKnown ∧ r.establishmentOver then timeOut l r.now else l
  | .active =>
      if lastHeard l + l.keepalive ≤ r.now ∨ l.lastOutbound + l.keepalive ≤ r.now then
        if lastHeard l + l.staleTime ≤ r.now then becomeStale (sendKeepalive l r.now) r
        else sendKeepalive l r.now
      else l
  | .stale =>
      if (l.staleSince.getD 0 + max l.staleGrace 1) % 2 ^ 64 ≤ r.now then timeOut l r.now else l
  | .closed => l

/-- The watchdog as the actor runs it. -/
def watchdog (l : Link) (r : Readings) : Link :=
  if l.watchdogLock then l else actorWatchdogTick l r

variable {l : Link} {r : Readings}

theorem watchdogLock_teardown (now : Nat) : (teardown l now).watchdogLock = l.watchdogLock :=
  (frame_teardown now).watchdogLock

theorem watchdogLock_sendKeepalive (now : Nat) :
    (sendKeepalive l now).watchdogLock = l.watchdogLock := by
  unfold sendKeepalive
  split <;> rfl

/-- The watchdog takes no lock. -/
theorem watchdogLock_actorWatchdogTick :
    (actorWatchdogTick l r).watchdogLock = l.watchdogLock := by
  unfold actorWatchdogTick timeOut
  split
  · split
    · exact watchdogLock_teardown _
    · rfl
  · split
    · exact watchdogLock_teardown _
    · rfl
  · split
    · split
      · exact watchdogLock_sendKeepalive _
      · exact watchdogLock_sendKeepalive _
    · rfl
  · split
    · exact watchdogLock_teardown _
    · rfl
  · rfl

theorem watchdogLock_watchdog : (watchdog l r).watchdogLock = l.watchdogLock := by
  unfold watchdog
  split
  · rfl
  · exact watchdogLock_actorWatchdogTick

/-! ## Silence -/

/-- The fields that decide when an active link is stale. -/
def SameClock (l l' : Link) : Prop :=
  l'.watchdogLock = l.watchdogLock ∧ lastHeard l' = lastHeard l ∧
    l'.keepalive = l.keepalive ∧ l'.staleTime = l.staleTime

theorem sendKeepalive_active (now : Nat) : SameClock l (sendKeepalive l now) ∧
    (sendKeepalive l now).state = l.state := by
  unfold sendKeepalive
  split <;> exact ⟨⟨rfl, rfl, rfl, rfl⟩, rfl⟩

/-- A tick leaves an active link active, with its clock, or moves it to
STALE. -/
theorem watchdog_active (hlock : l.watchdogLock = false) (hstate : l.state = .active) :
    (SameClock l (watchdog l r) ∧ (watchdog l r).state = .active ∧
      ¬ lastHeard l + max l.keepalive l.staleTime ≤ r.now) ∨
    ((watchdog l r).watchdogLock = false ∧ (watchdog l r).state = .stale ∧
      (watchdog l r).staleSince = some r.now ∧ (watchdog l r).staleGrace = r.staleGrace) := by
  unfold watchdog
  rw [if_neg (by simp [hlock])]
  unfold actorWatchdogTick
  simp only [hstate]
  split
  · split
    · right
      refine ⟨?_, rfl, rfl, rfl⟩
      rw [← hlock]
      exact watchdogLock_sendKeepalive _
    · rename_i hstale
      left
      obtain ⟨hclock, hsame⟩ := sendKeepalive_active (l := l) r.now
      refine ⟨hclock, hsame.trans hstate, ?_⟩
      omega
  · rename_i hkeepalive
    left
    refine ⟨⟨rfl, rfl, rfl, rfl⟩, hstate, ?_⟩
    omega

/-- A tick leaves a stale link as it is, or tears it down. -/
theorem watchdog_stale {since : Nat} (hlock : l.watchdogLock = false) (hstate : l.state = .stale)
    (hsince : l.staleSince = some since) :
    (watchdog l r = l ∧ ¬ since + max l.staleGrace 1 ≤ r.now) ∨ (watchdog l r).state = .closed := by
  unfold watchdog
  rw [if_neg (by simp [hlock])]
  unfold actorWatchdogTick
  simp only [hstate, hsince, Option.getD_some]
  split
  · right
    unfold timeOut teardown
    split <;> rfl
  · rename_i hwait
    left
    refine ⟨rfl, ?_⟩
    have := Nat.mod_le (since + max l.staleGrace 1) (2 ^ 64)
    omega

end Reticulum.Link
