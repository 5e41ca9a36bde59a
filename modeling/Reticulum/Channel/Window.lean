import Reticulum.Channel.Interleaving

/-!
# The window of a channel

A delivery lets the window grow, a timeout shrinks it, and ten rounds at a fast or a medium rate
raise its bounds (`packet_tx_op`, `packet_timeout`). The rounds are counted only while the window
grows, and a timeout of a packet that is in the ring waits for itself before it shrinks anything.
So the window of a new channel grows from 2 to 5 and stays there (`window_kept`), and ten fast
deliveries raise the bound only from some states (`promoted_iff`).

## Implementation notes

Every interleaving of the pieces of the calls is a run. A comparison of several readings of `rtt`
takes a branch that one reading takes as well, so each piece is given one.
-/

namespace Reticulum.Channel

open Lock Lock.Call Runs

variable {Msg Packet : Type}

/-! ## The law of the window -/

/-- The bounds of the window are in order. -/
structure Windowed (c : Inner Msg Packet) : Prop where
  least : c.windowMin ≤ c.window
  most : c.window ≤ c.windowMax
  bounded : c.windowMax ≤ windowMax

/-- The send of this thread returns its envelope. -/
def Sends [MessageBase Msg] (s : Threaded Msg Packet) (i : Nat) (outlet : Outlet Packet)
    (s' : Threaded Msg Packet) : Prop :=
  (∃ envelope rest, s.threads[i]? = some (.refresh envelope :: rest)) ∧
    Threads.step (calls Msg Packet) s (.run i outlet) = some s' ∧ s'.core.stuck = false

/-- A channel whose window has grown at most from 2 to 5, a round for each step, or is 1. -/
def FirstGrowth (c : Inner Msg Packet) : Prop :=
  (c.windowMin = 1 ∧ c.window = 1 ∧ c.windowMax = 1) ∨
    (c.windowMin = 2 ∧ c.windowMax = 5 ∧ c.window ≤ 5 ∧ c.fastRateRounds + 2 ≤ c.window ∧
      c.mediumRateRounds + 2 ≤ c.window)

theorem FirstGrowth.windowed {c : Inner Msg Packet} (h : FirstGrowth c) : Windowed c := by
  rcases h with ⟨hmin, hwindow, hmax⟩ | ⟨hmin, hmax, hwindow, hfast, -⟩
  · exact ⟨by omega, by omega, by rw [hmax]; decide⟩
  · exact ⟨by omega, by omega, by rw [hmax]; decide⟩

theorem firstGrowth_new (factories : Factories Msg) (callbacks : List (Msg → Bool)) (rtt : ℚ) :
    FirstGrowth (Inner.new factories callbacks rtt : Inner Msg Packet) := by
  unfold FirstGrowth Inner.new
  by_cases hslow : rttSlow < rtt
  · left
    simp [hslow]
  · right
    simp [hslow]

theorem FirstGrowth.of_sameWindow {c c' : Inner Msg Packet} (h : FirstGrowth c)
    (hsame : SameWindow c c') : FirstGrowth c' := by
  unfold FirstGrowth
  rw [hsame.windowMin, hsame.window, hsame.windowMax, hsame.fastRateRounds,
    hsame.mediumRateRounds]
  exact h

/-- A growth of three steps is too short for a promotion. -/
theorem FirstGrowth.grow {c : Inner Msg Packet} (h : FirstGrowth c) (rtt : ℚ) :
    FirstGrowth (growWindow rtt c) := by
  rcases h with ⟨hmin, hwindow, hmax⟩ | ⟨hmin, hmax, hwindow, hfast, hmedium⟩
  · have hfull : ¬c.window < c.windowMax := by omega
    unfold growWindow
    rw [if_neg hfull]
    exact .inl ⟨hmin, hwindow, hmax⟩
  · right
    have hfastRounds : c.window < c.windowMax → c.fastRateRounds + 1 ≠ fastRateThreshold := by
      unfold fastRateThreshold
      omega
    have hmediumRounds : c.window < c.windowMax →
        c.mediumRateRounds + 1 ≠ fastRateThreshold := by
      unfold fastRateThreshold
      omega
    unfold growWindow
    dsimp only
    split
    · rename_i hgrows
      have hfast' := hfastRounds hgrows
      have hmedium' := hmediumRounds hgrows
      split
      · split
        · split
          · exact ⟨hmin, hmax, by dsimp only; omega, by dsimp only; omega, by dsimp only; omega⟩
          · rw [if_neg fun hpromoted => hmedium' hpromoted.2]
            exact ⟨hmin, hmax, by dsimp only; omega, by dsimp only; omega, by dsimp only; omega⟩
        · rw [if_neg fun hpromoted => hfast' hpromoted.2]
          exact ⟨hmin, hmax, by dsimp only; omega, by dsimp only; omega, by dsimp only; omega⟩
      · exact ⟨hmin, hmax, by dsimp only; omega, by dsimp only; omega, by dsimp only; omega⟩
    · exact ⟨hmin, hmax, hwindow, hfast, hmedium⟩

/-- Were the lock given to a call that holds it, so that timeouts shrank the window, the rounds of
a window that grows and shrinks between 2 and 3 would add up, and the tenth would raise
`window_min` above it. -/
example :
    let new : Inner Empty Unit := Inner.new (fun _ => none) [] 0
    let round := fun c : Inner Empty Unit => shrinkWindow (growWindow (1 / 2) c)
    let c := growWindow (1 / 2) (round^[9] new)
    c.window = 3 ∧ c.windowMin = 5 := by
  decide +kernel

/-! ## What a turn does to the window -/

variable {outlet : Outlet Packet} {piece : Piece Msg Packet} {turn : Turn Msg Packet}

section Turns

theorem run_sameWindow {A : Type} {c : Shared Msg Packet} {call : Call (Inner Msg Packet) A}
    {next : A → List (Piece Msg Packet)} (h : LeavesWindow call) :
    SameWindow c.inner (c.run piece call next).core.inner := by
  unfold Shared.run
  cases hcall : call c.stuck c.inner with
  | none => exact SameWindow.refl c.inner
  | some result => exact h c.stuck c.inner result.1 result.2 hcall

theorem leavesWindow_timedOut (outlet : Outlet Packet) (packet : Packet) (maxTries : Nat) :
    LeavesWindow (packetTxOp outlet packet (retry outlet maxTries) :
      Call (Inner Msg Packet) Unit) := by
  intro held c a c' hcall
  rw [timedOut_eq_some hcall]
  exact SameWindow.refl c

variable [MessageBase Msg]

/-- The piece takes an envelope out of the ring and lets the window grow. -/
def Piece.delivers (outlet : Outlet Packet) (c : Shared Msg Packet) : Piece Msg Packet → Bool
  | .delivered packet => !c.stuck && c.inner.txRing.any (outlet.matchesPacket packet)
  | _ => false

/-- The piece finds the envelope of a packet that timed out. -/
def Piece.timesOut (outlet : Outlet Packet) (c : Shared Msg Packet) : Piece Msg Packet → Bool
  | .timedOut packet _ => !c.stuck && c.inner.txRing.any (outlet.matchesPacket packet)
  | _ => false

/-- A piece that delivers nothing leaves the window alone. -/
theorem exec_sameWindow {c : Shared Msg Packet} (h : piece.delivers outlet c = false) :
    SameWindow c.inner (piece.exec outlet c).core.inner := by
  cases piece with
  | ready message => exact run_sameWindow (leavesWindow_isReadyToSend outlet)
  | number message => exact run_sameWindow leavesWindow_takeSequence
  | transmit sequence raw => exact run_sameWindow (leavesWindow_ask _)
  | keep envelope => exact run_sameWindow (leavesWindow_keepEnvelope envelope)
  | arm envelope =>
      unfold Piece.exec
      dsimp only
      cases hpacket : envelope.packet with
      | none => exact SameWindow.refl c.inner
      | some packet => exact run_sameWindow (leavesWindow_armEnvelope outlet envelope packet)
  | refresh envelope => exact run_sameWindow (leavesWindow_updatePacketTimeouts outlet)
  | accept raw => exact run_sameWindow (leavesWindow_acceptRaw raw)
  | callbacks contiguous => exact run_sameWindow leavesWindow_readCallbacks
  | shutdown => exact run_sameWindow leavesWindow_shutdown
  | readTries packet => exact run_sameWindow leavesWindow_readMaxTries
  | timedOut packet maxTries =>
      exact run_sameWindow (leavesWindow_timedOut outlet packet maxTries)
  | delivered packet =>
      cases hstuck : c.stuck with
      | true =>
          unfold Piece.exec Shared.run
          dsimp only
          rw [hstuck]
          exact SameWindow.refl c.inner
      | false =>
          have hnone : c.inner.txRing.any (outlet.matchesPacket packet) = false := by
            simpa [Piece.delivers, hstuck] using h
          unfold Piece.exec Shared.run
          dsimp only
          rw [hstuck, packetDelivered_free, hnone]
          exact SameWindow.refl c.inner

/-- A delivery lets the window grow. -/
theorem exec_delivers {c : Shared Msg Packet} (h : piece.delivers outlet c = true) :
    ∃ ring, (piece.exec outlet c).core.inner =
      growWindow outlet.rtt { c.inner with txRing := ring } := by
  cases piece with
  | delivered packet =>
      obtain ⟨hstuck, hany⟩ : c.stuck = false ∧
          c.inner.txRing.any (outlet.matchesPacket packet) = true := by
        simpa [Piece.delivers] using h
      refine ⟨c.inner.txRing.eraseP (outlet.matchesPacket packet), ?_⟩
      unfold Piece.exec Shared.run
      dsimp only
      rw [hstuck, packetDelivered_free, if_pos hany]
  | _ => cases h

/-- Timeouts are updated without waiting only when the ring is empty. -/
theorem exec_refresh {envelope : TxEnvelope Packet} {c : Shared Msg Packet}
    (h : ((Piece.refresh envelope : Piece Msg Packet).exec outlet c).core.stuck = false) :
    ((Piece.refresh envelope : Piece Msg Packet).exec outlet c).core.inner.txRing = [] := by
  unfold Piece.exec Shared.run at h ⊢
  dsimp only at h ⊢
  cases hstuck : c.stuck with
  | true =>
      rw [hstuck] at h
      cases h
  | false =>
      rw [hstuck] at h
      by_cases hring : c.inner.txRing = []
      · have hcall : updatePacketTimeouts outlet false c.inner = some ((), c.inner) := by
          simp [updatePacketTimeouts, hring]
        rw [hcall]
        exact hring
      · rw [updatePacketTimeouts_eq_none outlet c.inner hring] at h
        cases h

/-- The turn delivers a packet of the ring. -/
def delivers (s : Threaded Msg Packet) : Turn Msg Packet → Bool
  | .call _ => false
  | .run i outlet =>
      match s.threads[i]? with
      | some (piece :: _) => piece.delivers outlet s.core
      | _ => false

/-- The turn finds a packet of the ring that timed out. -/
def timesOut (s : Threaded Msg Packet) : Turn Msg Packet → Bool
  | .call _ => false
  | .run i outlet =>
      match s.threads[i]? with
      | some (piece :: _) => piece.timesOut outlet s.core
      | _ => false

/-- A turn lets the window grow or leaves it alone. -/
theorem step_window {s s' : Threaded Msg Packet}
    (h : Threads.step (calls Msg Packet) s turn = some s') :
    (delivers s turn = true ∧ ∃ i outlet ring, turn = .run i outlet ∧
      s'.core.inner = growWindow outlet.rtt { s.core.inner with txRing := ring }) ∨
    delivers s turn = false ∧ SameWindow s.core.inner s'.core.inner := by
  rcases Threads.step_cases h with ⟨entry, rfl, hcore, -⟩ |
    ⟨i, outlet, piece, rest, others, rfl, hthread, hcore, -, -⟩
  · right
    rw [hcore]
    exact ⟨rfl, SameWindow.refl s.core.inner⟩
  · have hdelivers : delivers s (.run i outlet) = piece.delivers outlet s.core := by
      unfold delivers
      dsimp only
      rw [hthread]
    have hexec : s'.core.inner = (piece.exec outlet s.core).core.inner := by
      rw [hcore]
      rfl
    rw [hdelivers, hexec]
    cases hpiece : piece.delivers outlet s.core with
    | true =>
        obtain ⟨ring, hgrown⟩ := exec_delivers hpiece
        exact .inl ⟨rfl, i, outlet, ring, rfl, hgrown⟩
    | false => exact .inr ⟨rfl, exec_sameWindow hpiece⟩

end Turns

/-! ## The window of a new channel -/

section New

variable [MessageBase Msg]

theorem firstGrowth_step {s s' : Threaded Msg Packet} (h : FirstGrowth s.core.inner)
    (hstep : Threads.step (calls Msg Packet) s turn = some s') : FirstGrowth s'.core.inner := by
  rcases step_window hstep with ⟨-, i, outlet, ring, -, hgrown⟩ | ⟨-, hsame⟩
  · rw [hgrown]
    apply FirstGrowth.grow
    exact h
  · exact h.of_sameWindow hsame

theorem sends_ring {s s' : Threaded Msg Packet} {i : Nat} (h : Sends s i outlet s') :
    s'.core.inner.txRing = [] := by
  obtain ⟨⟨envelope, rest, hthread⟩, hstep, hfree⟩ := h
  have hcore : s'.core = ((Piece.refresh envelope : Piece Msg Packet).exec outlet s.core).core := by
    unfold Threads.step at hstep
    dsimp only at hstep
    rw [hthread] at hstep
    cases hstep
    rfl
  rw [hcore] at hfree ⊢
  exact exec_refresh hfree

/-- Whatever calls and threads there are and however they interleave, the bounds of the window of a
channel that was opened stay in order, and after a send that returned its envelope at most a window
of envelopes is undelivered. -/
theorem window_kept (factories : Factories Msg) (callbacks : List (Msg → Bool)) (rtt : ℚ)
    (turns : List (Turn Msg Packet)) :
    Always (Threads.step (calls Msg Packet))
      (fun s => Windowed s.core.inner ∧ ∀ i outlet s', Sends s i outlet s' →
        s'.core.inner.txRing.countP outlet.outstanding ≤ s'.core.inner.window)
      (opened factories callbacks rtt) turns := by
  intro done s _ hrun
  have hgrowth : FirstGrowth s.core.inner :=
    invariant_of_step (P := fun s : Threaded Msg Packet => FirstGrowth s.core.inner)
      (fun _ _ _ h hstep => firstGrowth_step h hstep) (firstGrowth_new factories callbacks rtt) hrun
  refine ⟨hgrowth.windowed, ?_⟩
  intro i outlet s' hsends
  rw [sends_ring hsends]
  exact Nat.zero_le _

end New

/-! ## Promotion -/

/-- The bound is at its end, or the rounds that the growth of the window leaves are enough to reach
the threshold. -/
def CanPromote (c : Inner Msg Packet) : Prop :=
  c.windowMax = windowMax ∨
    c.windowMax < windowMax ∧ c.fastRateRounds < fastRateThreshold ∧
      fastRateThreshold ≤ c.fastRateRounds + (c.windowMax - c.window)

section Fast

variable {c c' : Inner Msg Packet} {rtt : ℚ}

theorem CanPromote.congr (h : SameWindow c c') : CanPromote c' ↔ CanPromote c := by
  unfold CanPromote
  rw [h.windowMax, h.fastRateRounds, h.window]

theorem growWindow_full (rtt : ℚ) (h : ¬c.window < c.windowMax) : growWindow rtt c = c := by
  unfold growWindow
  rw [if_neg h]

/-- A fast delivery counts a round and raises the bound at the tenth. -/
theorem growWindow_fast (hpos : 0 < rtt) (hfast : rtt ≤ rttFast) (h : c.window < c.windowMax) :
    (growWindow rtt c).window = c.window + 1 ∧
      (growWindow rtt c).fastRateRounds = c.fastRateRounds + 1 ∧
      (growWindow rtt c).windowMax =
        if c.windowMax < windowMax ∧ c.fastRateRounds + 1 = fastRateThreshold then windowMax
        else c.windowMax := by
  unfold growWindow
  rw [if_pos h]
  dsimp only
  rw [if_pos hpos.ne', if_neg (not_lt.mpr hfast)]
  split <;> exact ⟨rfl, rfl, rfl⟩

/-- At its end the bound stays, and the window grows with each delivery until it is there. -/
theorem growWindow_end (rtt : ℚ) (h : c.windowMax = windowMax) :
    (growWindow rtt c).windowMax = windowMax ∧
      (growWindow rtt c).window = if c.window < windowMax then c.window + 1 else c.window := by
  by_cases hgrows : c.window < windowMax
  swap
  · rw [if_neg hgrows, growWindow_full rtt (h ▸ hgrows)]
    exact ⟨h, rfl⟩
  have hmedium : ¬c.windowMax < windowMaxMedium := by
    rw [h]
    decide
  have hend : ¬c.windowMax < windowMax := by omega
  unfold growWindow
  rw [if_pos hgrows, h, if_pos hgrows]
  dsimp only
  rw [h] at hmedium hend
  split
  · split
    · split
      · exact ⟨rfl, rfl⟩
      · rw [if_neg fun hraise => hmedium hraise.1]
        exact ⟨rfl, rfl⟩
    · rw [if_neg fun hraise => hend hraise.1]
      exact ⟨rfl, rfl⟩
  · exact ⟨rfl, rfl⟩

/-- A fast delivery neither makes a promotion possible nor impossible. -/
theorem canPromote_fast (hpos : 0 < rtt) (hfast : rtt ≤ rttFast) :
    CanPromote (growWindow rtt c) ↔ CanPromote c := by
  by_cases hgrows : c.window < c.windowMax
  swap
  · rw [growWindow_full rtt hgrows]
  obtain ⟨hwindow, hrounds, hmax⟩ := growWindow_fast hpos hfast hgrows
  unfold CanPromote
  rw [hwindow, hrounds, hmax]
  unfold fastRateThreshold windowMax
  split <;> omega

/-- While a promotion is due, each fast delivery counts a round. -/
theorem CanPromote.counts (h : CanPromote c) (hbelow : c.windowMax < windowMax) (hpos : 0 < rtt)
    (hfast : rtt ≤ rttFast) :
    (growWindow rtt c).windowMax = windowMax ∨
      (growWindow rtt c).windowMax < windowMax ∧
        (growWindow rtt c).fastRateRounds = c.fastRateRounds + 1 := by
  have hgrows : c.window < c.windowMax := by
    rcases h with hend | ⟨-, hrounds, henough⟩
    · omega
    · omega
  obtain ⟨-, hrounds, hmax⟩ := growWindow_fast hpos hfast hgrows
  rw [hmax]
  split
  · exact .inl rfl
  · exact .inr ⟨hbelow, hrounds⟩

end Fast

section Deliveries

variable [MessageBase Msg] {s s' : Threaded Msg Packet} {turns : List (Turn Msg Packet)}

/-- The deliveries among these turns. -/
def deliveries (s : Threaded Msg Packet) : List (Turn Msg Packet) → Nat
  | [] => 0
  | turn :: turns => (if delivers s turn then 1 else 0) +
      match Threads.step (calls Msg Packet) s turn with
      | none => 0
      | some s' => deliveries s' turns

/-- The outlet reads a fast `rtt` at a delivery, and no packet of the ring times out. -/
def FastTurn (s : Threaded Msg Packet) : Turn Msg Packet → Prop
  | .call _ => True
  | .run i outlet => (delivers s (.run i outlet) = true → 0 < outlet.rtt ∧ outlet.rtt ≤ rttFast) ∧
      timesOut s (.run i outlet) = false

instance (s : Threaded Msg Packet) : DecidablePred (FastTurn s)
  | .call _ => inferInstanceAs (Decidable True)
  | .run i outlet => inferInstanceAs (Decidable ((delivers s (.run i outlet) = true →
      0 < outlet.rtt ∧ outlet.rtt ≤ rttFast) ∧ timesOut s (.run i outlet) = false))

/-- The bound of the window is at its end, and the window grows with each further delivery until
it is there as well. -/
def Promoted (s : Threaded Msg Packet) : Prop :=
  s.core.inner.windowMax = windowMax ∧
    ∀ turns s', exec (Threads.step (calls Msg Packet)) s turns = some s' →
      s'.core.inner.windowMax = windowMax ∧
        s'.core.inner.window =
          max s.core.inner.window (min windowMax (s.core.inner.window + deliveries s turns))

theorem deliveries_cons {m : Threaded Msg Packet}
    (h : Threads.step (calls Msg Packet) s turn = some m) (turns : List (Turn Msg Packet)) :
    deliveries s (turn :: turns) = (if delivers s turn then 1 else 0) + deliveries m turns := by
  conv_lhs => unfold deliveries
  rw [h]

theorem promoted_of_end (h : s.core.inner.windowMax = windowMax) : Promoted s := by
  refine ⟨h, fun turns => ?_⟩
  induction turns generalizing s with
  | nil =>
      intro s' hrun
      obtain rfl : s = s' := by simpa using hrun
      refine ⟨h, ?_⟩
      unfold deliveries
      omega
  | cons turn turns ih =>
      intro s' hrun
      obtain ⟨m, hstep, hrest⟩ := exec_cons_eq_some.mp hrun
      rw [deliveries_cons hstep]
      rcases step_window hstep with ⟨hdelivers, i, outlet, ring, -, hgrown⟩ | ⟨hdelivers, hsame⟩
      · obtain ⟨hmax, hwindow⟩ := growWindow_end (c := { s.core.inner with txRing := ring })
          outlet.rtt h
        rw [← hgrown] at hmax hwindow
        obtain ⟨hmax', hwindow'⟩ := ih hmax s' hrest
        refine ⟨hmax', ?_⟩
        rw [hwindow', hwindow, hdelivers, if_pos rfl]
        unfold windowMax
        dsimp only
        split <;> omega
      · obtain ⟨hmax', hwindow'⟩ := ih (hsame.windowMax.trans h) s' hrest
        refine ⟨hmax', ?_⟩
        rw [hwindow', hsame.window, hdelivers, if_neg Bool.false_ne_true, Nat.zero_add]

/-- A turn of a fast run. -/
theorem canPromote_step (hfast : FastTurn s turn)
    (hstep : Threads.step (calls Msg Packet) s turn = some s') :
    CanPromote s'.core.inner ↔ CanPromote s.core.inner := by
  rcases step_window hstep with ⟨hdelivers, i, outlet, ring, rfl, hgrown⟩ | ⟨-, hsame⟩
  · obtain ⟨hpos, hle⟩ := hfast.1 hdelivers
    rw [hgrown, canPromote_fast hpos hle]
    exact Iff.rfl
  · exact CanPromote.congr hsame

theorem canPromote_run (hfast : Meets (Threads.step (calls Msg Packet)) FastTurn s turns)
    (hrun : exec (Threads.step (calls Msg Packet)) s turns = some s') :
    CanPromote s'.core.inner ↔ CanPromote s.core.inner :=
  invariant (P := fun m : Threaded Msg Packet => CanPromote m.core.inner ↔ CanPromote s.core.inner)
    (fun _ _ _ h hok hstep => (canPromote_step hok hstep).trans h) Iff.rfl hfast hrun

/-- Until the bound is raised, every delivery of a fast run counts a round. -/
theorem rounds_run (h : CanPromote s.core.inner)
    (hfast : Meets (Threads.step (calls Msg Packet)) FastTurn s turns)
    (hrun : exec (Threads.step (calls Msg Packet)) s turns = some s') :
    s'.core.inner.windowMax = windowMax ∨
      s'.core.inner.fastRateRounds = s.core.inner.fastRateRounds + deliveries s turns := by
  induction turns generalizing s with
  | nil =>
      obtain rfl : s = s' := by simpa using hrun
      exact .inr rfl
  | cons turn turns ih =>
      obtain ⟨m, hstep, hrest⟩ := exec_cons_eq_some.mp hrun
      obtain ⟨hturn, hmeets⟩ := hfast m hstep
      have hm : CanPromote m.core.inner := (canPromote_step hturn hstep).mpr h
      by_cases hend : m.core.inner.windowMax = windowMax
      · exact .inl ((promoted_of_end hend).2 turns s' hrest).1
      rcases ih hm hmeets hrest with hraised | hrounds
      · exact .inl hraised
      right
      rw [hrounds, deliveries_cons hstep]
      rcases step_window hstep with ⟨hdelivers, i, outlet, ring, rfl, hgrown⟩ | ⟨hdelivers, hsame⟩
      · obtain ⟨hpos, hle⟩ := hturn.1 hdelivers
        have hbelow : s.core.inner.windowMax < windowMax := by
          rcases h with hmax | ⟨hmax, -⟩
          · exact absurd ((promoted_of_end hmax).2 [.run i outlet] m
              (exec_cons_eq_some.mpr ⟨m, hstep, rfl⟩)).1 hend
          · exact hmax
        rcases CanPromote.counts (c := { s.core.inner with txRing := ring }) h hbelow hpos hle with
          hmax | ⟨-, hcounted⟩
        · rw [← hgrown] at hmax
          exact absurd hmax hend
        · rw [← hgrown] at hcounted
          rw [hcounted, hdelivers, if_pos rfl, Nat.add_assoc]
      · rw [hsame.fastRateRounds, hdelivers, if_neg Bool.false_ne_true, Nat.zero_add]

/-- After ten or more fast deliveries without a timeout the bound of the window is raised, and the
window grows up to it, if and only if it was raised before or fewer than ten rounds were counted
and there is room in the window for the rest. -/
theorem promoted_iff (s s' : Threaded Msg Packet) (turns : List (Turn Msg Packet))
    (hfast : Meets (Threads.step (calls Msg Packet)) FastTurn s turns)
    (hrun : exec (Threads.step (calls Msg Packet)) s turns = some s')
    (hcount : fastRateThreshold ≤ deliveries s turns) : Promoted s' ↔ CanPromote s.core.inner := by
  constructor
  · intro hpromoted
    exact (canPromote_run hfast hrun).mp (.inl hpromoted.1)
  · intro h
    apply promoted_of_end
    rcases rounds_run h hfast hrun with hraised | hrounds
    · exact hraised
    · rcases (canPromote_run hfast hrun).mpr h with hend | ⟨-, hfew, -⟩
      · exact hend
      · omega

end Deliveries

section Samples

/-- An outlet with a fast round-trip time, which takes a message without a payload. -/
def fastOutlet : Outlet Unit :=
  { isUsable := true, mdu := 6, rtt := 1 / 10, getPacketState := fun _ => .sent
    getPacketId := fun _ => some [], send := fun _ => () }

/-- A message is sent and delivered before its send is over. -/
def sampleRound (k : Nat) : List (Turn Ping Unit) :=
  [.call (.send .ping)] ++ List.replicate 5 (.run (2 * k) fastOutlet) ++
    [.call (.packetDelivered ()), .run (2 * k + 1) fastOutlet, .run (2 * k) fastOutlet]

/-- Ten such messages. -/
def sampleTurns : List (Turn Ping Unit) := (List.range 10).flatMap sampleRound

/-- The channel on which they are sent. -/
def sampleOpened : Threaded Ping Unit := opened (fun _ => none) [] (1 / 10)

set_option maxRecDepth 4000 in
theorem sampleTurns_facts :
    (exec (Threads.step (calls Ping Unit)) sampleOpened sampleTurns).isSome = true ∧
      Meets (Threads.step (calls Ping Unit)) FastTurn sampleOpened sampleTurns ∧
      fastRateThreshold ≤ deliveries sampleOpened sampleTurns := by
  decide +kernel

theorem not_canPromote_opened : ¬CanPromote sampleOpened.core.inner := by
  rintro (hend | ⟨-, -, henough⟩)
  · exact absurd hend (by decide +kernel)
  · exact absurd henough (by decide +kernel)

theorem promoted_iff_sample :
    ∃ s', exec (Threads.step (calls Ping Unit)) sampleOpened sampleTurns = some s' ∧
      (Promoted s' ↔ CanPromote sampleOpened.core.inner) := by
  obtain ⟨hsome, hfast, hcount⟩ := sampleTurns_facts
  obtain ⟨s', hrun⟩ := Option.isSome_iff_exists.mp hsome
  exact ⟨s', hrun, promoted_iff sampleOpened s' sampleTurns hfast hrun hcount⟩

/-- Ten fast deliveries on a channel that was just opened raise no bound: the window is full after
three. -/
theorem promoted_false :
    ¬∀ (Msg Packet : Type) (_ : MessageBase Msg) (factories : Factories Msg)
        (callbacks : List (Msg → Bool)) (rtt : ℚ) (before turns : List (Turn Msg Packet))
        (s s' : Threaded Msg Packet), rtt ≤ rttSlow →
      exec (Threads.step (calls Msg Packet)) (opened factories callbacks rtt) before = some s →
      Meets (Threads.step (calls Msg Packet)) FastTurn s turns →
      exec (Threads.step (calls Msg Packet)) s turns = some s' →
      fastRateThreshold ≤ deliveries s turns → Promoted s' := by
  intro hall
  obtain ⟨hsome, hfast, hcount⟩ := sampleTurns_facts
  obtain ⟨s', hrun⟩ := Option.isSome_iff_exists.mp hsome
  have hpromoted := hall Ping Unit inferInstance (fun _ => none) [] (1 / 10) [] sampleTurns
    sampleOpened s' (by decide +kernel) rfl hfast hrun hcount
  exact not_canPromote_opened ((canPromote_run hfast hrun).mp (.inl hpromoted.1))

end Samples

end Reticulum.Channel
