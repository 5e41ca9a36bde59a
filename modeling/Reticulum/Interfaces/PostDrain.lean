import Reticulum.Interfaces.PostWorker

/-!
# What waits in the queue of a PostInterface

A worker in wake mode that waits under a session with packets in its queue waits for traffic
that has nothing to do with them. `drained_iff` says in which runs that does not happen, and
that the exchange loop does not turn over the same packets.

## Implementation notes

A turn has shortened the queue when the queue is shorter after its exchange than before. The
packets that come between the exchange and the check of a turn are not counted, but they make
the turn repeat.
-/

namespace Reticulum.Interfaces.Post

/-- No packet is stranded in a wait, and a turn that repeats has done something. -/
structure Drained (s : Worker) : Prop where
  idle : s.phase = .waiting true → s.iface.exchangeSignal = false → s.iface.outboundQueue = []
  progress : ∀ before after hasMore, s.phase = .pausing before after hasMore →
    after < before ∨ hasMore = true

/-- The sleep after a failed exchange ends with a signal or an empty queue, and a turn that is
to repeat for queued packets has found packets and was allowed to take some. -/
def Unstranded (s : Worker) : Move → Prop
  | .sleep _ => s.iface.exchangeSignal = true ∨ s.iface.outboundQueue = []
  | .check => ∀ before after, s.phase = .checking before after false →
      s.iface.outboundQueue = [] ∨ before ≠ 0 ∧ s.iface.maxBatchPackets ≠ 0
  | _ => True

/-- The invariant of the worker. Before the first registration nothing is queued, and an
exchange shortens a queue with packets as far as the limit allows. -/
structure Drains (s : Worker) : Prop where
  drained : Drained s
  starting : s.phase = .starting →
    s.iface.outboundQueue = [] ∧ s.iface.online = false ∧ s.iface.interfaceId.isSome = false
  sleeping : s.phase = .sleeping → s.iface.interfaceId.isSome = true
  checking : ∀ before after hasMore, s.phase = .checking before after hasMore →
    (after < before ↔ before ≠ 0 ∧ s.iface.maxBatchPackets ≠ 0)

namespace Drains

theorem start (isWakeMode : Bool) (configuredPollInterval : Option Nat) (now : Nat) :
    Drains (Worker.start isWakeMode configuredPollInterval now) where
  drained := ⟨fun h => (by cases h), fun _ _ _ h => (by cases h)⟩
  starting _ := ⟨rfl, rfl, rfl⟩
  sleeping h := by cases h
  checking _ _ _ h := by cases h

/-- At the top of the exchange loop, and after it, nothing is asked. -/
theorem of_phase {s : Worker} (h : s.phase = .turn ∨ s.phase = .ended ∨ s.phase = .waiting false) :
    Drains s := by
  rcases h with h | h | h
  all_goals
    refine ⟨⟨?_, ?_⟩, ?_, ?_, ?_⟩
    all_goals simp [h]

/-- A wait under a session begins. -/
theorem of_waiting {s : Worker} (hphase : s.phase = .waiting true)
    (h : s.iface.exchangeSignal = true ∨ s.iface.outboundQueue = []) : Drains s := by
  refine ⟨⟨?_, ?_⟩, ?_, ?_, ?_⟩
  · intro _ hsignal
    rcases h with htrue | hempty
    · rw [hsignal] at htrue
      cases htrue
    · exact hempty
  all_goals simp [hphase]

theorem of_await {s : Worker} (h : s.iface.exchangeSignal = true ∨ s.iface.outboundQueue = []) :
    Drains s.await := by
  cases hsession : s.iface.interfaceId.isSome with
  | true => exact of_waiting (by simp only [Worker.await, hsession]) h
  | false => exact of_phase (Or.inr (Or.inr (by simp only [Worker.await, hsession])))

/-- A packet comes in, or nothing changes. -/
theorem outgoing {s : Worker} (h : Drains s) (packet : Packet) :
    Drains { s with iface := (s.iface.processOutgoing packet).1 } := by
  rcases Worker.processOutgoing_cases s.iface packet with hsame | ⟨honline, hnew⟩
  · rw [hsame]
    exact h
  · rw [hnew]
    have hroom : s.iface.makeRoom.interfaceId = s.iface.interfaceId ∧
        s.iface.makeRoom.maxBatchPackets = s.iface.maxBatchPackets := by
      unfold PostInterface.makeRoom
      split
      · exact ⟨rfl, rfl⟩
      · exact ⟨rfl, rfl⟩
    obtain ⟨hid, hbatch⟩ := hroom
    refine ⟨⟨fun _ hsignal => (by cases hsignal), h.drained.progress⟩, ?_, ?_, ?_⟩
    · intro hphase
      rw [(h.starting hphase).2.1] at honline
      cases honline
    · intro hphase
      dsimp only [PostInterface.signal, PostInterface.enqueue]
      rw [hid]
      exact h.sleeping hphase
    · intro before after hasMore hphase
      dsimp only [PostInterface.signal, PostInterface.enqueue]
      rw [hbatch]
      exact h.checking before after hasMore hphase

theorem exchange {s : Worker} (ms : Nat) (reply : Reply) (took : Nat) :
    Drains (s.exchange ms reply took) := by
  rcases s.exchange_cases ms reply took with
    ⟨iface, hasMore, -, hbatch, hqueue, hnew⟩ | ⟨iface, -, hnew⟩ | ⟨iface, hid, hnew⟩
  · rw [hnew]
    refine ⟨⟨fun hphase => (by cases hphase), fun _ _ _ hphase => (by cases hphase)⟩,
      fun hphase => (by cases hphase), fun hphase => (by cases hphase), ?_⟩
    intro before after more hphase
    dsimp only at hphase ⊢
    injection hphase with hbefore hafter _
    have hlength : iface.outboundQueue.length =
        s.iface.outboundQueue.length - s.iface.maxBatchPackets := by
      rw [hqueue]
      exact List.length_drop
    rw [hbatch]
    omega
  · rw [hnew]
    exact of_phase (Or.inr (Or.inr rfl))
  · rw [hnew]
    exact ⟨⟨fun hphase => (by cases hphase), fun _ _ _ hphase => (by cases hphase)⟩,
      fun hphase => (by cases hphase), fun _ => hid, fun _ _ _ hphase => (by cases hphase)⟩

theorem step {s s' : Worker} (h : Drains s) {m : Move} (hok : Unstranded s m)
    (hstep : s.step m = some s') : Drains s' := by
  cases m with
  | start call took =>
      obtain ⟨hphase, rfl⟩ := Worker.of_start hstep
      obtain ⟨hempty, -, hid⟩ := h.starting hphase
      rcases s.firstRegister_cases call took hid with ⟨response, token, hnew⟩ | hnew
      · rw [hnew]
        exact of_waiting rfl (Or.inr hempty)
      · rw [hnew]
        exact of_phase (Or.inr (Or.inr rfl))
  | wait took =>
      obtain ⟨registered, hphase, rfl | ⟨rfl, -⟩ | ⟨rfl, -⟩⟩ := Worker.of_wait hstep
      · exact of_phase (Or.inr (Or.inl rfl))
      · exact of_phase (Or.inl rfl)
      · exact ⟨⟨h.drained.idle, h.drained.progress⟩, h.starting, h.sleeping, h.checking⟩
  | register call took =>
      obtain ⟨hphase, hid, rfl⟩ := Worker.of_register hstep
      rcases s.register_cases call took hid with ⟨response, token, hnew⟩ | hnew
      · rw [hnew]
        exact of_phase (Or.inl hphase)
      · rw [hnew]
        exact of_phase (Or.inr (Or.inr rfl))
  | exchange ms reply took =>
      obtain ⟨-, -, rfl⟩ := Worker.of_exchange hstep
      exact exchange ms reply took
  | check =>
      obtain ⟨before, after, hasMore, hphase, rfl⟩ := Worker.of_check hstep
      unfold Worker.check
      split
      · rename_i hagain
        refine ⟨⟨fun hphase => (by cases hphase), ?_⟩, fun hphase => (by cases hphase),
          fun hphase => (by cases hphase), fun _ _ _ hphase => (by cases hphase)⟩
        intro before' after' hasMore' hpausing
        obtain ⟨rfl, rfl, rfl⟩ := Phase.pausing.inj hpausing
        cases hasMore with
        | true => exact Or.inr rfl
        | false =>
            rcases hok before after hphase with hempty | hshorter
            · simp [hempty] at hagain
            · exact Or.inl ((h.checking before after false hphase).mpr hshorter)
      · rename_i hdone
        exact of_await (Or.inr (by simpa using (by simpa using hdone : _ ∧ _).2))
  | pause took =>
      obtain ⟨-, rfl⟩ := Worker.of_pause hstep
      exact of_phase (Or.inl rfl)
  | sleep took =>
      obtain ⟨-, rfl⟩ := Worker.of_sleep hstep
      exact of_await hok
  | outgoing packet =>
      obtain rfl := Option.some.inj hstep
      exact h.outgoing packet
  | wake =>
      obtain rfl := Option.some.inj hstep
      exact ⟨⟨fun _ hsignal => (by cases hsignal), h.drained.progress⟩, h.starting, h.sleeping,
        h.checking⟩
  | shutdown =>
      obtain rfl := Option.some.inj hstep
      exact ⟨⟨h.drained.idle, h.drained.progress⟩, h.starting, h.sleeping, h.checking⟩

/-- A step that strands a packet, or turns for nothing. -/
theorem not_drained {s s' : Worker} (h : Drains s) {m : Move} (hok : ¬Unstranded s m)
    (hstep : s.step m = some s') : ¬Drained s' := by
  cases m with
  | sleep took =>
      obtain ⟨hphase, rfl⟩ := Worker.of_sleep hstep
      intro hdrained
      apply hok
      cases hsignal : s.iface.exchangeSignal with
      | true => exact Or.inl hsignal
      | false =>
          have hwaiting : ({ s with now := s.now + took } : Worker).await.phase = .waiting true := by
            simp only [Worker.await, h.sleeping hphase]
          exact Or.inr (hdrained.idle hwaiting hsignal)
  | check =>
      obtain ⟨before, after, hasMore, hphase, rfl⟩ := Worker.of_check hstep
      intro hdrained
      apply hok
      intro before' after' hphase'
      rw [hphase] at hphase'
      obtain ⟨rfl, rfl, rfl⟩ := Phase.checking.inj hphase'
      cases hempty : s.iface.outboundQueue.isEmpty with
      | true => exact Or.inl (List.isEmpty_iff.mp hempty)
      | false =>
          have hpausing : (s.check before after false).phase = .pausing before after false := by
            simp [Worker.check, hempty]
          rcases hdrained.progress before after false hpausing with hshorter | hmore
          · exact Or.inr ((h.checking before after false hphase).mp hshorter)
          · cases hmore
  | _ => exact absurd True.intro hok

end Drains

/-- On a wake-mode interface no packet waits for unrelated traffic and no turn repeats for
nothing in exactly those runs in which every sleep after a failed exchange ends with a signal or
an empty queue, and a turn that is to repeat for queued packets has found some and was allowed to
take some. -/
theorem drained_iff (configuredPollInterval : Option Nat) (now : Nat) (moves : List Move) :
    Runs.Always Worker.step Drained (Worker.start true configuredPollInterval now) moves ↔
      Runs.Meets Worker.step Unstranded (Worker.start true configuredPollInterval now) moves :=
  Runs.always_iff_meets (I := Drains) (fun _ h => h.drained)
    (fun _ _ _ h hok hstep => h.step hok hstep)
    (fun _ _ _ h hok hstep => h.not_drained hok hstep)
    (Drains.start true configuredPollInterval now) moves

/-- The request of a packet's exchange fails, and the worker waits with the packet in the
queue. -/
theorem drained_false :
    ¬Runs.Always Worker.step Drained (Worker.start true none 0)
      [.start grantedCall 0, .outgoing { raw := [1, 2, 3], number := 0 }, .wait 0,
        .exchange 0 (.failed "reset") 0, .sleep (fromSecs 1)] := by
  intro h
  have hdrained := h _ _ List.prefix_rfl rfl
  exact absurd (hdrained.idle rfl rfl) (by decide)

end Reticulum.Interfaces.Post
