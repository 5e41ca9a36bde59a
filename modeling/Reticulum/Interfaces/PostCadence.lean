import Reticulum.Interfaces.PostWorker

/-!
# The registration cadence of a PostInterface

What the calls of the worker so far say: whether there is a session, whether it has carried an
exchange, and how many registrations failed since the last exchange that did not.
`registration_cadence` gives the times between registrations in every run.

## Implementation notes

Everything is read off the list of calls, the newest first, and not off the counters of the
worker. The time between two registrations is from the end of the first to the start of the
second. The wait for a registration is from the end of the call that left the worker without a
session.
-/

namespace Reticulum.Interfaces.Post

/-- The calls end with a session. -/
def holds : List Entry → Bool
  | [] => false
  | .registration _ _ granted :: _ => granted
  | .exchange _ _ .lost :: _ => false
  | .exchange _ _ .carried :: _ => true
  | .exchange _ _ .failed :: log => holds log

/-- An exchange succeeded since the last registration. -/
def carried : List Entry → Bool
  | [] => false
  | .registration _ _ _ :: _ => false
  | .exchange _ _ .carried :: _ => true
  | .exchange _ _ _ :: log => carried log

/-- Registrations that failed, or lost their session before it carried an exchange, since the
last successful exchange. -/
def failures : List Entry → Nat
  | [] => 0
  | .registration _ _ granted :: log => if granted then failures log else failures log + 1
  | .exchange _ _ .carried :: _ => 0
  | .exchange _ _ .failed :: log => failures log
  | .exchange _ _ .lost :: log => if carried log then failures log else failures log + 1

/-- When the last call ended. -/
def lastStop : List Entry → Nat
  | [] => 0
  | .registration _ stop _ :: _ => stop
  | .exchange _ stop _ :: _ => stop

/-- When the last registration ended. -/
def lastRegistration : List Entry → Option Nat
  | [] => none
  | .registration _ stop _ :: _ => some stop
  | .exchange _ _ _ :: log => lastRegistration log

/-- Calls follow one another. Exchanges are made under a session and registrations without one,
a registration no earlier than the backoff after the one before unless an exchange succeeded
between them, and no later than the backoff and one slice after the last call. -/
def Cadence : List Entry → Prop
  | [] => True
  | .exchange start stop _ :: log =>
      Cadence log ∧ lastStop log ≤ start ∧ start ≤ stop ∧ holds log = true
  | .registration start stop _ :: log =>
      Cadence log ∧ lastStop log ≤ start ∧ start ≤ stop ∧ holds log = false ∧
        (carried log = false → ∀ prior ∈ lastRegistration log,
          prior + registrationBackoff (failures log) ≤ start) ∧
        (log ≠ [] → start ≤ lastStop log + registrationBackoff (failures log) + waitingSlice)

theorem Cadence.lastRegistration_le {log : List Entry} (h : Cadence log) :
    ∀ prior ∈ lastRegistration log, prior ≤ lastStop log := by
  induction log with
  | nil => intro prior hprior; cases hprior
  | cons entry log ih =>
      cases entry with
      | registration start stop granted =>
          intro prior hprior
          obtain rfl : stop = prior := Option.some.inj hprior
          exact Nat.le_refl _
      | exchange start stop outcome =>
          intro prior hprior
          obtain ⟨hlog, hstart, hstop, -⟩ := h
          exact Nat.le_trans (ih hlog prior hprior) (Nat.le_trans hstart hstop)

namespace Worker

/-- Waits that nobody ends early, the i-th of them this much late. -/
def waitOut (s : Worker) : Nat → (Nat → Nat) → Worker
  | 0, _ => s
  | n + 1, late =>
      ((s.step (.wait (s.slice false + late 0))).getD s).waitOut n fun i => late (i + 1)

end Worker

/-- The calls keep the cadence, a wait without a session stays within the backoff and one slice,
and it ends with a registration although nobody signals. -/
structure Paced (s : Worker) : Prop where
  session : holds s.log = s.iface.interfaceId.isSome
  cadence : Cadence s.log
  bounded : s.phase = .waiting false →
    s.now ≤ lastStop s.log + registrationBackoff (failures s.log) + waitingSlice
  ends : s.phase = .waiting false → s.iface.running = true →
    ∀ late : Nat → Nat, (∀ i, late i ≤ waitingSlice) →
      ∃ n, (s.waitOut n late).phase = .turn ∧
        (s.waitOut n late).iface.interfaceId.isSome = false

/-! ## The wait without a session -/

variable {s : Worker}

namespace Worker

theorem slice_false_le (s : Worker) : s.slice false ≤ s.nextRegistration - s.now :=
  Nat.min_le_left _ _

theorem slice_false_pos (h : s.now < s.nextRegistration) : 0 < s.slice false := by
  have hslice : 0 < waitingSlice := by decide
  refine Nat.lt_min.mpr ⟨?_, hslice⟩
  simp only [due, Bool.not_false, if_true, Option.getD_some]
  omega

/-- The registration is due: the wait ends, whatever the signal. -/
theorem wait_of_due (took : Nat) (hphase : s.phase = .waiting false)
    (hrunning : s.iface.running = true) (hdue : s.nextRegistration ≤ s.now) :
    s.step (.wait took) = some (s.leave .turn) := by
  have hzero : s.due false = some 0 := by
    simp only [due, Bool.not_false, if_true, Nat.sub_eq_zero_of_le hdue]
  simp [step, hphase, look, hrunning, hzero]

/-- It is not due yet: the worker waits on, whatever the signal. -/
theorem wait_of_not_due {took : Nat} (hphase : s.phase = .waiting false)
    (hrunning : s.iface.running = true) (hdue : s.now < s.nextRegistration)
    (htook : took ≤ s.slice false + waitingSlice) :
    s.step (.wait took) = some { s with now := s.now + took } := by
  have hpos : s.due false ≠ some 0 := by
    simp only [due, Bool.not_false, if_true, ne_eq, Option.some.injEq]
    omega
  simp [step, hphase, look, hrunning, hpos, htook]

/-- Waits come to an end, by induction on the time that is left. -/
theorem waitOut_ends (hphase : s.phase = .waiting false) (hrunning : s.iface.running = true)
    (hid : s.iface.interfaceId.isSome = false) {late : Nat → Nat}
    (hlate : ∀ i, late i ≤ waitingSlice) :
    ∃ n, (s.waitOut n late).phase = .turn ∧
      (s.waitOut n late).iface.interfaceId.isSome = false := by
  induction hleft : s.nextRegistration - s.now using Nat.strong_induction_on
    generalizing s late with
  | _ left ih =>
      by_cases hdue : s.nextRegistration ≤ s.now
      · refine ⟨1, ?_⟩
        simp only [waitOut, wait_of_due _ hphase hrunning hdue, Option.getD_some]
        exact ⟨rfl, hid⟩
      · have hdue : s.now < s.nextRegistration := Nat.lt_of_not_le hdue
        have hpos := slice_false_pos hdue
        have hnext := wait_of_not_due hphase hrunning hdue
          (Nat.add_le_add_left (hlate 0) (s.slice false))
        obtain ⟨n, hn⟩ := ih (s.nextRegistration - (s.now + (s.slice false + late 0)))
          (by omega) (s := { s with now := s.now + (s.slice false + late 0) })
          hphase hrunning hid (fun i => hlate (i + 1)) rfl
        refine ⟨n + 1, ?_⟩
        simp only [waitOut, hnext, Option.getD_some]
        exact hn

end Worker

/-! ## The invariant -/

/-- A phase of the exchange loop that is reached under a session. -/
def Phase.busy : Phase → Bool
  | checking _ _ _ => true
  | pausing _ _ _ => true
  | sleeping => true
  | _ => false

/-- The variables of the worker say what the calls say. -/
structure Keeps (s : Worker) : Prop where
  session : holds s.log = s.iface.interfaceId.isSome
  cadence : Cadence s.log
  starting : s.phase = .starting → s.log = [] ∧ s.sessionExchanged = false
  started : s.phase ≠ .starting → s.log ≠ []
  counted : s.registrationFailures = failures s.log
  exchanged : holds s.log = true → s.sessionExchanged = carried s.log
  next : s.log ≠ [] → holds s.log = false →
    s.nextRegistration = lastStop s.log + registrationBackoff (failures s.log)
  clock : lastStop s.log ≤ s.now
  waiting : ∀ registered, s.phase = .waiting registered →
    registered = s.iface.interfaceId.isSome
  bounded : s.phase = .waiting false → s.now ≤ s.nextRegistration + waitingSlice
  turn : s.phase = .turn → holds s.log = false →
    s.nextRegistration ≤ s.now ∧ s.now ≤ s.nextRegistration + waitingSlice
  busy : s.phase.busy = true → holds s.log = true

namespace Keeps

theorem start (isWakeMode : Bool) (configuredPollInterval : Option Nat) (now : Nat) :
    Keeps (Worker.start isWakeMode configuredPollInterval now) where
  session := rfl
  cadence := True.intro
  starting _ := ⟨rfl, rfl⟩
  started h := absurd rfl h
  counted := rfl
  exchanged h := by cases h
  next h := absurd rfl h
  clock := Nat.zero_le _
  waiting _ h := by cases h
  bounded h := by cases h
  turn h := by cases h
  busy h := by cases h

theorem log_ne_nil (h : Keeps s) {phase : Phase} (hphase : s.phase = phase)
    (hne : phase ≠ .starting) : s.log ≠ [] := by
  apply h.started
  rw [hphase]
  exact hne

/-- No call is made. What the phase asks is to be shown of the new phase. -/
theorem move {s s' : Worker} (h : Keeps s) (hlog : s'.log = s.log)
    (hid : s'.iface.interfaceId.isSome = s.iface.interfaceId.isSome)
    (hfailures : s'.registrationFailures = s.registrationFailures)
    (hexchanged : s'.sessionExchanged = s.sessionExchanged)
    (hnext : s'.nextRegistration = s.nextRegistration) (hclock : s.now ≤ s'.now)
    (hstarted : s'.phase = .starting ↔ s.phase = .starting)
    (hwaiting : ∀ registered, s'.phase = .waiting registered →
      registered = s.iface.interfaceId.isSome)
    (hbounded : s'.phase = .waiting false → s'.now ≤ s.nextRegistration + waitingSlice)
    (hturn : s'.phase = .turn → holds s.log = false →
      s.nextRegistration ≤ s'.now ∧ s'.now ≤ s.nextRegistration + waitingSlice)
    (hbusy : s'.phase.busy = true → holds s.log = true) : Keeps s' where
  session := by rw [hlog, hid]; exact h.session
  cadence := by rw [hlog]; exact h.cadence
  starting hphase := by rw [hlog, hexchanged]; exact h.starting (hstarted.mp hphase)
  started hphase := by rw [hlog]; exact h.started fun hs => hphase (hstarted.mpr hs)
  counted := by rw [hfailures, hlog]; exact h.counted
  exchanged := by rw [hlog, hexchanged]; exact h.exchanged
  next := by rw [hlog, hnext]; exact h.next
  clock := by rw [hlog]; exact Nat.le_trans h.clock hclock
  waiting := by rw [hid]; exact hwaiting
  bounded := by rw [hnext]; exact hbounded
  turn := by rw [hlog, hnext]; exact hturn
  busy := by rw [hlog]; exact hbusy

/-- Something comes from outside that leaves the session alone. -/
theorem outside (h : Keeps s) {iface : PostInterface}
    (hid : iface.interfaceId = s.iface.interfaceId) : Keeps { s with iface := iface } :=
  h.move rfl (by rw [hid]) rfl rfl rfl (Nat.le_refl _) Iff.rfl h.waiting h.bounded h.turn h.busy

/-- A call has been made: what it gives, and what the phase asks then. -/
theorem called {s' : Worker} {entry : Entry} {log : List Entry} (hlog : s'.log = entry :: log)
    (hphase : s'.phase ≠ .starting) (hcadence : Cadence (entry :: log))
    (hsession : holds (entry :: log) = s'.iface.interfaceId.isSome)
    (hfailures : s'.registrationFailures = failures (entry :: log))
    (hexchanged : holds (entry :: log) = true → s'.sessionExchanged = carried (entry :: log))
    (hnext : holds (entry :: log) = false → s'.nextRegistration =
      lastStop (entry :: log) + registrationBackoff (failures (entry :: log)))
    (hclock : s'.now = lastStop (entry :: log))
    (hwaiting : ∀ registered, s'.phase = .waiting registered →
      registered = holds (entry :: log))
    (hturn : s'.phase = .turn → holds (entry :: log) = true)
    (hbusy : s'.phase.busy = true → holds (entry :: log) = true) : Keeps s' where
  session := by rw [hlog]; exact hsession
  cadence := by rw [hlog]; exact hcadence
  starting h := absurd h hphase
  started _ := by rw [hlog]; exact List.cons_ne_nil _ _
  counted := by rw [hlog]; exact hfailures
  exchanged := by rw [hlog]; exact hexchanged
  next _ := by rw [hlog]; exact hnext
  clock := by rw [hlog, hclock]
  waiting registered h := by rw [← hsession]; exact hwaiting registered h
  bounded h := by
    rw [hclock, hnext (hwaiting false h).symm]
    omega
  turn h := by
    rw [hlog, hturn h]
    intro hfalse
    cases hfalse
  busy := by rw [hlog]; exact hbusy

theorem firstRegister (h : Keeps s) (hphase : s.phase = .starting) (call : Registration)
    (took : Nat) : Keeps (s.firstRegister call took) := by
  obtain ⟨hlog, hexchanged⟩ := h.starting hphase
  have hid : s.iface.interfaceId.isSome = false := by
    rw [← h.session, hlog]
    rfl
  have hcounted : s.registrationFailures = 0 := by
    rw [h.counted, hlog]
    rfl
  have hcadence : ∀ granted,
      Cadence (.registration s.now (s.now + took) granted :: s.log) := by
    intro granted
    rw [hlog]
    exact ⟨True.intro, Nat.zero_le _, Nat.le_add_right _ _, rfl,
      fun _ prior hprior => (by cases hprior), fun hne => absurd rfl hne⟩
  rcases s.firstRegister_cases call took hid with ⟨response, token, hnew⟩ | hnew
  · rw [hnew]
    refine called rfl (fun h => (by cases h)) (hcadence true) rfl ?_ (fun _ => hexchanged)
      (fun h => (by cases h)) rfl (fun registered h => (Phase.waiting.inj h).symm)
      (fun h => (by cases h)) (fun h => (by cases h))
    rw [hlog]
    exact hcounted
  · rw [hnew]
    refine called rfl (fun h => (by cases h)) (hcadence false) hid.symm ?_
      (fun h => (by cases h)) (fun _ => ?_) rfl
      (fun registered h => (Phase.waiting.inj h).symm) (fun h => (by cases h))
      (fun h => (by cases h))
    · rw [hlog]
      rfl
    · rw [hlog]
      rfl

/-- The registration that is due keeps the cadence. -/
theorem cadence_registration (h : Keeps s) (hphase : s.phase = .turn)
    (hid : s.iface.interfaceId.isSome = false) (took : Nat) (granted : Bool) :
    Cadence (.registration s.now (s.now + took) granted :: s.log) := by
  have hholds : holds s.log = false := h.session.trans hid
  have hne := h.log_ne_nil hphase fun h => (by cases h)
  have hnext := h.next hne hholds
  obtain ⟨hdue, hlate⟩ := h.turn hphase hholds
  refine ⟨h.cadence, h.clock, Nat.le_add_right _ _, hholds, ?_, ?_⟩
  · intro _ prior hprior
    have hprior := h.cadence.lastRegistration_le prior hprior
    omega
  · intro _
    omega

theorem register (h : Keeps s) (hphase : s.phase = .turn) (hid : s.iface.interfaceId.isSome = false)
    (call : Registration) (took : Nat) : Keeps (s.register call took) := by
  have hcadence := h.cadence_registration hphase hid took
  rcases s.register_cases call took hid with ⟨response, token, hnew⟩ | hnew
  · rw [hnew]
    exact called rfl (fun h => (by rw [hphase] at h; cases h)) (hcadence true) rfl h.counted
      (fun _ => rfl) (fun h => (by cases h)) rfl
      (fun registered h => (by rw [hphase] at h; cases h)) (fun _ => rfl)
      (fun h => (by rw [hphase] at h; cases h))
  · rw [hnew]
    refine called rfl (fun h => (by cases h)) (hcadence false) hid.symm ?_
      (fun h => (by cases h)) (fun _ => ?_) rfl
      (fun registered h => (Phase.waiting.inj h).symm) (fun h => (by cases h))
      (fun h => (by cases h))
    · exact congrArg (· + 1) h.counted
    · dsimp only [lastStop, failures]
      rw [h.counted]
      rfl

theorem exchange (h : Keeps s) (hid : s.iface.interfaceId.isSome = true) (ms : Nat) (reply : Reply)
    (took : Nat) : Keeps (s.exchange ms reply took) := by
  have hholds : holds s.log = true := h.session.trans hid
  have hcadence : ∀ outcome, Cadence (.exchange s.now (s.now + took) outcome :: s.log) :=
    fun _ => ⟨h.cadence, h.clock, Nat.le_add_right _ _, hholds⟩
  rcases s.exchange_cases ms reply took with
    ⟨iface, hasMore, hsame, -, -, hnew⟩ | ⟨iface, hlost, hnew⟩ | ⟨iface, hkept, hnew⟩
  · rw [hnew]
    exact called rfl (fun h => (by cases h)) (hcadence .carried)
      (by rw [hsame, hid]; rfl) rfl (fun _ => rfl) (fun h => (by cases h)) rfl
      (fun _ h => (by cases h)) (fun h => (by cases h)) (fun _ => rfl)
  · have hfailures : s.failuresAfterLoss =
        failures (.exchange s.now (s.now + took) .lost :: s.log) := by
      simp only [Worker.failuresAfterLoss, failures, h.exchanged hholds, h.counted]
    rw [hnew]
    exact called rfl (fun h => (by cases h)) (hcadence .lost) hlost.symm hfailures
      (fun h => (by cases h)) (fun _ => (by dsimp only; rw [hfailures]; rfl)) rfl
      (fun _ h => (Phase.waiting.inj h).symm) (fun h => (by cases h)) (fun h => (by cases h))
  · rw [hnew]
    refine called rfl (fun h => (by cases h)) (hcadence .failed)
      (hholds.trans hkept.symm) h.counted (fun _ => h.exchanged hholds)
      (fun hfalse => ?_) rfl (fun _ h => (by cases h)) (fun h => (by cases h)) (fun _ => hholds)
    have hfalse : holds s.log = false := hfalse
    rw [hholds] at hfalse
    cases hfalse

theorem wait {s s' : Worker} (h : Keeps s) {took : Nat} (hstep : s.step (.wait took) = some s') :
    Keeps s' := by
  obtain ⟨registered, hphase, rfl | ⟨rfl, hwhy⟩ | ⟨rfl, hdue, htook⟩⟩ := Worker.of_wait hstep
  · exact h.move rfl rfl rfl rfl rfl (Nat.le_refl _)
      ⟨fun h => (by cases h), fun h => (by rw [hphase] at h; cases h)⟩
      (fun _ h => (by cases h)) (fun h => (by cases h)) (fun h => (by cases h))
      (fun h => (by cases h))
  · refine h.move rfl rfl rfl rfl rfl (Nat.le_refl _)
      ⟨fun h => (by cases h), fun h => (by rw [hphase] at h; cases h)⟩
      (fun _ h => (by cases h)) (fun h => (by cases h)) (fun _ hholds => ?_)
      (fun h => (by cases h))
    obtain rfl : registered = false :=
      (h.waiting registered hphase).trans (h.session.symm.trans hholds)
    refine ⟨?_, h.bounded hphase⟩
    rcases hwhy with ⟨hfalse, -⟩ | hzero
    · cases hfalse
    · simp only [Worker.due, Bool.not_false, if_true, Option.some.injEq] at hzero
      exact Nat.le_of_sub_eq_zero hzero
  · refine h.move rfl rfl rfl rfl rfl (Nat.le_add_right _ _) Iff.rfl h.waiting (fun hfalse => ?_)
      (fun h => (by rw [hphase] at h; cases h)) h.busy
    have hfalse : s.phase = .waiting false := hfalse
    rw [hphase] at hfalse
    obtain rfl := Phase.waiting.inj hfalse
    have hslice := s.slice_false_le
    have hpos : s.nextRegistration - s.now ≠ 0 := by
      simpa [Worker.due] using hdue
    dsimp only
    omega

/-- Back to the wait from the exchange loop, under a session. -/
theorem await (h : Keeps s) (hbusy : s.phase.busy = true) (took : Nat) :
    Keeps { s with now := s.now + took }.await := by
  have hid : s.iface.interfaceId.isSome = true := h.session.symm.trans (h.busy hbusy)
  refine h.move rfl rfl rfl rfl rfl (Nat.le_add_right _ _)
    ⟨fun h => (by cases h), fun h => (by rw [h] at hbusy; cases hbusy)⟩
    (fun _ h => (Phase.waiting.inj h).symm) (fun h => ?_) (fun h => (by cases h))
    (fun h => (by cases h))
  have hfalse : s.iface.interfaceId.isSome = false := Phase.waiting.inj h
  rw [hid] at hfalse
  cases hfalse

theorem step {s s' : Worker} (h : Keeps s) {m : Move} (hstep : s.step m = some s') : Keeps s' := by
  cases m with
  | start call took =>
      obtain ⟨hphase, rfl⟩ := Worker.of_start hstep
      exact h.firstRegister hphase call took
  | wait took => exact h.wait hstep
  | register call took =>
      obtain ⟨hphase, hid, rfl⟩ := Worker.of_register hstep
      exact h.register hphase hid call took
  | exchange ms reply took =>
      obtain ⟨-, hid, rfl⟩ := Worker.of_exchange hstep
      exact h.exchange hid ms reply took
  | check =>
      obtain ⟨before, after, hasMore, hphase, rfl⟩ := Worker.of_check hstep
      have hbusy : s.phase.busy = true := by rw [hphase]; rfl
      unfold Worker.check
      split
      · exact h.move rfl rfl rfl rfl rfl (Nat.le_refl _)
          ⟨fun h => (by cases h), fun h => (by rw [hphase] at h; cases h)⟩
          (fun _ h => (by cases h)) (fun h => (by cases h)) (fun h => (by cases h))
          (fun _ => h.busy hbusy)
      · exact h.await hbusy 0
  | pause took =>
      obtain ⟨⟨before, after, hasMore, hphase⟩, rfl⟩ := Worker.of_pause hstep
      have hholds : holds s.log = true := h.busy (by rw [hphase]; rfl)
      refine h.move rfl rfl rfl rfl rfl (Nat.le_add_right _ _)
        ⟨fun h => (by cases h), fun h => (by rw [hphase] at h; cases h)⟩
        (fun _ h => (by cases h)) (fun h => (by cases h)) (fun _ hfalse => ?_)
        (fun h => (by cases h))
      rw [hholds] at hfalse
      cases hfalse
  | sleep took =>
      obtain ⟨hphase, rfl⟩ := Worker.of_sleep hstep
      exact h.await (by rw [hphase]; rfl) took
  | outgoing packet =>
      obtain rfl := Option.some.inj hstep
      rcases Worker.processOutgoing_cases s.iface packet with hsame | ⟨-, hnew⟩
      · exact h.outside (by rw [hsame])
      · refine h.outside ?_
        rw [hnew]
        unfold PostInterface.enqueue PostInterface.makeRoom
        split
        · rfl
        · rfl
  | wake =>
      obtain rfl := Option.some.inj hstep
      exact h.outside rfl
  | shutdown =>
      obtain rfl := Option.some.inj hstep
      exact h.outside rfl

theorem paced (h : Keeps s) : Paced s := by
  refine ⟨h.session, h.cadence, fun hphase => ?_, fun hphase hrunning late hlate => ?_⟩
  · have hholds : holds s.log = false := h.session.trans (h.waiting false hphase).symm
    rw [← h.next (h.log_ne_nil hphase fun h => (by cases h)) hholds]
    exact h.bounded hphase
  · exact Worker.waitOut_ends hphase hrunning (h.waiting false hphase).symm hlate

end Keeps

end Reticulum.Interfaces.Post
