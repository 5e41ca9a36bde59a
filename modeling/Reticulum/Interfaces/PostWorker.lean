import Reticulum.Interfaces.Post
import Reticulum.Lib.Runs

/-!
# The exchange worker of a PostInterface

The thread of `start_exchange_worker` as a machine: the first registration, the wait, and the
loop of exchanges with its registrations. Packets, wakes and a shutdown come at any point, and
the node answers as it likes.

## Implementation notes

The clock is the time in nanoseconds, and an event that takes time says how much. A wait on the
condition variable may end early and is at most one slice late. Sleeps are at least as long as
asked. The failure counters have 32 bits in the source: registrations that fail come at least
two seconds apart and soon five minutes, so they are counted without a bound.
-/

namespace Reticulum.Interfaces.Post

/-- One slice of the wait. -/
def waitingSlice : Nat := fromSecs 1

/-- How an exchange ended for the session. -/
inductive Outcome
  | carried
  | failed
  | lost
  deriving DecidableEq

/-- A call of `register_with_remote` or of `exchange`, from its start to its end. -/
inductive Entry
  | registration (start stop : Nat) (granted : Bool)
  | exchange (start stop : Nat) (outcome : Outcome)

/-- Where the worker is. After an exchange it knows the length of the queue before and after,
and whether the node has more. -/
inductive Phase
  | starting
  | waiting (registered : Bool)
  | turn
  | checking (before after : Nat) (hasMore : Bool)
  | pausing (before after : Nat) (hasMore : Bool)
  | sleeping
  | ended

/-- The interface, the variables of the thread, the clock, and the calls so far, the newest
first. -/
structure Worker where
  iface : PostInterface
  registrationFailures : Nat
  nextRegistration : Nat
  sessionExchanged : Bool
  consecutiveErrors : Nat
  lastExchange : Nat
  phase : Phase
  now : Nat
  log : List Entry

/-- What the worker does, with what it meets, or what comes from outside. -/
inductive Move
  | start (call : Registration) (took : Nat)
  | wait (took : Nat)
  | register (call : Registration) (took : Nat)
  | exchange (ms : Nat) (reply : Reply) (took : Nat)
  | check
  | pause (took : Nat)
  | sleep (took : Nat)
  | outgoing (packet : Packet)
  | wake
  | shutdown

namespace Worker

/-- The thread is spawned on a new interface. -/
def start (isWakeMode : Bool) (configuredPollInterval : Option Nat) (now : Nat) : Worker where
  iface := { PostInterface.new isWakeMode configuredPollInterval with running := true }
  registrationFailures := 0
  nextRegistration := now
  sessionExchanged := false
  consecutiveErrors := 0
  lastExchange := now
  phase := .starting
  now := now
  log := []

/-- The wait begins: whether there is a session is read once. -/
def await (s : Worker) : Worker := { s with phase := .waiting s.iface.interfaceId.isSome }

/-- The initial registration. -/
def firstRegister (s : Worker) (call : Registration) (took : Nat) : Worker :=
  let stop := s.now + took
  match s.iface.registerWithRemote call with
  | (iface, .ok _) =>
      { s with
        iface := iface
        lastExchange := stop
        now := stop
        log := .registration s.now stop true :: s.log }.await
  | (iface, .error _) =>
      { s with
        iface := iface
        registrationFailures := 1
        nextRegistration := stop + registrationBackoff 1
        lastExchange := stop
        now := stop
        log := .registration s.now stop false :: s.log }.await

/-- How long until there is something to do without a signal. -/
def due (s : Worker) (registered : Bool) : Option Nat :=
  if !registered then some (s.nextRegistration - s.now)
  else if s.iface.isWakeMode then none
  else some (s.iface.pollInterval - (s.now - s.lastExchange))

/-- How long one wait on the condition variable is asked to be. -/
def slice (s : Worker) (registered : Bool) : Nat :=
  min ((s.due registered).getD waitingSlice) waitingSlice

/-- The wait is over, and the signal is taken. -/
def leave (s : Worker) (phase : Phase) : Worker :=
  { s with iface := { s.iface with exchangeSignal := false }, phase := phase }

/-- One round of the waiting loop. -/
def look (s : Worker) (registered : Bool) (took : Nat) : Option Worker :=
  if !s.iface.running then some (s.leave .ended)
  else if registered && s.iface.exchangeSignal then some (s.leave .turn)
  else if s.due registered = some 0 then some (s.leave .turn)
  else if took ≤ s.slice registered + waitingSlice then some { s with now := s.now + took }
  else none

/-- A registration in the exchange loop. -/
def register (s : Worker) (call : Registration) (took : Nat) : Worker :=
  let stop := s.now + took
  match s.iface.registerWithRemote call with
  | (iface, .ok _) =>
      { s with
        iface := iface
        consecutiveErrors := 0
        sessionExchanged := false
        now := stop
        log := .registration s.now stop true :: s.log }
  | (iface, .error _) =>
      { s with
        iface := iface
        registrationFailures := s.registrationFailures + 1
        nextRegistration := stop + registrationBackoff (s.registrationFailures + 1)
        now := stop
        log := .registration s.now stop false :: s.log }.await

/-- An exchange in the exchange loop. -/
def exchange (s : Worker) (ms : Nat) (reply : Reply) (took : Nat) : Worker :=
  let stop := s.now + took
  let done := s.iface.exchange ms fun _ => reply
  match done.result with
  | .ok result =>
      { s with
        iface := done.iface
        registrationFailures := 0
        sessionExchanged := true
        consecutiveErrors := 0
        lastExchange := s.now
        phase := .checking s.iface.outboundQueue.length done.iface.outboundQueue.length
          result.hasMore
        now := stop
        log := .exchange s.now stop .carried :: s.log }
  | .error _ =>
      if done.iface.interfaceId.isNone then
        let failures :=
          if s.sessionExchanged then s.registrationFailures else s.registrationFailures + 1
        { s with
          iface := done.iface
          registrationFailures := failures
          nextRegistration := stop + registrationBackoff failures
          consecutiveErrors := s.consecutiveErrors + 1
          lastExchange := s.now
          now := stop
          log := .exchange s.now stop .lost :: s.log }.await
      else
        { s with
          iface := done.iface
          consecutiveErrors := s.consecutiveErrors + 1
          lastExchange := s.now
          phase := .sleeping
          now := stop
          log := .exchange s.now stop .failed :: s.log }

/-- Whether to exchange again at once. -/
def check (s : Worker) (before after : Nat) (hasMore : Bool) : Worker :=
  if hasMore || !s.iface.outboundQueue.isEmpty then
    { s with phase := .pausing before after hasMore }
  else s.await

/-- What a move does. -/
def step (s : Worker) : Move → Option Worker
  | .start call took =>
      match s.phase with
      | .starting => some (s.firstRegister call took)
      | _ => none
  | .wait took =>
      match s.phase with
      | .waiting registered => s.look registered took
      | _ => none
  | .register call took =>
      match s.phase with
      | .turn => if s.iface.interfaceId.isNone then some (s.register call took) else none
      | _ => none
  | .exchange ms reply took =>
      match s.phase with
      | .turn => if s.iface.interfaceId.isSome then some (s.exchange ms reply took) else none
      | _ => none
  | .check =>
      match s.phase with
      | .checking before after hasMore => some (s.check before after hasMore)
      | _ => none
  | .pause took =>
      match s.phase with
      | .pausing _ _ _ =>
          if fromMillis 10 ≤ took then some { s with phase := .turn, now := s.now + took } else none
      | _ => none
  | .sleep took =>
      match s.phase with
      | .sleeping =>
          if fromSecs (min s.consecutiveErrors 60) ≤ took then
            some { s with now := s.now + took }.await
          else none
      | _ => none
  | .outgoing packet => some { s with iface := (s.iface.processOutgoing packet).1 }
  | .wake => some { s with iface := s.iface.signal }
  | .shutdown => some { s with iface := { s.iface with running := false } }

/-! ## What a move needs and does -/

theorem of_start {s s' : Worker} {call : Registration} {took : Nat}
    (h : s.step (.start call took) = some s') :
    s.phase = .starting ∧ s' = s.firstRegister call took := by
  rw [step] at h
  split at h
  · exact ⟨‹_›, (Option.some.inj h).symm⟩
  · cases h

theorem of_wait {s s' : Worker} {took : Nat} (h : s.step (.wait took) = some s') :
    ∃ registered, s.phase = .waiting registered ∧
      (s' = s.leave .ended ∨
        s' = s.leave .turn ∧
          (registered = true ∧ s.iface.exchangeSignal = true ∨ s.due registered = some 0) ∨
        s' = { s with now := s.now + took } ∧ s.due registered ≠ some 0 ∧
          took ≤ s.slice registered + waitingSlice) := by
  rw [step] at h
  split at h
  · rename_i registered hphase
    refine ⟨registered, hphase, ?_⟩
    unfold look at h
    split at h
    · exact Or.inl (Option.some.inj h).symm
    split at h
    · rename_i hsignal
      exact Or.inr (Or.inl ⟨(Option.some.inj h).symm,
        Or.inl (Bool.and_eq_true_iff.mp hsignal)⟩)
    split at h
    · rename_i hdue
      exact Or.inr (Or.inl ⟨(Option.some.inj h).symm, Or.inr hdue⟩)
    rename_i hdue
    split at h
    · rename_i htook
      exact Or.inr (Or.inr ⟨(Option.some.inj h).symm, hdue, htook⟩)
    · cases h
  · cases h

theorem of_register {s s' : Worker} {call : Registration} {took : Nat}
    (h : s.step (.register call took) = some s') :
    s.phase = .turn ∧ s.iface.interfaceId.isSome = false ∧ s' = s.register call took := by
  rw [step] at h
  split at h
  · split at h
    · rename_i hphase hnone
      exact ⟨hphase, by simpa using hnone, (Option.some.inj h).symm⟩
    · cases h
  · cases h

theorem of_exchange {s s' : Worker} {ms took : Nat} {reply : Reply}
    (h : s.step (.exchange ms reply took) = some s') :
    s.phase = .turn ∧ s.iface.interfaceId.isSome = true ∧ s' = s.exchange ms reply took := by
  rw [step] at h
  split at h
  · split at h
    · exact ⟨‹_›, ‹_›, (Option.some.inj h).symm⟩
    · cases h
  · cases h

theorem of_check {s s' : Worker} (h : s.step .check = some s') :
    ∃ before after hasMore, s.phase = .checking before after hasMore ∧
      s' = s.check before after hasMore := by
  rw [step] at h
  split at h
  · exact ⟨_, _, _, ‹_›, (Option.some.inj h).symm⟩
  · cases h

theorem of_pause {s s' : Worker} {took : Nat} (h : s.step (.pause took) = some s') :
    (∃ before after hasMore, s.phase = .pausing before after hasMore) ∧
      s' = { s with phase := .turn, now := s.now + took } := by
  rw [step] at h
  split at h
  · split at h
    · exact ⟨⟨_, _, _, ‹_›⟩, (Option.some.inj h).symm⟩
    · cases h
  · cases h

theorem of_sleep {s s' : Worker} {took : Nat} (h : s.step (.sleep took) = some s') :
    s.phase = .sleeping ∧ s' = { s with now := s.now + took }.await := by
  rw [step] at h
  split at h
  · split at h
    · exact ⟨‹_›, (Option.some.inj h).symm⟩
    · cases h
  · cases h

/-! ## How the calls end -/

/-- An exchange with an answer keeps the session and its limits, and leaves the packets that it
did not reach. -/
theorem exchange_ok {iface : PostInterface} {ms : Nat} {reply : ExchangeRequest → Reply}
    {result : ExchangeResult} (h : (iface.exchange ms reply).result = .ok result) :
    (iface.exchange ms reply).iface.interfaceId = iface.interfaceId ∧
      (iface.exchange ms reply).iface.maxBatchPackets = iface.maxBatchPackets ∧
      (iface.exchange ms reply).iface.outboundQueue = iface.rest := by
  unfold PostInterface.exchange at h ⊢
  cases hrequest : iface.request ms with
  | error e =>
      simp only [hrequest] at h
      cases h
  | ok sent =>
      simp only [hrequest] at h ⊢
      obtain ⟨-, -, -, -, hiface, -⟩ := PostInterface.request_spec hrequest
      cases hanswer : (reply sent.request).answer with
      | error e =>
          rw [PostInterface.conclude_of_error hanswer] at h
          cases h
      | ok response =>
          rw [PostInterface.conclude_of_ok hanswer, hiface]
          unfold PostInterface.acknowledge
          dsimp only
          split
          · split
            · exact ⟨rfl, rfl, rfl⟩
            · exact ⟨rfl, rfl, rfl⟩
          · exact ⟨rfl, rfl, rfl⟩

/-- The failures after a session is lost: it counts unless it has carried an exchange. -/
def failuresAfterLoss (s : Worker) : Nat :=
  if s.sessionExchanged then s.registrationFailures else s.registrationFailures + 1

theorem exchange_cases (s : Worker) (ms : Nat) (reply : Reply) (took : Nat) :
    (∃ iface hasMore, iface.interfaceId = s.iface.interfaceId ∧
        iface.maxBatchPackets = s.iface.maxBatchPackets ∧
        iface.outboundQueue = s.iface.rest ∧
        s.exchange ms reply took =
          { s with
            iface := iface
            registrationFailures := 0
            sessionExchanged := true
            consecutiveErrors := 0
            lastExchange := s.now
            phase := .checking s.iface.outboundQueue.length iface.outboundQueue.length hasMore
            now := s.now + took
            log := .exchange s.now (s.now + took) .carried :: s.log }) ∨
      (∃ iface, iface.interfaceId.isSome = false ∧
        s.exchange ms reply took =
          { s with
            iface := iface
            registrationFailures := s.failuresAfterLoss
            nextRegistration := s.now + took + registrationBackoff s.failuresAfterLoss
            consecutiveErrors := s.consecutiveErrors + 1
            lastExchange := s.now
            phase := .waiting false
            now := s.now + took
            log := .exchange s.now (s.now + took) .lost :: s.log }) ∨
      ∃ iface, iface.interfaceId.isSome = true ∧
        s.exchange ms reply took =
          { s with
            iface := iface
            consecutiveErrors := s.consecutiveErrors + 1
            lastExchange := s.now
            phase := .sleeping
            now := s.now + took
            log := .exchange s.now (s.now + took) .failed :: s.log } := by
  cases hresult : (s.iface.exchange ms fun _ => reply).result with
  | ok result =>
      obtain ⟨hid, hbatch, hqueue⟩ := exchange_ok hresult
      refine Or.inl ⟨_, result.hasMore, hid, hbatch, hqueue, ?_⟩
      simp only [exchange, hresult]
  | error e =>
      cases hid : (s.iface.exchange ms fun _ => reply).iface.interfaceId.isSome with
      | true =>
          refine Or.inr (Or.inr ⟨_, hid, ?_⟩)
          have hnone : (s.iface.exchange ms fun _ => reply).iface.interfaceId.isNone = false := by
            rw [← Option.not_isSome, hid]
            rfl
          simp [exchange, hresult, hnone]
      | false =>
          refine Or.inr (Or.inl ⟨_, hid, ?_⟩)
          have hnone : (s.iface.exchange ms fun _ => reply).iface.interfaceId.isNone = true := by
            rw [← Option.not_isSome, hid]
            rfl
          simp [exchange, hresult, hnone, await, hid, failuresAfterLoss]

/-- A registration gives a session or changes nothing of the interface. -/
theorem registerWithRemote_cases (iface : PostInterface) (call : Registration) :
    (∃ response token,
        iface.registerWithRemote call = (iface.registered response token, .ok ())) ∨
      ∃ e, iface.registerWithRemote call = (iface, .error e) := by
  cases hgranted : call.granted with
  | error e => exact Or.inr ⟨e, by simp only [PostInterface.registerWithRemote, hgranted]⟩
  | ok session =>
      exact Or.inl ⟨session.1, session.2, by
        simp only [PostInterface.registerWithRemote, hgranted]⟩

theorem register_cases (s : Worker) (call : Registration) (took : Nat)
    (h : s.iface.interfaceId.isSome = false) :
    (∃ response token,
        s.register call took =
          { s with
            iface := s.iface.registered response token
            consecutiveErrors := 0
            sessionExchanged := false
            now := s.now + took
            log := .registration s.now (s.now + took) true :: s.log }) ∨
      s.register call took =
        { s with
          registrationFailures := s.registrationFailures + 1
          nextRegistration := s.now + took + registrationBackoff (s.registrationFailures + 1)
          phase := .waiting false
          now := s.now + took
          log := .registration s.now (s.now + took) false :: s.log } := by
  rcases registerWithRemote_cases s.iface call with ⟨response, token, hcall⟩ | ⟨e, hcall⟩
  · exact Or.inl ⟨response, token, by simp only [register, hcall]⟩
  · exact Or.inr (by simp only [register, hcall, await, h])

theorem firstRegister_cases (s : Worker) (call : Registration) (took : Nat)
    (h : s.iface.interfaceId.isSome = false) :
    (∃ response token,
        s.firstRegister call took =
          { s with
            iface := s.iface.registered response token
            lastExchange := s.now + took
            phase := .waiting true
            now := s.now + took
            log := .registration s.now (s.now + took) true :: s.log }) ∨
      s.firstRegister call took =
        { s with
          registrationFailures := 1
          nextRegistration := s.now + took + registrationBackoff 1
          lastExchange := s.now + took
          phase := .waiting false
          now := s.now + took
          log := .registration s.now (s.now + took) false :: s.log } := by
  rcases registerWithRemote_cases s.iface call with ⟨response, token, hcall⟩ | ⟨e, hcall⟩
  · refine Or.inl ⟨response, token, ?_⟩
    simp only [firstRegister, hcall, await]
    rfl
  · exact Or.inr (by simp only [firstRegister, hcall, await, h])

theorem processOutgoing_cases (iface : PostInterface) (packet : Packet) :
    (iface.processOutgoing packet).1 = iface ∨
      iface.online = true ∧
        (iface.processOutgoing packet).1 = (iface.enqueue packet).signal := by
  by_cases hdown : (!iface.online || iface.detached) = true
  · exact Or.inl (by simp only [PostInterface.processOutgoing, if_pos hdown])
  · refine Or.inr ⟨?_, by simp only [PostInterface.processOutgoing, if_neg hdown]⟩
    cases honline : iface.online with
    | true => rfl
    | false => exact absurd (by rw [honline]; rfl) hdown

end Worker

end Reticulum.Interfaces.Post
