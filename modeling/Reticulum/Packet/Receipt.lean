import Reticulum.Lib.Runs
import Reticulum.Link.Rejection

/-!
# Receipts

A `PacketReceipt` waits for the proof of a packet. A valid proof delivers it, a
timeout fails or culls it, and the callback of the outcome runs once, also when
it is registered after the fact. All clones share one state behind a lock.
`receipt_runs` says what holds after every interleaving of these operations.

## Implementation notes

One step is one critical section of the lock, or what follows it without the
lock: the call of `fire_delivery_callback`, or a spawned thread that runs a
callback. `Times` are the comparisons of `f64` values that the operations make.
With debug assertions `fire_delivery_callback` panics, before it calls the
callback, when the packet was sent more than five seconds ago; `lost` counts the
callbacks that are lost so. The setters that only tests use are left out.
-/

namespace Reticulum.Receipt

open Runs

/-- `FAILED`, `SENT`, `DELIVERED` and `CULLED`. -/
inductive Status
  | failed
  | sent
  | delivered
  | culled
  deriving DecidableEq, Repr

/-- The comparisons of times. -/
structure Times (F : Type*) where
  /-- `sent_at + timeout >= now` -/
  waits : F → F → F → Bool
  /-- `timeout == -1.0` -/
  isMinusOne : F → Bool
  /-- `assert_send_completed_in_time` passes: sent at, now -/
  inTime : F → F → Bool

/-- The fields of a receipt that its clones copy. -/
structure PacketReceipt where
  hash : Bytes
  identity : Option Bytes

/-- `PacketReceiptInner`, and the callbacks of type `K` that are on their way or
have run. -/
structure Inner (F K : Type*) where
  sentAt : F
  proved : Bool
  status : Status
  concludedAt : Option F
  timeout : F
  deliveryCallback : Option K
  timeoutCallback : Option K
  deliveryNotified : Bool
  timeoutNotified : Bool
  /-- the calls of `fire_delivery_callback` to come -/
  firing : List (Option K)
  deliveryThreads : List K
  timeoutThreads : List K
  deliveryRuns : List K
  timeoutRuns : List K
  lost : Nat

variable {F K : Type*}

def Inner.fromParts (sentAt timeout : F) : Inner F K :=
  { sentAt := sentAt, proved := false, status := .sent, concludedAt := none, timeout := timeout
    deliveryCallback := none, timeoutCallback := none, deliveryNotified := false
    timeoutNotified := false, firing := [], deliveryThreads := [], timeoutThreads := []
    deliveryRuns := [], timeoutRuns := [], lost := 0 }

/-- `mark_delivered`, up to the call of `fire_delivery_callback`. -/
def markDelivered (s : Inner F K) (now : F) : Bool × Inner F K :=
  if s.status ≠ .sent ∧ s.status ≠ .failed then (false, s)
  else
    (true, { s with
      status := .delivered, proved := true, concludedAt := some now
      deliveryNotified := s.deliveryCallback.isSome
      firing := s.firing ++ [s.deliveryCallback] })

/-- `validate_with_identity_variants`: the key, or its halves swapped. -/
def validateWithIdentityVariants (c : Crypto) (publicKey signature hash : Bytes) : Bool :=
  Link.validate c publicKey signature hash ||
    (publicKey.length = 64 ∧ c.isVerifyingKey (publicKey.take 32) ∧
      Link.validate c (publicKey.drop 32 ++ publicKey.take 32) signature hash)

def explLength : Nat := 96

def implLength : Nat := 64

def validateProof (c : Crypto) (receipt : PacketReceipt) (proof : Bytes) (s : Inner F K) (now : F) :
    Bool × Inner F K :=
  match receipt.identity with
  | none => (false, s)
  | some publicKey =>
      if proof.length = explLength then
        if proof.take 32 = receipt.hash ∧
            validateWithIdentityVariants c publicKey (proof.drop 32) receipt.hash then
          markDelivered s now
        else (false, s)
      else if proof.length = implLength then
        if validateWithIdentityVariants c publicKey proof receipt.hash then markDelivered s now
        else (false, s)
      else (false, s)

/-- `validate_link_proof_with`, with the `validate` of a link. -/
def validateLinkProofWith (receipt : PacketReceipt) (proof : Bytes)
    (validate : Bytes → Bytes → Bool) (s : Inner F K) (now : F) : Bool × Inner F K :=
  if proof.length = explLength then
    if proof.take 32 = receipt.hash ∧ validate (proof.drop 32) receipt.hash then
      markDelivered s now
    else (false, s)
  else (false, s)

def checkTimeout (t : Times F) (s : Inner F K) (now : F) : Inner F K :=
  if s.status ≠ .sent then s
  else if t.waits s.sentAt s.timeout now then s
  else
    { s with
      status := if t.isMinusOne s.timeout then .culled else .failed
      concludedAt := some now, timeoutNotified := s.timeoutCallback.isSome
      timeoutThreads := s.timeoutThreads ++ s.timeoutCallback.toList }

def setDeliveryCallback (s : Inner F K) (callback : K) : Inner F K :=
  if s.status = .delivered ∧ ¬ s.deliveryNotified then
    { s with
      deliveryCallback := some callback, deliveryNotified := true
      deliveryThreads := s.deliveryThreads ++ [callback] }
  else { s with deliveryCallback := some callback }

def setTimeoutCallback (s : Inner F K) (callback : K) : Inner F K :=
  if (s.status = .failed ∨ s.status = .culled) ∧ ¬ s.timeoutNotified then
    { s with
      timeoutCallback := some callback, timeoutNotified := true
      timeoutThreads := s.timeoutThreads ++ [callback] }
  else { s with timeoutCallback := some callback }

def fireDeliveryCallback (debug : Bool) (t : Times F) (s : Inner F K) (callback : Option K)
    (now : F) : Inner F K :=
  if debug ∧ ¬ t.inTime s.sentAt now then
    { s with lost := s.lost + callback.toList.length }
  else { s with deliveryRuns := s.deliveryRuns ++ callback.toList }

/-- The steps of the holders of a receipt and of the threads they start. -/
inductive Event (F K : Type*)
  | validateProof (proof : Bytes) (now : F)
  | validateLinkProof (proof : Bytes) (validate : Bytes → Bytes → Bool) (now : F)
  | checkTimeout (now : F)
  | setTimeout (timeout : F)
  | setDeliveryCallback (callback : K)
  | setTimeoutCallback (callback : K)
  | fire (now : F)
  | runDelivery
  | runTimeout

/-- One step. -/
def step (debug : Bool) (c : Crypto) (t : Times F) (receipt : PacketReceipt) (s : Inner F K) :
    Event F K → Option (Inner F K)
  | .validateProof proof now => some (validateProof c receipt proof s now).2
  | .validateLinkProof proof validate now =>
      some (validateLinkProofWith receipt proof validate s now).2
  | .checkTimeout now => some (checkTimeout t s now)
  | .setTimeout timeout => some { s with timeout := timeout }
  | .setDeliveryCallback callback => some (setDeliveryCallback s callback)
  | .setTimeoutCallback callback => some (setTimeoutCallback s callback)
  | .fire now =>
      match s.firing with
      | callback :: rest =>
          some (fireDeliveryCallback debug t { s with firing := rest } callback now)
      | [] => none
  | .runDelivery =>
      match s.deliveryThreads with
      | callback :: rest => some { s with
          deliveryThreads := rest, deliveryRuns := s.deliveryRuns ++ [callback] }
      | [] => none
  | .runTimeout =>
      match s.timeoutThreads with
      | callback :: rest => some { s with
          timeoutThreads := rest, timeoutRuns := s.timeoutRuns ++ [callback] }
      | [] => none

/-! ## What an operation does -/

/-- The moves of the status. -/
inductive Moves : Status → Status → Prop
  | fail : Moves .sent .failed
  | cull : Moves .sent .culled
  | deliver : Moves .sent .delivered
  | deliverLate : Moves .failed .delivered

variable {debug : Bool} {c : Crypto} {t : Times F} {receipt : PacketReceipt} {s s' : Inner F K}

/-- A proof marks the receipt delivered, or does nothing. -/
theorem validateProof_cases (proof : Bytes) (now : F) :
    validateProof c receipt proof s now = markDelivered s now ∨
      validateProof c receipt proof s now = (false, s) := by
  unfold validateProof
  split
  · exact .inr rfl
  split
  · split
    · exact .inl rfl
    · exact .inr rfl
  split
  · split
    · exact .inl rfl
    · exact .inr rfl
  · exact .inr rfl

theorem validateLinkProofWith_cases (proof : Bytes) (validate : Bytes → Bytes → Bool) (now : F) :
    validateLinkProofWith receipt proof validate s now = markDelivered s now ∨
      validateLinkProofWith receipt proof validate s now = (false, s) := by
  unfold validateLinkProofWith
  split
  · split
    · exact .inl rfl
    · exact .inr rfl
  · exact .inr rfl

/-- The events of a proof. -/
def Event.isProof : Event F K → Bool
  | .validateProof _ _ => true
  | .validateLinkProof _ _ _ => true
  | _ => false

/-- Everything a step can do. -/
inductive Does (debug : Bool) (t : Times F) (s : Inner F K) : Event F K → Inner F K → Prop
  | refuse {e : Event F K} (h : e.isProof = true) : Does debug t s e s
  | deliver {e : Event F K} (h : e.isProof = true) (now : F) :
      Does debug t s e (markDelivered s now).2
  | checkTimeout (now : F) : Does debug t s (.checkTimeout now) (checkTimeout t s now)
  | setTimeout (timeout : F) : Does debug t s (.setTimeout timeout) { s with timeout := timeout }
  | setDeliveryCallback (callback : K) :
      Does debug t s (.setDeliveryCallback callback) (setDeliveryCallback s callback)
  | setTimeoutCallback (callback : K) :
      Does debug t s (.setTimeoutCallback callback) (setTimeoutCallback s callback)
  | fire {callback : Option K} {rest : List (Option K)} (h : s.firing = callback :: rest) (now : F) :
      Does debug t s (.fire now)
        (fireDeliveryCallback debug t { s with firing := rest } callback now)
  | runDelivery {callback : K} {rest : List K} (h : s.deliveryThreads = callback :: rest) :
      Does debug t s .runDelivery
        { s with deliveryThreads := rest, deliveryRuns := s.deliveryRuns ++ [callback] }
  | runTimeout {callback : K} {rest : List K} (h : s.timeoutThreads = callback :: rest) :
      Does debug t s .runTimeout
        { s with timeoutThreads := rest, timeoutRuns := s.timeoutRuns ++ [callback] }

variable {e : Event F K}

theorem does_of_step (h : step debug c t receipt s e = some s') : Does debug t s e s' := by
  cases e with
  | validateProof proof now =>
      obtain rfl := Option.some.inj h
      have hcases : validateProof c receipt proof s now = markDelivered s now ∨ _ :=
        validateProof_cases proof now
      obtain hp | hp := hcases
      · rw [hp]
        exact .deliver rfl now
      · rw [hp]
        exact .refuse rfl
  | validateLinkProof proof validate now =>
      obtain rfl := Option.some.inj h
      have hcases : validateLinkProofWith receipt proof validate s now = markDelivered s now ∨ _ :=
        validateLinkProofWith_cases proof validate now
      obtain hp | hp := hcases
      · rw [hp]
        exact .deliver rfl now
      · rw [hp]
        exact .refuse rfl
  | checkTimeout now =>
      obtain rfl := Option.some.inj h
      exact .checkTimeout now
  | setTimeout timeout =>
      obtain rfl := Option.some.inj h
      exact .setTimeout timeout
  | setDeliveryCallback callback =>
      obtain rfl := Option.some.inj h
      exact .setDeliveryCallback callback
  | setTimeoutCallback callback =>
      obtain rfl := Option.some.inj h
      exact .setTimeoutCallback callback
  | fire now =>
      simp only [step] at h
      split at h
      · rename_i hfiring
        obtain rfl := Option.some.inj h
        exact .fire hfiring now
      · cases h
  | runDelivery =>
      simp only [step] at h
      split at h
      · rename_i hthreads
        obtain rfl := Option.some.inj h
        exact .runDelivery hthreads
      · cases h
  | runTimeout =>
      simp only [step] at h
      split at h
      · rename_i hthreads
        obtain rfl := Option.some.inj h
        exact .runTimeout hthreads
      · cases h

theorem moves_markDelivered (now : F) : (markDelivered s now).2.status = s.status ∨
    Moves s.status (markDelivered s now).2.status := by
  unfold markDelivered
  split
  · exact .inl rfl
  · rename_i hstatus
    right
    cases h : s.status with
    | sent => exact .deliver
    | failed => exact .deliverLate
    | delivered => exact absurd ⟨by simp [h], by simp [h]⟩ hstatus
    | culled => exact absurd ⟨by simp [h], by simp [h]⟩ hstatus

theorem moves_checkTimeout (now : F) : (checkTimeout t s now).status = s.status ∨
    Moves s.status (checkTimeout t s now).status := by
  unfold checkTimeout
  split
  · exact .inl rfl
  rename_i hstatus
  rw [not_not] at hstatus
  split
  · exact .inl rfl
  · right
    rw [hstatus]
    dsimp only
    split
    · exact .cull
    · exact .fail

/-- Every step keeps the status or makes one of its moves. -/
theorem moves_of_does (h : Does debug t s e s') :
    s'.status = s.status ∨ Moves s.status s'.status := by
  cases h with
  | refuse => exact .inl rfl
  | deliver _ now => exact moves_markDelivered now
  | checkTimeout now => exact moves_checkTimeout now
  | setTimeout timeout => exact .inl rfl
  | setDeliveryCallback callback =>
      unfold setDeliveryCallback
      split <;> exact .inl rfl
  | setTimeoutCallback callback =>
      unfold setTimeoutCallback
      split <;> exact .inl rfl
  | fire _ now =>
      unfold fireDeliveryCallback
      split <;> exact .inl rfl
  | runDelivery => exact .inl rfl
  | runTimeout => exact .inl rfl

/-! ## The account of the callbacks -/

/-- The runs of the delivery callback that are still to come. -/
def deliveryDue (s : Inner F K) : Nat :=
  (s.firing.flatMap Option.toList).length + s.deliveryThreads.length

/-- Each flag says that one callback is due, has run or was lost. -/
structure Inv (s : Inner F K) : Prop where
  delivery : s.deliveryRuns.length + deliveryDue s + s.lost = s.deliveryNotified.toNat
  deliveryNotified :
    s.deliveryNotified = true ↔ s.status = .delivered ∧ s.deliveryCallback.isSome = true
  timeout : s.timeoutRuns.length + s.timeoutThreads.length = s.timeoutNotified.toNat
  timeoutNotified : s.timeoutNotified = true → s.status ≠ .sent

theorem inv_fromParts (sentAt timeout : F) : Inv (Inner.fromParts sentAt timeout : Inner F K) where
  delivery := rfl
  deliveryNotified := iff_of_false nofun (fun h => nomatch h.1)
  timeout := rfl
  timeoutNotified := nofun

section

variable (h : Inv s)

include h

theorem inv_markDelivered (now : F) : Inv (markDelivered s now).2 := by
  unfold markDelivered
  split
  · exact h
  rename_i hstatus
  have hquiet : s.deliveryNotified = false := by
    by_contra hnotified
    rw [Bool.not_eq_false, h.deliveryNotified] at hnotified
    exact hstatus (by simp [hnotified.1])
  have hnone := h.delivery
  rw [hquiet] at hnone
  constructor
  · cases hcallback : s.deliveryCallback with
    | none => simpa [deliveryDue] using hnone
    | some callback =>
        simp only [deliveryDue, Bool.toNat_false] at hnone
        simp only [deliveryDue, List.flatMap_append, List.flatMap_singleton, List.length_append,
          Option.toList_some, List.length_singleton, Option.isSome_some, Bool.toNat_true]
        omega
  · simp
  · exact h.timeout
  · exact nofun

theorem inv_checkTimeout (now : F) : Inv (checkTimeout t s now) := by
  unfold checkTimeout
  split
  · exact h
  rename_i hstatus
  rw [not_not] at hstatus
  split
  · exact h
  have hquiet : s.timeoutNotified = false := by
    by_contra hnotified
    exact h.timeoutNotified (by simpa using hnotified) hstatus
  have hundelivered : s.deliveryNotified = false := by
    by_contra hnotified
    rw [Bool.not_eq_false, h.deliveryNotified, hstatus] at hnotified
    exact nomatch hnotified.1
  have hnone := h.timeout
  rw [hquiet] at hnone
  constructor
  · exact h.delivery
  · rw [hundelivered]
    refine iff_of_false nofun ?_
    dsimp only
    split
    · exact fun hdelivered => nomatch hdelivered.1
    · exact fun hdelivered => nomatch hdelivered.1
  · cases hcallback : s.timeoutCallback with
    | none => simpa using hnone
    | some callback =>
        simp only [Bool.toNat_false] at hnone
        simp
        omega
  · intro _
    dsimp only
    split
    · exact nofun
    · exact nofun

theorem inv_setDeliveryCallback (callback : K) :
    Inv (setDeliveryCallback s callback) := by
  unfold setDeliveryCallback
  split
  · rename_i hlate
    have hquiet : s.deliveryNotified = false := by simpa using hlate.2
    have hnone := h.delivery
    rw [hquiet] at hnone
    constructor
    · simp only [deliveryDue, Bool.toNat_false] at hnone
      simp only [deliveryDue, List.length_append, List.length_singleton, Bool.toNat_true]
      omega
    · simp [hlate.1]
    · exact h.timeout
    · exact h.timeoutNotified
  · rename_i hlate
    constructor
    · exact h.delivery
    · constructor
      · intro hnotified
        exact ⟨(h.deliveryNotified.mp hnotified).1, rfl⟩
      · rintro ⟨hstatus, -⟩
        by_contra hnotified
        exact hlate ⟨hstatus, hnotified⟩
    · exact h.timeout
    · exact h.timeoutNotified

theorem inv_setTimeoutCallback (callback : K) :
    Inv (setTimeoutCallback s callback) := by
  unfold setTimeoutCallback
  split
  · rename_i hlate
    have hquiet : s.timeoutNotified = false := by simpa using hlate.2
    have hnone := h.timeout
    rw [hquiet] at hnone
    constructor
    · exact h.delivery
    · exact h.deliveryNotified
    · simp only [Bool.toNat_false] at hnone
      simp
      omega
    · intro _ hsent
      rcases hlate.1 with hstatus | hstatus
      · exact nomatch hstatus.symm.trans hsent
      · exact nomatch hstatus.symm.trans hsent
  · exact ⟨h.delivery, h.deliveryNotified, h.timeout, h.timeoutNotified⟩

theorem inv_fire {callback : Option K} {rest : List (Option K)}
    (hfiring : s.firing = callback :: rest) (now : F) :
    Inv (fireDeliveryCallback debug t { s with firing := rest } callback now) := by
  have hdelivery := h.delivery
  simp only [deliveryDue, hfiring, List.flatMap_cons, List.length_append] at hdelivery
  unfold fireDeliveryCallback
  split
  · refine ⟨?_, h.deliveryNotified, h.timeout, h.timeoutNotified⟩
    simp only [deliveryDue]
    omega
  · refine ⟨?_, h.deliveryNotified, h.timeout, h.timeoutNotified⟩
    simp only [deliveryDue, List.length_append]
    omega

theorem inv_of_does (hdoes : Does debug t s e s') : Inv s' := by
  cases hdoes with
  | refuse => exact h
  | deliver _ now => exact inv_markDelivered h now
  | checkTimeout now => exact inv_checkTimeout h now
  | setTimeout timeout => exact ⟨h.delivery, h.deliveryNotified, h.timeout, h.timeoutNotified⟩
  | setDeliveryCallback callback => exact inv_setDeliveryCallback h callback
  | setTimeoutCallback callback => exact inv_setTimeoutCallback h callback
  | fire hfiring now => exact inv_fire h hfiring now
  | runDelivery hthreads =>
      refine ⟨?_, h.deliveryNotified, h.timeout, h.timeoutNotified⟩
      have hdelivery := h.delivery
      simp only [deliveryDue, hthreads, List.length_cons] at hdelivery
      simp only [deliveryDue, List.length_append, List.length_singleton]
      omega
  | runTimeout hthreads =>
      refine ⟨h.delivery, h.deliveryNotified, ?_, h.timeoutNotified⟩
      have htimeout := h.timeout
      simp only [hthreads, List.length_cons] at htimeout
      simp only [List.length_append, List.length_singleton]
      omega

end

/-! ## Runs -/

/-- The time of sending stays, and only a panic of the assertion loses a
callback. -/
theorem lost_of_does (h : Does debug t s e s') :
    s'.sentAt = s.sentAt ∧
      (s'.lost = s.lost ∨ debug = true ∧ ∃ now, e = .fire now ∧ t.inTime s.sentAt now = false) := by
  cases h with
  | refuse => exact ⟨rfl, .inl rfl⟩
  | deliver _ now =>
      unfold markDelivered
      split <;> exact ⟨rfl, .inl rfl⟩
  | checkTimeout now =>
      unfold checkTimeout
      split
      · exact ⟨rfl, .inl rfl⟩
      · split <;> exact ⟨rfl, .inl rfl⟩
  | setTimeout timeout => exact ⟨rfl, .inl rfl⟩
  | setDeliveryCallback callback =>
      unfold setDeliveryCallback
      split <;> exact ⟨rfl, .inl rfl⟩
  | setTimeoutCallback callback =>
      unfold setTimeoutCallback
      split <;> exact ⟨rfl, .inl rfl⟩
  | fire _ now =>
      unfold fireDeliveryCallback
      split
      · rename_i hlate
        exact ⟨rfl, .inr ⟨hlate.1, now, rfl, by simpa using hlate.2⟩⟩
      · exact ⟨rfl, .inl rfl⟩
  | runDelivery => exact ⟨rfl, .inl rfl⟩
  | runTimeout => exact ⟨rfl, .inl rfl⟩

/-- A delivery callback stays registered, and is registered by its event. -/
theorem registered_of_does (h : Does debug t s e s') :
    s'.deliveryCallback.isSome = true ↔
      s.deliveryCallback.isSome = true ∨ ∃ callback, e = .setDeliveryCallback callback := by
  cases h with
  | refuse hproof =>
      rw [or_iff_left]
      rintro ⟨callback, rfl⟩
      cases hproof
  | deliver hproof now =>
      rw [or_iff_left]
      · unfold markDelivered
        split <;> exact Iff.rfl
      · rintro ⟨callback, rfl⟩
        cases hproof
  | checkTimeout now =>
      rw [or_iff_left nofun]
      unfold checkTimeout
      split
      · exact Iff.rfl
      · split <;> exact Iff.rfl
  | setTimeout timeout => exact (or_iff_left nofun).symm
  | setDeliveryCallback callback =>
      refine iff_of_true ?_ (.inr ⟨callback, rfl⟩)
      unfold setDeliveryCallback
      split <;> rfl
  | setTimeoutCallback callback =>
      rw [or_iff_left nofun]
      unfold setTimeoutCallback
      split <;> exact Iff.rfl
  | fire _ now =>
      rw [or_iff_left nofun]
      unfold fireDeliveryCallback
      split <;> exact Iff.rfl
  | runDelivery => exact (or_iff_left nofun).symm
  | runTimeout => exact (or_iff_left nofun).symm

/-- The timeout callback is on its way or has run. -/
def TimeoutTold (s : Inner F K) : Prop := s.timeoutRuns.length + s.timeoutThreads.length ≠ 0

/-- Only a receipt that is FAILED or CULLED starts the timeout callback. -/
theorem told_of_does (h : Does debug t s e s') (hs : ¬ TimeoutTold s) (hs' : TimeoutTold s') :
    s'.status = .failed ∨ s'.status = .culled := by
  unfold TimeoutTold at hs hs'
  cases h with
  | refuse => exact absurd hs' hs
  | deliver _ now =>
      unfold markDelivered at hs'
      split at hs' <;> exact absurd hs' hs
  | checkTimeout now =>
      unfold checkTimeout at hs' ⊢
      split at hs'
      · exact absurd hs' hs
      rename_i hstatus
      rw [if_neg hstatus]
      split at hs'
      · exact absurd hs' hs
      rename_i hwaits
      rw [if_neg hwaits]
      dsimp only
      split
      · exact .inr rfl
      · exact .inl rfl
  | setTimeout timeout => exact absurd hs' hs
  | setDeliveryCallback callback =>
      unfold setDeliveryCallback at hs'
      split at hs' <;> exact absurd hs' hs
  | setTimeoutCallback callback =>
      unfold setTimeoutCallback at hs' ⊢
      split at hs'
      · rename_i hlate
        rw [if_pos hlate]
        exact hlate.1
      · exact absurd hs' hs
  | fire _ now =>
      unfold fireDeliveryCallback at hs'
      split at hs' <;> exact absurd hs' hs
  | runDelivery => exact absurd hs' hs
  | runTimeout hthreads =>
      rw [hthreads, List.length_cons] at hs
      omega

variable {sentAt timeout : F} {es : List (Event F K)}

theorem inv_of_exec (h : Inv s) (hrun : exec (step debug c t receipt) s es = some s') : Inv s' :=
  invariant_of_step (fun _ _ _ hs hstep => inv_of_does hs (does_of_step hstep)) h hrun

theorem registered_of_exec (h : exec (step debug c t receipt) s es = some s') :
    s'.deliveryCallback.isSome = true ↔
      s.deliveryCallback.isSome = true ∨ ∃ callback, .setDeliveryCallback callback ∈ es := by
  induction es generalizing s with
  | nil =>
      obtain rfl : s = s' := by simpa using h
      simp
  | cons e es ih =>
      obtain ⟨m, he, hrest⟩ := exec_cons_eq_some.mp h
      rw [ih hrest, registered_of_does (does_of_step he), or_assoc, ← exists_or]
      simp only [List.mem_cons, eq_comm]

theorem mem_of_prefix {done : List (Event F K)} (h : done ++ [e] <+: es) : e ∈ es :=
  h.subset (by simp)

theorem sentAt_of_exec (h : exec (step debug c t receipt) s es = some s') : s'.sentAt = s.sentAt :=
  invariant_of_step (P := fun m : Inner F K => m.sentAt = s.sentAt)
    (fun _ _ _ hm hstep => (lost_of_does (does_of_step hstep)).1.trans hm) rfl h

/-- A lost callback was lost to the assertion. -/
theorem lost_of_exec (h : exec (step debug c t receipt) s es = some s') (hs : s.lost = 0)
    (hs' : s'.lost ≠ 0) : debug = true ∧ ∃ now, .fire now ∈ es ∧ t.inTime s.sentAt now = false := by
  obtain ⟨done, e, m, m', hdone, hrun, hstep, hm, hm'⟩ :=
    exists_step_of_exec (P := fun s : Inner F K => s.lost ≠ 0) (not_not.mpr hs) h hs'
  rcases (lost_of_does (does_of_step hstep)).2 with hsame | ⟨hdebug, now, rfl, hlate⟩
  · rw [hsame] at hm'
    exact absurd hm' hm
  · rw [sentAt_of_exec hrun] at hlate
    exact ⟨hdebug, now, mem_of_prefix hdone, hlate⟩

/-- The status makes only its moves. Each callback runs at most once: the
delivery callback does so once the receipt is delivered, if one was ever
registered and the assertion on the time of sending does not panic, and the
timeout callback only of a receipt that was failed or culled. -/
theorem receipt_runs
    (h : exec (step debug c t receipt) (Inner.fromParts sentAt timeout) es = some s) :
    (∀ done e m m', done ++ [e] <+: es →
      exec (step debug c t receipt) (Inner.fromParts sentAt timeout) done = some m →
      step debug c t receipt m e = some m' → m'.status = m.status ∨ Moves m.status m'.status) ∧
    s.deliveryRuns.length ≤ 1 ∧
    (s.status = .delivered → (∃ callback, .setDeliveryCallback callback ∈ es) →
      s.deliveryRuns.length + deliveryDue s = 1 ∨
        s.deliveryRuns = [] ∧ debug = true ∧ ∃ now, .fire now ∈ es ∧ t.inTime sentAt now = false) ∧
    s.timeoutRuns.length ≤ 1 ∧
    (s.timeoutRuns ≠ [] → ∃ done m, done <+: es ∧
      exec (step debug c t receipt) (Inner.fromParts sentAt timeout) done = some m ∧
      (m.status = .failed ∨ m.status = .culled)) := by
  have hinv : Inv s := inv_of_exec (inv_fromParts sentAt timeout) h
  have hdelivery := hinv.delivery
  have htimeout := hinv.timeout
  have hbit : s.deliveryNotified.toNat ≤ 1 := Bool.toNat_le _
  have hbit' : s.timeoutNotified.toNat ≤ 1 := Bool.toNat_le _
  refine ⟨?_, by omega, ?_, by omega, ?_⟩
  · intro done e m m' _ _ hstep
    exact moves_of_does (does_of_step hstep)
  · intro hdelivered hregistered
    have hcallback : s.deliveryCallback.isSome = true :=
      (registered_of_exec h).mpr (.inr hregistered)
    rw [hinv.deliveryNotified.mpr ⟨hdelivered, hcallback⟩, Bool.toNat_true] at hdelivery
    by_cases hlost : s.lost = 0
    · left
      omega
    · right
      refine ⟨List.eq_nil_of_length_eq_zero (by omega), ?_⟩
      exact lost_of_exec h rfl hlost
  · intro hruns
    have hlength : s.timeoutRuns.length ≠ 0 := by simpa using hruns
    obtain ⟨done, e, m, m', hdone, hrun, hstep, hm, hm'⟩ :=
      exists_step_of_exec (P := TimeoutTold) (by simp [TimeoutTold, Inner.fromParts]) h
        (by unfold TimeoutTold; omega)
    refine ⟨done ++ [e], m', hdone, ?_, told_of_does (does_of_step hstep) hm hm'⟩
    rw [exec_append_of_eq hrun]
    exact exec_cons_eq_some.mpr ⟨m', hstep, rfl⟩

/-- Times in whole seconds. -/
def sampleTimes : Times Nat where
  waits sentAt timeout now := now ≤ sentAt + timeout
  isMinusOne _ := false
  inTime sentAt now := sentAt = 0 ∨ now ≤ sentAt + 5

/-- The receipt of a packet to an identity whose signature of the hash is a row
of ones. -/
def sampleReceipt : PacketReceipt :=
  { hash := (Link.pad 32 [1]).1, identity := some (Link.pad 64 []).1 }

/-- The proof of the packet. -/
def sampleProof : Bytes := sampleReceipt.hash ++ (Link.pad 64 (List.replicate 64 1)).1

section

set_option maxRecDepth 4096

/-- A proof after the timeout delivers the receipt, and both callbacks run. -/
theorem receipt_runs_late_proof :
    ∃ s, exec (step false (Link.sampleCrypto [sampleReceipt.hash]) sampleTimes sampleReceipt)
        (Inner.fromParts 1 1 : Inner Nat Nat)
        [.setDeliveryCallback 7, .setTimeoutCallback 8, .checkTimeout 3, .runTimeout,
          .validateProof sampleProof 9, .fire 9] = some s ∧
      s.status = .delivered ∧ s.deliveryRuns = [7] ∧ s.timeoutRuns = [8] ∧
      s.deliveryRuns.length ≤ 1 ∧ s.timeoutRuns.length ≤ 1 := by
  obtain ⟨s, hrun, hstatus, hdelivery, htimeout⟩ : ∃ s,
      exec (step false (Link.sampleCrypto [sampleReceipt.hash]) sampleTimes sampleReceipt)
        (Inner.fromParts 1 1 : Inner Nat Nat)
        [.setDeliveryCallback 7, .setTimeoutCallback 8, .checkTimeout 3, .runTimeout,
          .validateProof sampleProof 9, .fire 9] = some s ∧
      s.status = .delivered ∧ s.deliveryRuns = [7] ∧ s.timeoutRuns = [8] :=
    ⟨_, rfl, rfl, rfl, rfl⟩
  obtain ⟨-, honce, -, honce', -⟩ := receipt_runs hrun
  exact ⟨s, hrun, hstatus, hdelivery, htimeout, honce, honce'⟩

/-- With debug assertions, a proof eight seconds after the packet was sent
delivers the receipt, and the registered callback never runs. -/
theorem receipt_runs_false :
    ∃ s, exec (step true (Link.sampleCrypto [sampleReceipt.hash]) sampleTimes sampleReceipt)
        (Inner.fromParts 1 20 : Inner Nat Nat)
        [.setDeliveryCallback 7, .validateProof sampleProof 9, .fire 9] = some s ∧
      s.status = .delivered ∧ s.deliveryCallback = some 7 ∧ s.deliveryRuns = [] ∧
      deliveryDue s = 0 ∧ s.deliveryNotified = true :=
  ⟨_, rfl, rfl, rfl, rfl, rfl, rfl⟩

end

end Reticulum.Receipt
