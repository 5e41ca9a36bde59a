import Reticulum.Channel.Envelope

/-!
# The receiving side of a channel

`Channel::receive` unpacks an envelope, drops it when its sequence number is
behind the next one expected, puts it into `rx_ring`, and hands every message
that is now contiguous to the callbacks.

## Implementation notes

Sequence numbers are the `u16` values as natural numbers below `seqModulus`;
the comparisons and the `u32` arithmetic are those of the source. The part of
`ChannelState` that only sending uses is left out. Log lines are left out.
-/

namespace Reticulum.Channel

/-- `Channel::WINDOW_MAX`, which is `WINDOW_MAX_FAST`. -/
def windowMax : Nat := 48

def seqMax : Nat := 0xFFFF

def seqModulus : Nat := seqMax + 1

/-- The receiving part of `ChannelState`. -/
structure ChannelState (Msg : Type*) where
  rxRing : List (Envelope Msg)
  nextRxSequence : Nat
  messageFactories : Factories Msg
  messageCallbacks : List (Msg → Bool)

variable {Msg : Type*}

/-- `Channel::new`, with the message types and handlers registered so far. -/
def ChannelState.new (factories : Factories Msg) (callbacks : List (Msg → Bool)) :
    ChannelState Msg :=
  { rxRing := [], nextRxSequence := 0
    messageFactories := factories, messageCallbacks := callbacks }

/-- The sequence test of `receive`: a number below the next one expected is
refused, unless the receive window wraps and the number lies in its wrapped
part. -/
def invalidSequence (nextRxSequence sequence : Nat) : Bool :=
  if sequence < nextRxSequence then
    let windowOverflow := (nextRxSequence + windowMax) % seqModulus
    if windowOverflow < nextRxSequence then decide (windowOverflow < sequence) else true
  else false

def seqDistance (src dst : Nat) : Nat :=
  if dst ≤ src then src - dst else src + seqModulus - dst

/-- `Channel::emplace_envelope`: whether the envelope is new, and the ring. -/
def emplaceEnvelope (envelope : Envelope Msg) (nextRxSequence : Nat) :
    List (Envelope Msg) → Bool × List (Envelope Msg)
  | [] => (true, [envelope])
  | existing :: ring =>
      if envelope.sequence = existing.sequence then (false, existing :: ring)
      else if envelope.sequence < existing.sequence ∧
          ¬ seqDistance nextRxSequence envelope.sequence > seqMax / 2 then
        (true, envelope :: existing :: ring)
      else
        let (isNew, rest) := emplaceEnvelope envelope nextRxSequence ring
        (isNew, existing :: rest)

/-- The first envelope of the ring with this sequence number, and the ring
without it. -/
def removeSequence (sequence : Nat) :
    List (Envelope Msg) → Option (Envelope Msg × List (Envelope Msg))
  | [] => none
  | envelope :: ring =>
      if envelope.sequence = sequence then some (envelope, ring)
      else (removeSequence sequence ring).map fun found => (found.1, envelope :: found.2)

theorem removeSequence_length {sequence : Nat} {ring rest : List (Envelope Msg)}
    {envelope : Envelope Msg} (h : removeSequence sequence ring = some (envelope, rest)) :
    rest.length < ring.length := by
  induction ring generalizing rest with
  | nil => cases h
  | cons first ring ih =>
      simp only [removeSequence] at h
      split at h
      · cases h
        simp
      · obtain ⟨⟨found, rest'⟩, hfound, heq⟩ := Option.map_eq_some_iff.mp h
        cases heq
        have := ih hfound
        simpa using this

variable [MessageBase Msg]

/-- The loop of `receive` that takes contiguous envelopes out of the ring:
the envelopes taken, what is left, and the next sequence number. -/
def takeContiguous (factories : Factories Msg) (ring : List (Envelope Msg))
    (nextRxSequence : Nat) : List (Envelope Msg) × List (Envelope Msg) × Nat :=
  match _h : removeSequence nextRxSequence ring with
  | none => ([], ring, nextRxSequence)
  | some (envelope, rest) =>
      let envelope := if envelope.unpacked then envelope
        else (envelope.unpack factories).toOption.getD envelope
      let (contiguous, left, next) :=
        takeContiguous factories rest ((nextRxSequence + 1) % seqModulus)
      (envelope :: contiguous, left, next)
  termination_by ring.length
  decreasing_by exact removeSequence_length _h

/-- The message is offered to the callbacks in order until one takes it; the
number of callbacks that saw it. -/
def offer (callbacks : List (Msg → Bool)) (message : Msg) : Nat :=
  match callbacks with
  | [] => 0
  | callback :: rest => if callback message then 1 else 1 + offer rest message

/-- `Channel::receive`: the new state, and the messages handed to the
callbacks, each with the number of callbacks that saw it. -/
def receive (inner : ChannelState Msg) (raw : Bytes) :
    ChannelState Msg × List (Msg × Nat) :=
  match (Envelope.ofRaw raw : Envelope Msg).unpack inner.messageFactories with
  | .error _ => (inner, [])
  | .ok envelope =>
      if invalidSequence inner.nextRxSequence envelope.sequence then (inner, [])
      else
        match emplaceEnvelope envelope inner.nextRxSequence inner.rxRing with
        | (false, _) => (inner, [])
        | (true, ring) =>
            let (contiguous, left, next) :=
              takeContiguous inner.messageFactories ring inner.nextRxSequence
            ({ inner with rxRing := left, nextRxSequence := next },
              (contiguous.filterMap Envelope.message).map fun message =>
                (message, offer inner.messageCallbacks message))

end Reticulum.Channel
