import Mathlib.Data.Rat.Defs
import Mathlib.Algebra.Order.Ring.Rat
import Reticulum.Lib.Lock
import Reticulum.Channel.Receive

/-!
# The operations of a channel and its lock

`Channel` keeps its state behind one `std::sync::Mutex`, which each operation
takes for parts of its work (`src/channel.rs`). The operations are given with
the extent of every guard.

## Implementation notes

The outlet is a trait without an implementation in the repository. Its answers
during one operation are a parameter of it, and what it is asked to do is
recorded in order. Times are rational numbers. An envelope in `tx_ring` keeps the
fields that the operations read. Log lines are left out.
-/

namespace Reticulum.Channel

open Lock Lock.Call

inductive MessageState
  | new
  | sent
  | delivered
  | failed
  deriving DecidableEq, Repr

/-- The answers of a `ChannelOutletBase` during one operation. -/
structure Outlet (Packet : Type*) where
  isUsable : Bool
  mdu : Nat
  rtt : ℚ
  getPacketState : Packet → MessageState
  getPacketId : Packet → Option Bytes
  send : Bytes → Packet

/-- What an outlet is asked to do. A callback is set to the channel's own or
removed; a timeout callback without either only changes its time. -/
inductive Request (Packet : Type*)
  | send (raw : Bytes)
  | resend (packet : Packet)
  | setPacketDeliveredCallback (packet : Packet) (callback : Bool)
  | setPacketTimeoutCallback (packet : Packet) (callback : Bool) (timeout : Option ℚ)
  | timedOut
  deriving DecidableEq

/-- An `Envelope` on the sending side. -/
structure TxEnvelope (Packet : Type*) where
  sequence : Nat
  raw : Bytes
  packet : Option Packet
  tries : Nat
  deriving DecidableEq

/-- `ChannelState`, with what the outlet was asked so far. -/
structure Inner (Msg Packet : Type*) where
  rx : ChannelState Msg
  txRing : List (TxEnvelope Packet)
  nextSequence : Nat
  maxTries : Nat
  fastRateRounds : Nat
  mediumRateRounds : Nat
  window : Nat
  windowMax : Nat
  windowMin : Nat
  windowFlexibility : Nat
  requests : List (Request Packet)

variable {Msg Packet : Type}

def rttFast : ℚ := 18 / 100

def rttMedium : ℚ := 75 / 100

def rttSlow : ℚ := 145 / 100

def windowMaxMedium : Nat := 12

def windowMinLimitMedium : Nat := 5

def windowMinLimitFast : Nat := 16

def fastRateThreshold : Nat := 10

/-- `Channel::new` on an outlet with this round-trip time. -/
def Inner.new (factories : Factories Msg) (callbacks : List (Msg → Bool)) (rtt : ℚ) :
    Inner Msg Packet :=
  { rx := ChannelState.new factories callbacks
    txRing := []
    nextSequence := 0
    maxTries := 5
    fastRateRounds := 0
    mediumRateRounds := 0
    window := if rttSlow < rtt then 1 else 2
    windowMax := if rttSlow < rtt then 1 else 5
    windowMin := if rttSlow < rtt then 1 else 2
    windowFlexibility := if rttSlow < rtt then 1 else 4
    requests := [] }

/-- Ask the outlet. -/
def ask (requests : List (Request Packet)) : Call (Inner Msg Packet) Unit :=
  update fun c => { c with requests := c.requests ++ requests }

section

variable (outlet : Outlet Packet)

/-- An envelope that the outlet has not reported as delivered. -/
def Outlet.outstanding (envelope : TxEnvelope Packet) : Bool :=
  match envelope.packet with
  | none => true
  | some packet => outlet.getPacketState packet != .delivered

/-- The answer of `is_ready_to_send`. -/
def Inner.ready (c : Inner Msg Packet) (outlet : Outlet Packet) : Bool :=
  outlet.isUsable && c.txRing.countP outlet.outstanding < c.window

def isReadyToSend : Call (Inner Msg Packet) Bool :=
  if outlet.isUsable = false then pure false
  else withLock do
    let inner ← read
    pure (decide (inner.txRing.countP outlet.outstanding < inner.window))

/-- `Channel::get_packet_timeout_time`, which reads the ring under the lock. -/
def getPacketTimeoutTime (tries : Nat) : Call (Inner Msg Packet) ℚ :=
  withLock do
    let inner ← read
    let base := max outlet.rtt 0 * (5 / 2)
    pure ((3 / 2) ^ (max tries 1 - 1) * max base (1 / 40) * (inner.txRing.length + 3 / 2))

/-- `Channel::update_packet_timeouts`: one guard for the whole loop. -/
def updatePacketTimeouts : Call (Inner Msg Packet) Unit :=
  withLock do
    let inner ← read
    forEach (fun envelope => do
      let updatedTimeout ← getPacketTimeoutTime outlet envelope.tries
      ask (envelope.packet.toList.map fun packet =>
        .setPacketTimeoutCallback packet false (some updatedTimeout))) inner.txRing

/-- `Channel::emplace_envelope` into `tx_ring`. -/
def emplaceTxEnvelope (envelope : TxEnvelope Packet) (nextRxSequence : Nat) :
    List (TxEnvelope Packet) → List (TxEnvelope Packet)
  | [] => [envelope]
  | existing :: ring =>
      if envelope.sequence = existing.sequence then existing :: ring
      else if envelope.sequence < existing.sequence ∧
          ¬ seqDistance nextRxSequence envelope.sequence > seqMax / 2 then
        envelope :: existing :: ring
      else existing :: emplaceTxEnvelope envelope nextRxSequence ring

def shutdown : Call (Inner Msg Packet) Unit :=
  withLock do
    update fun inner => { inner with
      rx := { inner.rx with messageCallbacks := [], rxRing := [] }
      txRing := []
      requests := inner.requests ++ inner.txRing.flatMap fun envelope =>
        envelope.packet.toList.flatMap fun packet =>
          [.setPacketTimeoutCallback packet false none,
            .setPacketDeliveredCallback packet false] }

/-- The part of `Channel::send` after an envelope of the right size is packed:
hand it to the outlet, keep it, and set its callbacks. -/
def sendPacked (sequence : Nat) (raw : Bytes) :
    Call (Inner Msg Packet) (TxEnvelope Packet) := do
  ask [.send raw]
  let packet := outlet.send raw
  let envelope : TxEnvelope Packet :=
    { sequence := sequence, raw := raw, packet := some packet, tries := 1 }
  withLock (update fun inner => { inner with
    txRing := emplaceTxEnvelope envelope inner.rx.nextRxSequence inner.txRing })
  ask [.setPacketDeliveredCallback packet true]
  let timeout ← getPacketTimeoutTime outlet envelope.tries
  ask [.setPacketTimeoutCallback packet true (some timeout)]
  updatePacketTimeouts outlet
  pure envelope

/-- Take the next sequence number. -/
def takeSequence : Call (Inner Msg Packet) Nat :=
  withLock do
    let inner ← read
    update fun inner => { inner with nextSequence := (inner.nextSequence + 1) % seqModulus }
    pure inner.nextSequence

/-- `Channel::send` of a message. -/
def sendMessage [MessageBase Msg] (outlet : Outlet Packet) (message : Msg) :
    Call (Inner Msg Packet) (Except ChannelException (TxEnvelope Packet)) := do
  let ready ← isReadyToSend outlet
  if ready = false then pure (.error ⟨.linkNotReady, "Link is not ready"⟩)
  else
    let sequence ← takeSequence
    match Envelope.pack (some message) sequence with
    | .error err => pure (.error err)
    | .ok raw =>
        if raw.length > outlet.mdu then
          pure (.error ⟨.tooBig, "Packed message too big for packet: " ++ toString raw.length ++
            " > " ++ toString outlet.mdu⟩)
        else
          let envelope ← sendPacked outlet sequence raw
          pure (.ok envelope)

/-- The packet of this envelope has the id of the given one. -/
def Outlet.matchesPacket (packet : Packet)
    (envelope : TxEnvelope Packet) : Bool :=
  match envelope.packet.bind outlet.getPacketId, outlet.getPacketId packet with
  | some envId, some pktId => envId == pktId
  | _, _ => false

/-- How the window grows when an envelope leaves the ring. -/
def growWindow (rtt : ℚ) (inner : Inner Msg Packet) : Inner Msg Packet :=
  if inner.window < inner.windowMax then
    let inner := { inner with window := inner.window + 1 }
    if rtt ≠ 0 then
      if rttFast < rtt then
        let inner := { inner with fastRateRounds := 0 }
        if rttMedium < rtt then { inner with mediumRateRounds := 0 }
        else
          let inner := { inner with mediumRateRounds := inner.mediumRateRounds + 1 }
          if inner.windowMax < windowMaxMedium ∧ inner.mediumRateRounds = fastRateThreshold then
            { inner with windowMax := windowMaxMedium, windowMin := windowMinLimitMedium }
          else inner
      else
        let inner := { inner with fastRateRounds := inner.fastRateRounds + 1 }
        if inner.windowMax < windowMax ∧ inner.fastRateRounds = fastRateThreshold then
          { inner with windowMax := windowMax, windowMin := windowMinLimitFast }
        else inner
    else inner
  else inner

/-- `Channel::packet_tx_op`: the operation runs on the envelope, taken out of the
ring, under the guard. -/
def packetTxOp (packet : Packet)
    (op : TxEnvelope Packet → Call (Inner Msg Packet) (Bool × TxEnvelope Packet)) :
    Call (Inner Msg Packet) Unit :=
  withLock do
    let inner ← read
    match inner.txRing.find? (outlet.matchesPacket packet) with
    | none => pure ()
    | some envelope => do
        update fun inner =>
          { inner with txRing := inner.txRing.eraseP (outlet.matchesPacket packet) }
        let (remove, envelope) ← op envelope
        if remove then update (growWindow outlet.rtt)
        else update fun inner => { inner with txRing := inner.txRing ++ [envelope] }

def packetDelivered (packet : Packet) :
    Call (Inner Msg Packet) Unit :=
  packetTxOp outlet packet fun envelope => pure (true, envelope)

/-- How the window shrinks after a timeout. -/
def shrinkWindow (inner : Inner Msg Packet) : Inner Msg Packet :=
  if inner.window > inner.windowMin then
    let inner := { inner with window := inner.window - 1 }
    if inner.windowMax > inner.windowMin + inner.windowFlexibility then
      { inner with windowMax := inner.windowMax - 1 }
    else inner
  else inner

/-- What `packet_timeout` does with the envelope of its packet. -/
def retry (maxTries : Nat) (envelope : TxEnvelope Packet) :
    Call (Inner Msg Packet) (Bool × TxEnvelope Packet) :=
  if envelope.tries ≥ maxTries then do
    shutdown
    ask [.timedOut]
    pure (true, envelope)
  else do
    let envelope := { envelope with tries := envelope.tries + 1 }
    ask (envelope.packet.toList.flatMap fun packet =>
      [.resend packet, .setPacketDeliveredCallback packet true])
    let timeout ← getPacketTimeoutTime outlet envelope.tries
    ask (envelope.packet.toList.map fun packet =>
      .setPacketTimeoutCallback packet true (some timeout))
    updatePacketTimeouts outlet
    withLock (update shrinkWindow)
    pure (false, envelope)

def packetTimeout (packet : Packet) : Call (Inner Msg Packet) Unit := do
  let maxTries ← withLock do
    let inner ← read
    pure inner.maxTries
  packetTxOp outlet packet (retry outlet maxTries)

end

/-- The guarded part of `Channel::receive`: the envelopes that are now
contiguous, unless the envelope is dropped. -/
def acceptEnvelope [MessageBase Msg] (rx : ChannelState Msg) (raw : Bytes) :
    Option (ChannelState Msg × List (Envelope Msg)) :=
  match (Envelope.ofRaw raw : Envelope Msg).unpack rx.messageFactories with
  | .error _ => none
  | .ok envelope =>
      if invalidSequence rx.nextRxSequence envelope.sequence then none
      else
        match emplaceEnvelope envelope rx.nextRxSequence rx.rxRing with
        | (false, _) => none
        | (true, ring) =>
            let (contiguous, left, next) :=
              takeContiguous rx.messageFactories ring rx.nextRxSequence
            some ({ rx with rxRing := left, nextRxSequence := next }, contiguous)

/-- `Channel::receive`: the callbacks run after both guards are dropped. -/
def receiveRaw [MessageBase Msg] (raw : Bytes) :
    Call (Inner Msg Packet) (List (Msg × Nat)) := do
  let contig ← withLock do
    let inner ← read
    match acceptEnvelope inner.rx raw with
    | none => pure none
    | some (rx, contiguous) => do
        update fun inner => { inner with rx := rx }
        pure (some contiguous)
  match contig with
  | none => pure []
  | some contiguous => do
      let callbacks ← withLock do
        let inner ← read
        pure inner.rx.messageCallbacks
      pure ((contiguous.filterMap Envelope.message).map fun message =>
        (message, offer callbacks message))

end Reticulum.Channel
