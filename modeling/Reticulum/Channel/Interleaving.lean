import Reticulum.Lib.Threads
import Reticulum.Channel.SelfBlock

/-!
# Calls on a channel from several threads

An application sends, the transport receives, and the outlet reports deliveries and timeouts, each
on a thread of its own (`src/channel.rs`). The calls of `Send` are cut at the parts that hold the
lock, so that another thread may come between two of them.

## Implementation notes

A task is a piece of a call with at most one part under the lock. `stuck` is set when a thread asks
for the lock that it already holds: nobody gets it any more, and what needs it waits for ever. Each
task is given the answers of the outlet while it runs.
-/

namespace Reticulum.Channel

open Lock Lock.Call Runs

variable {Msg Packet : Type}

/-- A channel that is shared by threads. -/
structure Shared (Msg Packet : Type) where
  inner : Inner Msg Packet
  stuck : Bool

/-- What a thread may call. -/
inductive Entry (Msg Packet : Type)
  | send (message : Msg)
  | receive (raw : Bytes)
  | shutdown
  | packetDelivered (packet : Packet)
  | packetTimeout (packet : Packet)

/-- A piece of a call. -/
inductive Piece (Msg Packet : Type)
  /-- `send`: is the channel ready? -/
  | ready (message : Msg)
  /-- `send`: take the next number, pack, and look at the size -/
  | number (message : Msg)
  /-- `send`: hand the packed envelope to the outlet -/
  | transmit (sequence : Nat) (raw : Bytes)
  /-- `send`: put the envelope into the ring -/
  | keep (envelope : TxEnvelope Packet)
  /-- `send`: set the callbacks -/
  | arm (envelope : TxEnvelope Packet)
  /-- `send`: update the timeouts of the ring, and return the envelope -/
  | refresh (envelope : TxEnvelope Packet)
  /-- `receive`, under the first guard -/
  | accept (raw : Bytes)
  /-- `receive`, under the second guard -/
  | callbacks (contiguous : List (Envelope Msg))
  | shutdown
  | delivered (packet : Packet)
  /-- `packet_timeout`: read `max_tries` -/
  | readTries (packet : Packet)
  /-- `packet_timeout`: the rest -/
  | timedOut (packet : Packet) (maxTries : Nat)

/-- The first pieces of a call. -/
def Entry.start : Entry Msg Packet → List (Piece Msg Packet)
  | .send message => [.ready message]
  | .receive raw => [.accept raw]
  | .shutdown => [.shutdown]
  | .packetDelivered packet => [.delivered packet]
  | .packetTimeout packet => [.readTries packet]

/-- A piece runs, or waits for the lock. -/
def Shared.run {A : Type} (c : Shared Msg Packet) (piece : Piece Msg Packet)
    (call : Call (Inner Msg Packet) A) (next : A → List (Piece Msg Packet)) :
    Threads.Outcome (Shared Msg Packet) (Piece Msg Packet) :=
  match call c.stuck c.inner with
  | none => { core := { c with stuck := true }, next := [piece] }
  | some (a, inner) => { core := { c with inner := inner }, next := next a }

/-- The part of `sendPacked` that puts an envelope into the ring. -/
def keepEnvelope (envelope : TxEnvelope Packet) : Call (Inner Msg Packet) Unit :=
  withLock (update fun inner => { inner with
    txRing := emplaceTxEnvelope envelope inner.rx.nextRxSequence inner.txRing })

/-- The part of `sendPacked` that sets the callbacks of the packet. -/
def armEnvelope (outlet : Outlet Packet) (envelope : TxEnvelope Packet) (packet : Packet) :
    Call (Inner Msg Packet) Unit := do
  ask [.setPacketDeliveredCallback packet true]
  let timeout ← getPacketTimeoutTime outlet envelope.tries
  ask [.setPacketTimeoutCallback packet true (some timeout)]

/-- The part of `packet_timeout` that reads `max_tries`. -/
def readMaxTries : Call (Inner Msg Packet) Nat :=
  withLock do
    let inner ← read
    pure inner.maxTries

/-- The guarded part of `receive`. -/
def acceptRaw [MessageBase Msg] (raw : Bytes) :
    Call (Inner Msg Packet) (Option (List (Envelope Msg))) :=
  withLock do
    let inner ← read
    match acceptEnvelope inner.rx raw with
    | none => pure none
    | some (rx, contiguous) => do
        update fun inner => { inner with rx := rx }
        pure (some contiguous)

/-- The part of `receive` that reads the callbacks. -/
def readCallbacks : Call (Inner Msg Packet) (List (Msg → Bool)) :=
  withLock do
    let inner ← read
    pure inner.rx.messageCallbacks

/-- The pieces of `send` that follow once an envelope is packed. -/
def afterNumber (outlet : Outlet Packet) (sequence : Nat) :
    Except ChannelException Bytes → List (Piece Msg Packet)
  | .error _ => []
  | .ok raw => if raw.length > outlet.mdu then [] else [.transmit sequence raw]

/-- What a piece does. -/
def Piece.exec [MessageBase Msg] (piece : Piece Msg Packet) (outlet : Outlet Packet)
    (c : Shared Msg Packet) : Threads.Outcome (Shared Msg Packet) (Piece Msg Packet) :=
  match piece with
  | .ready message => c.run piece (isReadyToSend outlet) fun ready =>
      if ready = false then [] else [.number message]
  | .number message => c.run piece takeSequence fun sequence =>
      afterNumber outlet sequence (Envelope.pack (some message) sequence)
  | .transmit sequence raw => c.run piece (ask [.send raw]) fun _ =>
      [.keep { sequence := sequence, raw := raw, packet := some (outlet.send raw), tries := 1 }]
  | .keep envelope => c.run piece (keepEnvelope envelope) fun _ => [.arm envelope]
  | .arm envelope =>
      match envelope.packet with
      | none => { core := c, next := [] }
      | some packet => c.run piece (armEnvelope outlet envelope packet) fun _ =>
          [.refresh envelope]
  | .refresh _ => c.run piece (updatePacketTimeouts outlet) fun _ => []
  | .accept raw => c.run piece (acceptRaw raw) fun contig =>
      match contig with
      | none => []
      | some contiguous => [.callbacks contiguous]
  | .callbacks _ => c.run piece readCallbacks fun _ => []
  | .shutdown => c.run piece Channel.shutdown fun _ => []
  | .delivered packet => c.run piece (packetDelivered outlet packet) fun _ => []
  | .readTries packet => c.run piece readMaxTries fun maxTries => [.timedOut packet maxTries]
  | .timedOut packet maxTries =>
      c.run piece (packetTxOp outlet packet (retry outlet maxTries)) fun _ => []

/-- The calls on a channel and their pieces. -/
def calls (Msg Packet : Type) [MessageBase Msg] :
    Threads.System (Shared Msg Packet) (Piece Msg Packet) (Outlet Packet) (Entry Msg Packet) where
  start := Entry.start
  exec := Piece.exec

/-- A channel with its threads. -/
abbrev Threaded (Msg Packet : Type) := Threads.Pool (Shared Msg Packet) (Piece Msg Packet)

/-- A call is made, or the next piece of a thread runs. -/
abbrev Turn (Msg Packet : Type) := Threads.Event (Entry Msg Packet) (Outlet Packet)

/-- A channel that was just opened on an outlet with this round-trip time. -/
def opened (factories : Factories Msg) (callbacks : List (Msg → Bool)) (rtt : ℚ) :
    Threaded Msg Packet :=
  { core := { inner := Inner.new factories callbacks rtt, stuck := false } }

/-! ## The pieces are the calls -/

variable (outlet : Outlet Packet)

/-- The pieces of `sendPacked`, one after the other. -/
theorem sendPacked_eq (sequence : Nat) (raw : Bytes) :
    sendPacked outlet sequence raw = (do
      ask [.send raw]
      let packet := outlet.send raw
      let envelope : TxEnvelope Packet :=
        { sequence := sequence, raw := raw, packet := some packet, tries := 1 }
      keepEnvelope envelope
      armEnvelope outlet envelope packet
      updatePacketTimeouts outlet
      pure envelope : Call (Inner Msg Packet) (TxEnvelope Packet)) := by
  funext held c
  simp only [sendPacked, keepEnvelope, armEnvelope, bind_apply, Option.bind_assoc]

/-- The pieces of `packet_timeout`. -/
theorem packetTimeout_eq (packet : Packet) :
    packetTimeout outlet packet = (do
      let maxTries ← readMaxTries
      packetTxOp outlet packet (retry outlet maxTries) : Call (Inner Msg Packet) Unit) :=
  rfl

/-- The pieces of `receive`. -/
theorem receiveRaw_eq [MessageBase Msg] (raw : Bytes) :
    receiveRaw raw = (do
      let contig ← acceptRaw raw
      match contig with
      | none => pure []
      | some contiguous => do
          let callbacks ← readCallbacks
          pure ((contiguous.filterMap Envelope.message).map fun message =>
            (message, offer callbacks message)) : Call (Inner Msg Packet) (List (Msg × Nat))) :=
  rfl

/-! ## What a piece leaves alone -/

/-- The window and what it depends on are the same. -/
structure SameWindow (c c' : Inner Msg Packet) : Prop where
  fastRateRounds : c'.fastRateRounds = c.fastRateRounds
  mediumRateRounds : c'.mediumRateRounds = c.mediumRateRounds
  window : c'.window = c.window
  windowMax : c'.windowMax = c.windowMax
  windowMin : c'.windowMin = c.windowMin
  windowFlexibility : c'.windowFlexibility = c.windowFlexibility

namespace SameWindow

theorem refl (c : Inner Msg Packet) : SameWindow c c := ⟨rfl, rfl, rfl, rfl, rfl, rfl⟩

theorem trans {c c' c'' : Inner Msg Packet} (h : SameWindow c c') (h' : SameWindow c' c'') :
    SameWindow c c'' :=
  ⟨h'.fastRateRounds.trans h.fastRateRounds, h'.mediumRateRounds.trans h.mediumRateRounds,
    h'.window.trans h.window, h'.windowMax.trans h.windowMax, h'.windowMin.trans h.windowMin,
    h'.windowFlexibility.trans h.windowFlexibility⟩

end SameWindow

/-- A call that leaves the window alone whenever it returns. -/
def LeavesWindow {A : Type} (call : Call (Inner Msg Packet) A) : Prop :=
  ∀ held c a c', call held c = some (a, c') → SameWindow c c'

section LeavesWindow

variable {A B : Type}

theorem leavesWindow_pure (a : A) : LeavesWindow (pure a : Call (Inner Msg Packet) A) := by
  intro held c b c' h
  cases h
  exact SameWindow.refl c

theorem leavesWindow_read : LeavesWindow (read : Call (Inner Msg Packet) (Inner Msg Packet)) := by
  intro held c b c' h
  cases h
  exact SameWindow.refl c

theorem leavesWindow_update {f : Inner Msg Packet → Inner Msg Packet}
    (h : ∀ c, SameWindow c (f c)) : LeavesWindow (update f : Call (Inner Msg Packet) Unit) := by
  intro held c b c' hcall
  cases hcall
  exact h c

theorem leavesWindow_bind {call : Call (Inner Msg Packet) A} {f : A → Call (Inner Msg Packet) B}
    (h : LeavesWindow call) (hf : ∀ a, LeavesWindow (f a)) : LeavesWindow (call >>= f) := by
  intro held c b c' hcall
  rw [bind_apply, Option.bind_eq_some_iff] at hcall
  obtain ⟨⟨a, m⟩, hfirst, hrest⟩ := hcall
  exact (h held c a m hfirst).trans (hf a held m b c' hrest)

theorem leavesWindow_withLock {call : Call (Inner Msg Packet) A} (h : LeavesWindow call) :
    LeavesWindow (withLock call) := by
  intro held c a c' hcall
  cases held with
  | true => cases hcall
  | false => exact h true c a c' hcall

theorem leavesWindow_forEach {E : Type} {f : E → Call (Inner Msg Packet) PUnit}
    (h : ∀ e, LeavesWindow (f e)) (es : List E) : LeavesWindow (forEach f es) := by
  induction es with
  | nil => exact leavesWindow_pure _
  | cons e es ih => exact leavesWindow_bind (h e) fun _ => ih

theorem leavesWindow_ask (requests : List (Request Packet)) :
    LeavesWindow (ask requests : Call (Inner Msg Packet) Unit) :=
  leavesWindow_update fun _ => ⟨rfl, rfl, rfl, rfl, rfl, rfl⟩

theorem leavesWindow_isReadyToSend :
    LeavesWindow (isReadyToSend outlet : Call (Inner Msg Packet) Bool) := by
  unfold isReadyToSend
  split
  · exact leavesWindow_pure false
  · exact leavesWindow_withLock (leavesWindow_bind leavesWindow_read fun _ => leavesWindow_pure _)

theorem leavesWindow_takeSequence : LeavesWindow (takeSequence : Call (Inner Msg Packet) Nat) := by
  refine leavesWindow_withLock (leavesWindow_bind leavesWindow_read fun inner => ?_)
  exact leavesWindow_bind (leavesWindow_update fun _ => ⟨rfl, rfl, rfl, rfl, rfl, rfl⟩)
    fun _ => leavesWindow_pure _

theorem leavesWindow_keepEnvelope (envelope : TxEnvelope Packet) :
    LeavesWindow (keepEnvelope envelope : Call (Inner Msg Packet) Unit) :=
  leavesWindow_withLock (leavesWindow_update fun _ => ⟨rfl, rfl, rfl, rfl, rfl, rfl⟩)

theorem leavesWindow_getPacketTimeoutTime (tries : Nat) :
    LeavesWindow (getPacketTimeoutTime outlet tries : Call (Inner Msg Packet) ℚ) :=
  leavesWindow_withLock (leavesWindow_bind leavesWindow_read fun _ => leavesWindow_pure _)

theorem leavesWindow_armEnvelope (envelope : TxEnvelope Packet) (packet : Packet) :
    LeavesWindow (armEnvelope outlet envelope packet : Call (Inner Msg Packet) Unit) := by
  refine leavesWindow_bind (leavesWindow_ask _) fun _ => ?_
  exact leavesWindow_bind (leavesWindow_getPacketTimeoutTime outlet _) fun _ => leavesWindow_ask _

theorem leavesWindow_updatePacketTimeouts :
    LeavesWindow (updatePacketTimeouts outlet : Call (Inner Msg Packet) Unit) := by
  refine leavesWindow_withLock (leavesWindow_bind leavesWindow_read fun inner => ?_)
  refine leavesWindow_forEach (fun envelope => ?_) inner.txRing
  exact leavesWindow_bind (leavesWindow_getPacketTimeoutTime outlet _) fun _ => leavesWindow_ask _

theorem leavesWindow_shutdown : LeavesWindow (shutdown : Call (Inner Msg Packet) Unit) :=
  leavesWindow_withLock (leavesWindow_update fun _ => ⟨rfl, rfl, rfl, rfl, rfl, rfl⟩)

theorem leavesWindow_acceptRaw [MessageBase Msg] (raw : Bytes) :
    LeavesWindow (acceptRaw raw : Call (Inner Msg Packet) _) := by
  refine leavesWindow_withLock (leavesWindow_bind leavesWindow_read fun inner => ?_)
  split
  · exact leavesWindow_pure _
  · exact leavesWindow_bind (leavesWindow_update fun _ => ⟨rfl, rfl, rfl, rfl, rfl, rfl⟩)
      fun _ => leavesWindow_pure _

theorem leavesWindow_readCallbacks :
    LeavesWindow (readCallbacks : Call (Inner Msg Packet) (List (Msg → Bool))) :=
  leavesWindow_withLock (leavesWindow_bind leavesWindow_read fun _ => leavesWindow_pure _)

theorem leavesWindow_readMaxTries : LeavesWindow (readMaxTries : Call (Inner Msg Packet) Nat) :=
  leavesWindow_withLock (leavesWindow_bind leavesWindow_read fun _ => leavesWindow_pure _)

/-- The rest of `packet_timeout` returns only for a packet that is not in the ring. -/
theorem timedOut_eq_some {outlet : Outlet Packet} {packet : Packet} {maxTries : Nat} {held : Bool}
    {c c' : Inner Msg Packet} {a : Unit}
    (h : packetTxOp outlet packet (retry outlet maxTries) held c = some (a, c')) : c' = c := by
  cases held with
  | true => cases h
  | false =>
      cases hfind : c.txRing.find? (outlet.matchesPacket packet) with
      | none =>
          simp only [packetTxOp, withLock_free, bind_apply, read_apply, Option.bind_some,
            hfind] at h
          cases h
          rfl
      | some envelope =>
          have hnone : packetTxOp outlet packet (retry outlet maxTries) false c = none := by
            refine (packetTxOp_free outlet c _).mpr ⟨envelope, hfind, ?_⟩
            exact retry_held outlet _ maxTries envelope
          rw [hnone] at h
          cases h

/-- A delivery takes the envelope of its packet, if there is one, out of the ring. -/
theorem packetDelivered_free (c : Inner Msg Packet) (packet : Packet) :
    packetDelivered outlet packet false c = some ((),
      if c.txRing.any (outlet.matchesPacket packet) then
        growWindow outlet.rtt { c with txRing := c.txRing.eraseP (outlet.matchesPacket packet) }
      else c) := by
  simp only [packetDelivered, packetTxOp, withLock_free, bind_apply, read_apply, Option.bind_some]
  cases hfind : c.txRing.find? (outlet.matchesPacket packet) with
  | none =>
      have hany : c.txRing.any (outlet.matchesPacket packet) = false := by
        rw [List.find?_eq_none] at hfind
        simpa using hfind
      simp [hany]
  | some envelope =>
      have hany : c.txRing.any (outlet.matchesPacket packet) = true := by
        rw [List.any_eq_true]
        exact ⟨envelope, List.mem_of_find?_eq_some hfind, List.find?_some hfind⟩
      simp [hany]

end LeavesWindow

end Reticulum.Channel
