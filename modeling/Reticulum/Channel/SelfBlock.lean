import Reticulum.Lib.Runs
import Reticulum.Channel.Send

/-!
# Which channel operations wait for themselves

`update_packet_timeouts` computes each timeout under its own guard, and
`packet_timeout` runs its work inside the guard of `packet_tx_op`. Both then ask
for a lock that the call already holds.

## Implementation notes

The operations of a run are calls on one channel, one after the other. A call
that waits for itself never gives the lock back, so the run has no channel
after it.
-/

namespace Reticulum.Channel

open Lock Lock.Call Runs

variable {Msg Packet : Type}

/-- One call on a channel, with the answers of the outlet while it lasts. -/
inductive Operation (Msg Packet : Type)
  | send (outlet : Outlet Packet) (message : Msg)
  | receive (raw : Bytes)
  | shutdown
  | packetDelivered (outlet : Outlet Packet) (packet : Packet)
  | packetTimeout (outlet : Outlet Packet) (packet : Packet)

/-- The answers of the outlet and the ring under which an operation takes the
lock a second time: a message that is sent, and the timeout of a packet that is
still in the ring. -/
def WaitsForItself [MessageBase Msg] (c : Inner Msg Packet) : Operation Msg Packet → Prop
  | .send outlet message =>
      c.ready outlet = true ∧ MessageBase.msgtype message ≠ 0 ∧
        6 + (MessageBase.pack message).length ≤ outlet.mdu
  | .packetTimeout outlet packet =>
      ∃ envelope ∈ c.txRing, outlet.matchesPacket packet envelope = true
  | _ => False

theorem receive_eq_accept [MessageBase Msg] (rx : ChannelState Msg) (raw : Bytes) :
    receive rx raw = match acceptEnvelope rx raw with
      | none => (rx, [])
      | some (rx', contiguous) => (rx', (contiguous.filterMap Envelope.message).map
          fun message => (message, offer rx'.messageCallbacks message)) := by
  rw [receive, acceptEnvelope]
  cases (Envelope.ofRaw raw : Envelope Msg).unpack rx.messageFactories with
  | error err => rfl
  | ok envelope =>
      dsimp only
      split
      · rfl
      · cases hemplace : emplaceEnvelope envelope rx.nextRxSequence rx.rxRing with
        | mk isNew ring => cases isNew <;> rfl

section Parts

variable (outlet : Outlet Packet) (c : Inner Msg Packet)

/-- The loop over a ring with an envelope in it asks for the lock it is under. -/
theorem updatePacketTimeouts_eq_none (h : c.txRing ≠ []) :
    updatePacketTimeouts outlet false c = none := by
  simp only [updatePacketTimeouts, withLock_free, bind_apply, read_apply, Option.bind_some]
  apply forEach_eq_none _ h
  intro envelope
  simp [getPacketTimeoutTime]

theorem isReadyToSend_free :
    isReadyToSend outlet false c = some (c.ready outlet, c) := by
  cases husable : outlet.isUsable <;> simp [isReadyToSend, Inner.ready, husable]

theorem emplaceTxEnvelope_ne_nil (envelope : TxEnvelope Packet) (nextRxSequence : Nat)
    (ring : List (TxEnvelope Packet)) :
    emplaceTxEnvelope envelope nextRxSequence ring ≠ [] := by
  cases ring with
  | nil => simp [emplaceTxEnvelope]
  | cons existing ring =>
      simp only [emplaceTxEnvelope]
      split
      · simp
      · split <;> simp

/-- A packed envelope is in the ring when the timeouts are updated. -/
theorem sendPacked_eq_none (sequence : Nat) (raw : Bytes) :
    sendPacked outlet sequence raw false c = none := by
  simp only [sendPacked, bind_apply, ask, update_apply, Option.bind_some, withLock_free,
    getPacketTimeoutTime, read_apply, pure_apply, Option.bind_eq_none_iff]
  intro r hr
  rw [updatePacketTimeouts_eq_none] at hr
  · cases hr
  · exact emplaceTxEnvelope_ne_nil _ _ _

/-- The envelope of the packet is taken out of the ring, and its work is done
under the guard. -/
theorem packetTxOp_free {packet : Packet}
    (op : TxEnvelope Packet → Call (Inner Msg Packet) (Bool × TxEnvelope Packet)) :
    packetTxOp outlet packet op false c = none ↔
      ∃ envelope, c.txRing.find? (outlet.matchesPacket packet) = some envelope ∧
        op envelope true { c with
          txRing := c.txRing.eraseP (outlet.matchesPacket packet) } = none := by
  simp only [packetTxOp, withLock_free, bind_apply, read_apply, Option.bind_some]
  cases hfind : c.txRing.find? (outlet.matchesPacket packet) with
  | none => simp
  | some envelope =>
      simp only [bind_apply, update_apply, Option.bind_some, Option.some.injEq]
      constructor
      · intro hnone
        refine ⟨envelope, rfl, ?_⟩
        rw [Option.bind_eq_none_iff] at hnone
        refine Option.eq_none_iff_forall_ne_some.mpr fun r hr => ?_
        have hrest := hnone r hr
        split at hrest <;> cases hrest
      · rintro ⟨_, rfl, hop⟩
        rw [hop]
        rfl

/-- Both branches of a retry take the lock. -/
theorem retry_held (maxTries : Nat) (envelope : TxEnvelope Packet) :
    retry outlet maxTries envelope true c = none := by
  simp only [retry]
  split
  · simp [shutdown]
  · simp [ask, getPacketTimeoutTime]

theorem packetTimeout_eq_none_iff (packet : Packet) :
    packetTimeout outlet packet false c = none ↔
      ∃ envelope ∈ c.txRing, outlet.matchesPacket packet envelope = true := by
  simp only [packetTimeout, bind_apply, withLock_free, read_apply, pure_apply,
    Option.bind_some, packetTxOp_free, retry_held, and_true]
  rw [← Option.isSome_iff_exists, List.find?_isSome]

theorem packetDelivered_ne_none (packet : Packet) :
    packetDelivered outlet packet false c ≠ none := by
  simp [packetDelivered, packetTxOp_free]

variable [MessageBase Msg]

theorem sendMessage_eq_none_iff (message : Msg) :
    sendMessage outlet message false c = none ↔ WaitsForItself c (.send outlet message) := by
  simp only [sendMessage, bind_apply, isReadyToSend_free, Option.bind_some, WaitsForItself]
  cases hready : c.ready outlet with
  | false => simp
  | true =>
      simp only [Bool.true_eq_false, if_false, bind_apply, takeSequence, withLock_free,
        read_apply, update_apply, Option.bind_some, pure_apply, Envelope.pack]
      by_cases htype : MessageBase.msgtype message = 0
      · simp [htype]
      · simp only [htype, if_false, ne_eq, not_false_eq_true, true_and, List.length_append,
          Bytes.length_ofU16]
        split
        · rename_i hbig
          simp only [pure_apply, reduceCtorEq, false_iff]
          omega
        · rename_i hfits
          simp only [bind_apply, sendPacked_eq_none, Option.bind_none, true_iff]
          omega

/-- The guarded call does what `receive` does with the receiving part. -/
theorem receiveRaw_free (raw : Bytes) :
    receiveRaw raw false c =
      some ((receive c.rx raw).2, { c with rx := (receive c.rx raw).1 }) := by
  rw [receive_eq_accept]
  simp only [receiveRaw, bind_apply, withLock_free, read_apply, Option.bind_some]
  cases acceptEnvelope c.rx raw with
  | none => simp
  | some accepted => simp

end Parts

/-- The operation as a call. -/
def Operation.call [MessageBase Msg] : Operation Msg Packet → Call (Inner Msg Packet) Unit
  | .send outlet message => do
      let _ ← sendMessage outlet message
      pure ()
  | .receive raw => do
      let _ ← receiveRaw raw
      pure ()
  | .shutdown => Channel.shutdown
  | .packetDelivered outlet packet => Channel.packetDelivered outlet packet
  | .packetTimeout outlet packet => Channel.packetTimeout outlet packet

variable [MessageBase Msg]

/-- An operation waits for itself exactly under `WaitsForItself`. -/
theorem call_eq_none_iff (c : Inner Msg Packet) (operation : Operation Msg Packet) :
    operation.call false c = none ↔ WaitsForItself c operation := by
  cases operation with
  | send outlet message =>
      rw [← sendMessage_eq_none_iff]
      cases hsend : sendMessage outlet message false c <;> simp [Operation.call, hsend]
  | receive raw => simp [Operation.call, receiveRaw_free, WaitsForItself]
  | shutdown => simp [Operation.call, Channel.shutdown, WaitsForItself]
  | packetDelivered outlet packet =>
      simp [Operation.call, packetDelivered_ne_none, WaitsForItself]
  | packetTimeout outlet packet => exact packetTimeout_eq_none_iff outlet c packet

/-- One operation after another; `none` is a channel whose lock is never given
back. -/
def operate : Option (Inner Msg Packet) → Operation Msg Packet →
    Option (Option (Inner Msg Packet))
  | none, _ => none
  | some c, operation => some ((operation.call false c).map Prod.snd)

/-- A run of operations on a channel, whatever is in its ring, never waits for
itself if and only if it sends no message and times out no packet of the ring. -/
theorem never_waits_iff (c : Inner Msg Packet) (operations : List (Operation Msg Packet)) :
    Always operate (fun s => Option.isSome s = true) (some c) operations ↔
      Meets operate (fun s operation => ∀ c ∈ s, ¬ WaitsForItself c operation) (some c)
        operations := by
  refine always_iff_meets (I := fun s => Option.isSome s = true) (fun _ h => h) ?_ ?_ rfl operations
  · intro s operation s' hs hok hstep
    obtain ⟨c, rfl⟩ := Option.isSome_iff_exists.mp hs
    obtain rfl := Option.some.inj hstep
    have hcall := (call_eq_none_iff c operation).not.mpr (hok c rfl)
    rw [Option.isSome_map]
    exact Option.isSome_iff_ne_none.mpr hcall
  · intro s operation s' hs hbad hstep
    obtain ⟨c, rfl⟩ := Option.isSome_iff_exists.mp hs
    obtain rfl := Option.some.inj hstep
    have hwaits : WaitsForItself c operation := by simpa using hbad
    rw [(call_eq_none_iff c operation).mpr hwaits]
    simp

/-- A message type of one message. -/
inductive Ping
  | ping
  deriving DecidableEq, Repr

instance : MessageBase Ping where
  msgtype _ := 1
  msgtype_lt _ := by decide
  pack _ := []
  unpack m _ := m

/-- The first message sent on a new channel waits for itself. -/
theorem never_waits_false :
    ¬ ∀ (Msg Packet : Type) (_ : MessageBase Msg) (c : Inner Msg Packet)
        (operations : List (Operation Msg Packet)),
      Always operate (fun s => Option.isSome s = true) (some c) operations := by
  intro hall
  let outlet : Outlet Unit :=
    { isUsable := true, mdu := 6, rtt := 0, getPacketState := fun _ => .new
      getPacketId := fun _ => none, send := fun _ => () }
  let c : Inner Ping Unit := Inner.new (fun _ => none) [] 0
  have hwaits : WaitsForItself c (.send outlet .ping) :=
    ⟨by decide +kernel, by decide, by decide⟩
  have hrun := hall Ping Unit inferInstance c [.send outlet .ping] _ _ List.prefix_rfl rfl
  rw [(call_eq_none_iff c _).mpr hwaits] at hrun
  cases hrun

end Reticulum.Channel
