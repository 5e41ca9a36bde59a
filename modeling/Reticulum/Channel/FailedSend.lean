import Reticulum.Channel.SelfBlock
import Reticulum.Channel.Delivery

/-!
# Failed sends and the sequence numbers

`Channel::send` takes a sequence number before it packs the message and looks at
its size. A message that fails there has used its number up, and the receiver
waits for it. `failsAtomically_iff` says when a failed call leaves no such gap.

## Implementation notes

A call that waits for itself returns nothing, so it is no failed call.
-/

namespace Reticulum.Channel

open Lock Lock.Call

variable {Msg Packet : Type} [MessageBase Msg]

/-- A receiver that has everything that was sent before `c` takes a message numbered as `c'` numbers
the next one at once. -/
def NextIsAwaited (c c' : Inner Msg Packet) : Prop :=
  ∀ (rx : ChannelState Msg) (next object : Msg) (raw : Bytes),
    rx.nextRxSequence = c.nextSequence → rx.rxRing = [] →
    Envelope.pack (some next) c'.nextSequence = .ok raw →
    received rx.messageFactories next = some object →
    (receive rx raw).2.map Prod.fst = [object]

/-- A failed call leaves the next sequence number and the ring as they were, and no receiver waiting. -/
def FailsAtomically (outlet : Outlet Packet) (c : Inner Msg Packet) (message : Msg) : Prop :=
  ∀ err c', sendMessage outlet message false c = some (.error err, c') →
    c'.nextSequence = c.nextSequence ∧ c'.txRing = c.txRing ∧ NextIsAwaited c c'

/-- The message has a type and there is room for it. -/
def Sendable (outlet : Outlet Packet) (message : Msg) : Prop :=
  MessageBase.msgtype message ≠ 0 ∧ 6 + (MessageBase.pack message).length ≤ outlet.mdu

/-! ## The sender -/

section Sender

variable (outlet : Outlet Packet) (c : Inner Msg Packet) (message : Msg)

theorem sendMessage_not_ready (h : c.ready outlet = false) :
    sendMessage outlet message false c =
      some (.error ⟨.linkNotReady, "Link is not ready"⟩, c) := by
  simp [sendMessage, isReadyToSend_free, h]

/-- A message that cannot be sent fails after its number is taken. -/
theorem sendMessage_unsendable (hready : c.ready outlet = true) (h : ¬Sendable outlet message) :
    ∃ err, sendMessage outlet message false c =
      some (.error err, { c with nextSequence := (c.nextSequence + 1) % seqModulus }) := by
  simp only [sendMessage, bind_apply, isReadyToSend_free, Option.bind_some, hready,
    Bool.true_eq_false, if_false, takeSequence, withLock_free, read_apply, update_apply,
    pure_apply, Envelope.pack]
  by_cases htype : MessageBase.msgtype message = 0
  · exact ⟨_, by simp [htype]; rfl⟩
  · have hbig : outlet.mdu < 6 + (MessageBase.pack message).length := by
      rw [← not_le]
      exact fun hfits => h ⟨htype, hfits⟩
    simp only [htype, if_false, List.length_append, Bytes.length_ofU16]
    rw [if_pos (by omega)]
    exact ⟨_, rfl⟩

theorem succ_sequence_ne (sequence : Nat) : (sequence + 1) % seqModulus ≠ sequence := by
  rw [seqModulus_eq]
  omega

end Sender

/-! ## The receiver -/

/-- The message that the receiver waits for is handed over when it arrives. -/
theorem receive_awaited {rx : ChannelState Msg} {next object : Msg} {raw : Bytes}
    (hseq : rx.nextRxSequence < seqModulus) (hring : rx.rxRing = [])
    (hpack : Envelope.pack (some next) rx.nextRxSequence = .ok raw)
    (hobject : received rx.messageFactories next = some object) :
    (receive rx raw).2.map Prod.fst = [object] := by
  have htype : MessageBase.msgtype next ≠ 0 := by
    intro hzero
    simp [Envelope.pack, hzero] at hpack
  have hmod : rx.nextRxSequence % seqModulus = rx.nextRxSequence := Nat.mod_eq_of_lt hseq
  have hframe : frame next rx.nextRxSequence = raw := by
    simp [frame, hmod, hpack, Except.toOption]
  let e : Envelope Msg :=
    { sequence := rx.nextRxSequence, raw := raw, message := some object, unpacked := true }
  have henvelope : envelopeOf rx.messageFactories next rx.nextRxSequence = some e := by
    simp [envelopeOf, hobject, hframe, hmod, e]
  have hvalid : invalidSequence rx.nextRxSequence rx.nextRxSequence = false := by
    simp [invalidSequence]
  have htake : takeContiguous rx.messageFactories [e] rx.nextRxSequence =
      ([e], [], (rx.nextRxSequence + 1) % seqModulus) :=
    takeContiguous_next (e := e) rfl
  rw [← hframe, receive_known htype henvelope, hmod, hvalid, hring]
  simp only [Bool.false_eq_true, if_false, emplaceEnvelope, htake]
  simp [e]

theorem nextIsAwaited_of_eq {c c' : Inner Msg Packet} (hseq : c.nextSequence < seqModulus)
    (h : c'.nextSequence = c.nextSequence) : NextIsAwaited c c' := by
  intro rx next object raw hnext hring hpack hobject
  rw [h, ← hnext] at hpack
  exact receive_awaited (hnext ▸ hseq) hring hpack hobject

/-! ## The law -/

/-- A failed call is atomic if and only if the channel is not ready or the message can be sent. -/
theorem failsAtomically_iff (outlet : Outlet Packet) (c : Inner Msg Packet) (message : Msg)
    (hseq : c.nextSequence < seqModulus) :
    FailsAtomically outlet c message ↔ (c.ready outlet = true → Sendable outlet message) := by
  constructor
  · intro hatomic hready
    by_contra h
    obtain ⟨err, hsend⟩ := sendMessage_unsendable outlet c message hready h
    exact succ_sequence_ne _ (hatomic _ _ hsend).1
  · intro hcond err c' hsend
    cases hready : c.ready outlet with
    | false =>
        rw [sendMessage_not_ready outlet c message hready] at hsend
        cases hsend
        exact ⟨rfl, rfl, nextIsAwaited_of_eq hseq rfl⟩
    | true =>
        have hwaits : WaitsForItself c (.send outlet message) := ⟨hready, hcond hready⟩
        rw [(sendMessage_eq_none_iff outlet c message).mpr hwaits] at hsend
        cases hsend

/-- An outlet that is usable and has room for the headers only. -/
def narrowOutlet : Outlet Unit :=
  { isUsable := true, mdu := 5, rtt := 0, getPacketState := fun _ => .new
    getPacketId := fun _ => none, send := fun _ => () }

theorem failsAtomically_iff_new :
    FailsAtomically narrowOutlet (Inner.new (fun _ => none) [] 0) Ping.ping ↔
      ((Inner.new (fun _ => none) [] 0 : Inner Ping Unit).ready narrowOutlet = true →
        Sendable narrowOutlet Ping.ping) :=
  failsAtomically_iff narrowOutlet _ Ping.ping (by decide)

/-- A message that is too big takes the number of the next one. -/
theorem failsAtomically_false :
    ¬ ∀ (Msg Packet : Type) (_ : MessageBase Msg) (outlet : Outlet Packet)
        (c : Inner Msg Packet) (message : Msg), c.nextSequence < seqModulus →
      FailsAtomically outlet c message := by
  intro hall
  have hatomic := hall Ping Unit inferInstance narrowOutlet (Inner.new (fun _ => none) [] 0) .ping
    (by decide)
  obtain ⟨err, hsend⟩ := sendMessage_unsendable narrowOutlet
    (Inner.new (fun _ => none) [] 0) Ping.ping (by decide +kernel)
    (fun hfits => absurd hfits.2 (by decide))
  exact succ_sequence_ne _ (hatomic _ _ hsend).1

end Reticulum.Channel
