import Reticulum.Lib.Bytes
import Reticulum.Lib.Runs

/-!
# The transmit queue of a radio

A radio with flow control takes one packet at a time, and what comes before it is ready
waits in a queue. Both interfaces set the ready flag when the device is configured,
without looking at the queue, and a `READY` sends one packet whether or not it takes the
flag away again. `radio_queue_in_order` says which runs are harmed by that.

## Implementation notes

Writes succeed. A packet carries the number of packets that were accepted before it,
which the code does not look at. Beacons and callsigns are packets as any other. What the
KISS interface does under its lock is one step. `RNodeInterface::process_queue` takes the
lock of `RNodeInner` twice, so what it has popped is part of the state.
-/

namespace Reticulum.Interfaces

/-- A packet, and how many were accepted before it. -/
abbrev Numbered := Bytes × Nat

/-- The fields that sending reads or writes, what was accepted, and what was written. -/
structure Radio where
  online : Bool
  interfaceReady : Bool
  flowControl : Bool
  packetQueue : List Numbered
  accepted : List Bytes
  written : List Numbered

namespace Radio

/-- A radio that was not configured yet. -/
def start (flowControl : Bool) : Radio where
  online := false
  interfaceReady := false
  flowControl := flowControl
  packetQueue := []
  accepted := []
  written := []

/-- A packet is accepted. -/
def accept (s : Radio) (data : Bytes) : Radio := { s with accepted := s.accepted ++ [data] }

/-- `process_outgoing` while online: a packet is written when the device is ready, and waits
otherwise. -/
def transmit (s : Radio) (packet : Numbered) : Radio :=
  if !s.interfaceReady then { s with packetQueue := s.packetQueue ++ [packet] }
  else
    { s with
      interfaceReady := if s.flowControl then false else s.interfaceReady
      written := s.written ++ [packet] }

/-- Packets are written in the order in which they were accepted, each at most once, and none waits
while the device is online and ready. -/
structure InOrder (s : Radio) : Prop where
  written : s.written.Sublist s.accepted.zipIdx
  idle : s.online = true → s.interfaceReady = true → s.packetQueue = []

end Radio

namespace KissRadio

/-- What happens to a KISS interface: a packet, a `READY`, a wait that took longer than
`flow_control_timeout`, an error of the port, the port is opened again, and the device is configured
or cannot be. -/
inductive Event
  | outgoing (data : Bytes)
  | ready
  | timeout
  | portError
  | reopened
  | configure (configured : Bool)

/-- `process_outgoing`. -/
def processOutgoing (s : Radio) (packet : Numbered) : Radio :=
  if !s.online then s else s.transmit packet

/-- `process_queue`. -/
def processQueue (s : Radio) : Radio :=
  match s.packetQueue with
  | packet :: packets =>
      processOutgoing { s with packetQueue := packets, interfaceReady := true } packet
  | [] => { s with interfaceReady := true }

/-- What an event does. -/
def step (s : Radio) : Event → Radio
  | .outgoing data =>
      if s.online then processOutgoing (s.accept data) (data, s.accepted.length)
      else processOutgoing s (data, s.accepted.length)
  | .ready => processQueue s
  | .timeout => if s.flowControl && !s.interfaceReady then processQueue s else s
  | .portError => { s with online := false }
  | .reopened => { s with online := true }
  | .configure configured =>
      { s with online := true, interfaceReady := configured || s.interfaceReady }

/-- The device is configured, or a port that was ready opened again, when nothing waits, and one `READY`
for an online device without flow control finds at most one packet waiting. -/
def Careful (s : Radio) : Event → Prop
  | .ready => s.online = true → s.flowControl = false → s.packetQueue.length ≤ 1
  | .reopened => s.interfaceReady = true → s.packetQueue = []
  | .configure configured => (configured || s.interfaceReady) = true → s.packetQueue = []
  | _ => True

end KissRadio

namespace RNodeRadio

/-- A radio, and the packet that `process_queue` has popped. -/
structure State extends Radio where
  popped : Option Numbered

/-- An RNode that was not configured yet. -/
def State.start (flowControl : Bool) : State :=
  { Radio.start flowControl with popped := none }

/-- What happens to an RNode: a packet, the two sections of `process_queue` for a `READY`, an error, and
the end of `configure_device`. -/
inductive Event
  | outgoing (data : Bytes)
  | pop
  | resubmit
  | error
  | configured

/-- `process_outgoing`. -/
def processOutgoing (s : State) (packet : Numbered) : State :=
  if !s.online then s else { s with toRadio := s.toRadio.transmit packet }

/-- What an event does. One thread reads from the device. -/
def step (s : State) : Event → Option State
  | .outgoing data =>
      if s.online then
        some (processOutgoing { s with toRadio := s.toRadio.accept data }
          (data, s.accepted.length))
      else some (processOutgoing s (data, s.accepted.length))
  | .pop =>
      match s.popped, s.packetQueue with
      | some _, _ => none
      | none, packet :: packets =>
          some { s with packetQueue := packets, interfaceReady := true, popped := some packet }
      | none, [] => some { s with interfaceReady := true }
  | .resubmit =>
      s.popped.map fun packet => processOutgoing { s with popped := none } packet
  | .error => some { s with online := false }
  | .configured => some { s with online := true, interfaceReady := true }

/-- The device is configured when nothing waits, a `READY` for an online device finds at most one packet
waiting, and no packet comes between its being popped and being sent. -/
def Careful (s : State) : Event → Prop
  | .outgoing _ => s.online = true → s.popped = none
  | .pop => s.online = true → s.packetQueue.length ≤ 1
  | .configured => s.packetQueue = []
  | _ => True

end RNodeRadio

/-! ## What a transmission keeps -/

variable {s : Radio}

namespace Radio

/-- What was written and what waits, in the order in which it was accepted. -/
def Ordered (s : Radio) : Prop := (s.written ++ s.packetQueue).Sublist s.accepted.zipIdx

theorem ordered_start (flowControl : Bool) : (start flowControl).Ordered := List.nil_sublist _

theorem Ordered.written (h : s.Ordered) : s.written.Sublist s.accepted.zipIdx :=
  (List.sublist_append_left _ _).trans h

/-- A packet that was just accepted. -/
theorem zipIdx_accept (s : Radio) (data : Bytes) :
    (s.accept data).accepted.zipIdx = s.accepted.zipIdx ++ [(data, s.accepted.length)] := by
  unfold accept
  rw [List.zipIdx_append, Nat.zero_add]
  rfl

/-- A packet goes behind what waits, or nothing waits and it is written. -/
theorem transmit_ordered {packet : Numbered}
    (h : (s.written ++ s.packetQueue ++ [packet]).Sublist s.accepted.zipIdx)
    (hidle : s.interfaceReady = true → s.packetQueue = []) : (s.transmit packet).Ordered := by
  unfold transmit Ordered
  split
  · rw [← List.append_assoc]
    exact h
  · rename_i hready
    have hempty := hidle (by simpa using hready)
    rw [hempty, List.append_nil] at h
    dsimp only
    rw [hempty, List.append_nil]
    exact h

/-- What is accepted goes behind everything. -/
theorem accept_ordered (h : s.Ordered) (hidle : s.interfaceReady = true → s.packetQueue = [])
    (data : Bytes) : ((s.accept data).transmit (data, s.accepted.length)).Ordered := by
  refine transmit_ordered ?_ hidle
  rw [zipIdx_accept]
  exact h.append (List.Sublist.refl _)

theorem transmit_idle (packet : Numbered)
    (h : s.interfaceReady = true → s.flowControl = false → s.packetQueue = [])
    (hready : (s.transmit packet).interfaceReady = true) :
    (s.transmit packet).packetQueue = [] := by
  unfold transmit at hready ⊢
  split
  · rename_i hno
    rw [if_pos hno] at hready
    have hfalse : s.interfaceReady = true := hready
    rw [hfalse] at hno
    cases hno
  · rename_i hyes
    rw [if_neg hyes] at hready
    cases hflow : s.flowControl with
    | true =>
        dsimp only at hready
        rw [hflow] at hready
        cases hready
    | false =>
        refine h ?_ hflow
        simpa using hyes

end Radio

/-! ## The KISS interface -/

namespace KissRadio

open Radio

/-- What careful steps keep. -/
structure Kept (s : Radio) : Prop where
  ordered : s.Ordered
  idle : s.online = true → s.interfaceReady = true → s.packetQueue = []

theorem Kept.inOrder (h : Kept s) : s.InOrder := ⟨h.ordered.written, h.idle⟩

theorem kept_start (flowControl : Bool) : Kept (start flowControl) :=
  ⟨ordered_start flowControl, fun honline => (Bool.false_ne_true honline).elim⟩

/-- What a `READY` does with a packet that waits, on an online device. -/
theorem processQueue_online (hon : s.online = true) {packet : Numbered} {packets : List Numbered}
    (hqueue : s.packetQueue = packet :: packets) :
    processQueue s = { s with
      packetQueue := packets
      interfaceReady := if s.flowControl then false else true
      written := s.written ++ [packet] } := by
  unfold processQueue
  rw [hqueue]
  simp [processOutgoing, transmit, hon]

theorem processQueue_offline (hoff : s.online = false) {packet : Numbered} {packets : List Numbered}
    (hqueue : s.packetQueue = packet :: packets) :
    processQueue s = { s with packetQueue := packets, interfaceReady := true } := by
  unfold processQueue
  rw [hqueue]
  simp [processOutgoing, hoff]

theorem processQueue_nil (hqueue : s.packetQueue = []) :
    processQueue s = { s with interfaceReady := true } := by
  unfold processQueue
  rw [hqueue]

theorem kept_processQueue (h : Kept s)
    (hok : s.online = true → s.flowControl = false → s.packetQueue.length ≤ 1) :
    Kept (processQueue s) := by
  cases hqueue : s.packetQueue with
  | nil =>
      rw [processQueue_nil hqueue]
      exact ⟨h.ordered, fun _ _ => hqueue⟩
  | cons packet packets =>
      have hordered := h.ordered
      unfold Ordered at hordered
      rw [hqueue] at hordered
      cases hon : s.online with
      | false =>
          rw [processQueue_offline hon hqueue]
          refine ⟨?_, fun honline => ?_⟩
          · exact ((List.Sublist.refl _).append (List.sublist_cons_self _ _)).trans hordered
          · exact absurd (hon.symm.trans honline) Bool.false_ne_true
      | true =>
          rw [processQueue_online hon hqueue]
          refine ⟨?_, fun _ hready => ?_⟩
          · unfold Ordered
            dsimp only
            rw [List.append_assoc]
            exact hordered
          · cases hflow : s.flowControl with
            | true =>
                dsimp only at hready
                rw [hflow] at hready
                cases hready
            | false =>
                have hshort := hok hon hflow
                rw [hqueue, List.length_cons] at hshort
                exact List.length_eq_zero_iff.mp (Nat.le_zero.mp (Nat.le_of_succ_le_succ hshort))

theorem kept_step (h : Kept s) {e : Event} (hok : Careful s e) : Kept (step s e) := by
  cases e with
  | outgoing data =>
      rw [step]
      split
      · rename_i hon
        have hidle := h.idle hon
        have hsame : processOutgoing (s.accept data) (data, s.accepted.length) =
            (s.accept data).transmit (data, s.accepted.length) := by
          simp [processOutgoing, accept, hon]
        rw [hsame]
        exact ⟨accept_ordered h.ordered hidle data, fun _ hready =>
          transmit_idle _ (fun hbefore _ => hidle hbefore) hready⟩
      · rename_i hoff
        simpa [processOutgoing, hoff] using h
  | ready => exact kept_processQueue h hok
  | timeout =>
      rw [step]
      split
      · rename_i hlocked
        refine kept_processQueue h fun _ hflow => ?_
        rw [hflow] at hlocked
        cases hlocked
      · exact h
  | portError => exact ⟨h.ordered, fun honline => (Bool.false_ne_true honline).elim⟩
  | reopened => exact ⟨h.ordered, fun _ hready => hok hready⟩
  | configure configured => exact ⟨h.ordered, fun _ hready => hok hready⟩

theorem not_inOrder_step {e : Event} (hok : ¬Careful s e) : ¬(step s e).InOrder := by
  intro hsound
  cases e with
  | ready =>
      simp only [Careful, Classical.not_imp, Nat.not_le] at hok
      obtain ⟨hon, hflow, hlong⟩ := hok
      cases hqueue : s.packetQueue with
      | nil =>
          rw [hqueue] at hlong
          cases hlong
      | cons packet packets =>
          have hidle := hsound.idle
          rw [step, processQueue_online hon hqueue, hflow] at hidle
          have hempty : packets = [] := hidle hon rfl
          rw [hqueue, hempty] at hlong
          exact absurd hlong (Nat.lt_irrefl 1)
  | reopened =>
      simp only [Careful, Classical.not_imp] at hok
      exact hok.2 (hsound.idle rfl hok.1)
  | configure configured =>
      simp only [Careful, Classical.not_imp] at hok
      exact hok.2 (hsound.idle rfl hok.1)
  | outgoing data => exact hok True.intro
  | timeout => exact hok True.intro
  | portError => exact hok True.intro

end KissRadio

/-! ## RNodes -/

namespace RNodeRadio

open Radio

/-- What careful steps keep: what is popped stands between what was written and what waits. -/
structure Kept (s : State) : Prop where
  ordered : (s.written ++ s.popped.toList ++ s.packetQueue).Sublist s.accepted.zipIdx
  idle : s.online = true → s.interfaceReady = true → s.packetQueue = []
  ready : s.popped ≠ none → s.interfaceReady = true

theorem Kept.inOrder {s : State} (h : Kept s) : s.InOrder where
  written := by
    have hordered := h.ordered
    rw [List.append_assoc] at hordered
    exact (List.sublist_append_left _ _).trans hordered
  idle := h.idle

theorem kept_start (flowControl : Bool) : Kept (State.start flowControl) :=
  ⟨List.nil_sublist _, fun honline => (Bool.false_ne_true honline).elim,
    fun hpopped => absurd rfl hpopped⟩

theorem kept_step {s : State} (h : Kept s) {e : Event} (hok : Careful s e) {s' : State}
    (hstep : step s e = some s') : Kept s' := by
  cases e with
  | outgoing data =>
      rw [step] at hstep
      split at hstep
      · rename_i hon
        have hpopped : s.popped = none := hok hon
        have hidle := h.idle hon
        have hordered : s.toRadio.Ordered := by
          have hbefore := h.ordered
          rw [hpopped] at hbefore
          simpa [Ordered] using hbefore
        obtain rfl := Option.some.inj hstep
        have hsame : processOutgoing { s with toRadio := s.toRadio.accept data }
            (data, s.accepted.length) =
            { s with toRadio := (s.toRadio.accept data).transmit (data, s.accepted.length) } := by
          simp [processOutgoing, accept, hon]
        rw [hsame]
        refine ⟨?_, fun _ hready => transmit_idle _ (fun hbefore _ => hidle hbefore) hready,
          fun hsome => absurd hpopped hsome⟩
        have hafter := accept_ordered hordered hidle data
        rw [hpopped]
        simpa [Ordered] using hafter
      · rename_i hoff
        obtain rfl := Option.some.inj hstep
        simpa [processOutgoing, hoff] using h
  | pop =>
      rw [step] at hstep
      split at hstep
      · cases hstep
      · rename_i packet packets hpopped hqueue
        obtain rfl := Option.some.inj hstep
        refine ⟨?_, fun hon _ => ?_, fun _ => rfl⟩
        · have hordered := h.ordered
          rw [hpopped, hqueue] at hordered
          simpa using hordered
        · have hshort : s.packetQueue.length ≤ 1 := hok hon
          rw [hqueue, List.length_cons] at hshort
          exact List.length_eq_zero_iff.mp (Nat.le_zero.mp (Nat.le_of_succ_le_succ hshort))
      · rename_i hpopped hqueue
        obtain rfl := Option.some.inj hstep
        exact ⟨h.ordered, fun _ _ => hqueue, fun _ => rfl⟩
  | resubmit =>
      obtain ⟨packet, hpopped, rfl⟩ := Option.map_eq_some_iff.mp hstep
      have hready := h.ready (by rw [hpopped]; exact Option.some_ne_none packet)
      have hordered := h.ordered
      rw [hpopped, Option.toList_some] at hordered
      cases hon : s.online with
      | false =>
          have hsame : processOutgoing { s with popped := none } packet =
              { s with popped := none } := by
            simp [processOutgoing, hon]
          rw [hsame]
          refine ⟨?_, fun honline => ?_, fun hsome => absurd rfl hsome⟩
          · refine List.Sublist.trans ?_ hordered
            simp
          · exact absurd (hon.symm.trans honline) Bool.false_ne_true
      | true =>
          have hempty := h.idle hon hready
          have hsame : processOutgoing { s with popped := none } packet =
              { s with toRadio := s.toRadio.transmit packet, popped := none } := by
            simp [processOutgoing, hon]
          rw [hsame]
          refine ⟨?_, fun _ hafter => transmit_idle _ (fun _ _ => hempty) hafter,
            fun hsome => absurd rfl hsome⟩
          have hsent := transmit_ordered (s := s.toRadio)
            (by rw [hempty, List.append_nil] at hordered ⊢; exact hordered) fun _ => hempty
          simpa [Ordered] using hsent
  | error =>
      obtain rfl := Option.some.inj hstep
      exact ⟨h.ordered, fun honline => (Bool.false_ne_true honline).elim, h.ready⟩
  | configured =>
      obtain rfl := Option.some.inj hstep
      exact ⟨h.ordered, fun _ _ => hok, fun _ => rfl⟩

end RNodeRadio

/-! ## Runs -/

/-- The KISS interface sends in order, and lets no packet wait while the device is ready, in exactly the
runs whose steps are careful; an RNode does in every such run. -/
theorem radio_queue_in_order (flowControl : Bool) :
    (∀ events,
      (Runs.Always (fun s e => some (KissRadio.step s e)) Radio.InOrder (Radio.start flowControl)
          events ↔
        Runs.Meets (fun s e => some (KissRadio.step s e)) KissRadio.Careful
          (Radio.start flowControl) events)) ∧
    ∀ events,
      Runs.Meets RNodeRadio.step RNodeRadio.Careful (RNodeRadio.State.start flowControl) events →
        Runs.Always RNodeRadio.step (fun s => s.toRadio.InOrder)
          (RNodeRadio.State.start flowControl) events := by
  refine ⟨fun events => ?_, fun events hmeets => ?_⟩
  · exact Runs.always_iff_meets (I := KissRadio.Kept) (fun s hs => hs.inOrder)
      (fun s e s' hs hok hstep => Option.some.inj hstep ▸ KissRadio.kept_step hs hok)
      (fun s e s' hs hok hstep => Option.some.inj hstep ▸ KissRadio.not_inOrder_step hok)
      (KissRadio.kept_start flowControl) events
  · intro done s hdone hrun
    have hkept := Runs.always_of_meets (P := RNodeRadio.Kept)
      (fun s e s' hs hok hstep => RNodeRadio.kept_step hs hok hstep)
      (RNodeRadio.kept_start flowControl) hmeets
    exact (hkept done s hdone hrun).inOrder

/-- An RNode with flow control, with one packet sent and one that waited. -/
theorem radio_queue_in_order_two :
    Runs.Always RNodeRadio.step (fun s => s.toRadio.InOrder) (RNodeRadio.State.start true)
      [.configured, .outgoing [1], .outgoing [2], .pop, .resubmit] := by
  refine (radio_queue_in_order true).2 _ fun online honline => ⟨rfl, ?_⟩
  obtain rfl := Option.some.inj honline
  refine fun sent hsent => ⟨fun _ => rfl, ?_⟩
  obtain rfl := Option.some.inj hsent
  refine fun waits hwaits => ⟨fun _ => rfl, ?_⟩
  obtain rfl := Option.some.inj hwaits
  refine fun popped hpopped => ⟨fun _ => by decide, ?_⟩
  obtain rfl := Option.some.inj hpopped
  exact fun _ _ => ⟨True.intro, True.intro⟩

/-- A packet waits for the `READY`, the device is configured again, and the next packet overtakes it. -/
theorem radio_queue_in_order_false :
    ¬Runs.Always (fun s e => some (KissRadio.step s e)) Radio.InOrder (Radio.start true)
        [.configure true, .outgoing [1], .outgoing [2], .portError, .reopened, .configure true,
          .outgoing [3], .ready] ∧
      ¬Runs.Always RNodeRadio.step (fun s => s.toRadio.InOrder) (RNodeRadio.State.start true)
        [.configured, .outgoing [1], .outgoing [2], .error, .configured, .outgoing [3], .pop,
          .resubmit] := by
  refine ⟨fun h => ?_, fun h => ?_⟩
  · have hwritten := (h _ _ List.prefix_rfl rfl).written
    exact absurd hwritten (by decide)
  · have hwritten := (h _ _ List.prefix_rfl rfl).written
    exact absurd hwritten (by decide)

end Reticulum.Interfaces
