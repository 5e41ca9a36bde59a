import Mathlib.Data.List.Nodup
import Reticulum.Interfaces.Post
import Reticulum.Lib.Runs

/-!
# Runs of an interface and its node

A `PostInterface` exchanges with a node that processes a batch once for each session and batch
name and offers its pending delivery batch until it is acknowledged. Requests and responses
are lost, or answered with an error. `exactly_once_iff` says in which runs every packet and
every delivery batch goes through once.

## Implementation notes

The record of a run is in its state: the packets accepted and dropped, those that reached the
node in an exchange without an answer, the delivery batches passed to Transport, and the
interface before and after each exchange that failed. A failed exchange may have reached the
node, whatever came back. The node may have handled it and the answer is lost on the way, or it
has not seen it.
-/

namespace Reticulum.Interfaces.Post

/-! ## The node -/

/-- A delivery batch of the node. -/
structure Batch where
  id : String
  packets : List (List UInt8)

/-- The batches seen, the packets processed in their order, the delivery batches not yet
acknowledged and the names given to batches so far. -/
structure Node where
  seen : List (String × String)
  processed : List Packet
  pending : List Batch
  issued : List String

namespace Node

def acknowledged (node : Node) (ids : List String) : Node :=
  { node with pending := node.pending.filter fun batch => !ids.contains batch.id }

/-- A batch is processed once for each session and batch name. -/
def process (node : Node) (request : ExchangeRequest) : Node :=
  match request.batchId with
  | none => node
  | some batchId =>
      if node.seen.contains (request.sessionToken, batchId) then node
      else
        { node with
          seen := node.seen ++ [(request.sessionToken, batchId)]
          processed := node.processed ++ request.packets }

def handle (node : Node) (request : ExchangeRequest) : Node :=
  (node.acknowledged request.ackBatchIds).process request

/-- The pending batch is offered. -/
def answer (node : Node) : ExchangeResponse :=
  match node.pending with
  | [] =>
      { deliveryBatchId := none, deliveryPackets := some [], deliveryMore := some false
        error := none }
  | batch :: more =>
      { deliveryBatchId := some batch.id, deliveryPackets := some (batch.packets.map some)
        deliveryMore := some !more.isEmpty, error := none }

end Node

/-! ## Runs -/

/-- What becomes of an exchange: the node answers, or it fails, handled by the node or not. -/
inductive Fate
  | answered
  | failed (handled : Bool) (reply : Reply)

namespace Fate

/-- The reply that the interface gets to its request. -/
def reply (node : Node) : Fate → ExchangeRequest → Reply
  | answered, request => .text 200 "" (.ok (node.handle request).answer)
  | failed _ reply, _ => reply

/-- The request reaches the node. -/
def handled : Fate → Bool
  | answered => true
  | failed handled _ => handled

def isAnswered : Fate → Bool
  | answered => true
  | failed _ _ => false

/-- A reply to a failed exchange is not an answer. -/
def possible : Fate → Bool
  | answered => true
  | failed _ reply => reply.answer.toOption.isNone

end Fate

/-- The interface, the node, and the record of the run. -/
structure System where
  iface : PostInterface
  node : Node
  accepted : List Packet
  dropped : List Packet
  unanswered : List Packet
  passed : List String
  failures : List (PostInterface × PostInterface)

inductive Event
  | register (call : Registration)
  | outgoing (raw : List UInt8)
  | batch (batch : Batch)
  | exchange (ms : Nat) (fate : Fate)

namespace PostInterface

/-- The packet that a full queue loses. -/
def overflow (iface : PostInterface) : List Packet :=
  if maxQueueLen ≤ iface.outboundQueue.length then iface.outboundQueue.take 1 else []

end PostInterface

namespace System

/-- A new interface, and a node that has seen and queued nothing. -/
def start (isWakeMode : Bool) (configuredPollInterval : Option Nat) : System where
  iface := PostInterface.new isWakeMode configuredPollInterval
  node := { seen := [], processed := [], pending := [], issued := [] }
  accepted := []
  dropped := []
  unanswered := []
  passed := []
  failures := []

/-- A packet is given to `process_outgoing`. -/
def outgoing (s : System) (raw : List UInt8) : System :=
  let packet : Packet := { raw := raw, number := s.accepted.length }
  match s.iface.processOutgoing packet with
  | (iface, .ok _) =>
      { s with
        iface := iface
        accepted := s.accepted ++ [packet]
        dropped := s.dropped ++ s.iface.overflow }
  | (iface, .error _) => { s with iface := iface }

/-- Names of delivery batches that an answered exchange passes to Transport. -/
def passes (s : System) (request : ExchangeRequest) : List String :=
  if s.iface.online && !s.iface.detached then
    (s.node.handle request).answer.deliveryBatchId.toList
  else []

/-- An exchange, and what becomes of it. -/
def exchange (s : System) (ms : Nat) (fate : Fate) : System :=
  let done := s.iface.exchange ms (fate.reply s.node)
  match s.iface.request ms with
  | .error _ => { s with iface := done.iface, failures := s.failures ++ [(s.iface, done.iface)] }
  | .ok sent =>
      { iface := done.iface
        node := if fate.handled then s.node.handle sent.request else s.node
        accepted := s.accepted
        dropped := s.dropped ++ s.iface.oversized
        unanswered :=
          if fate.handled && !fate.isAnswered then s.unanswered ++ sent.taken else s.unanswered
        passed := if fate.isAnswered then s.passed ++ s.passes sent.request else s.passed
        failures :=
          if fate.isAnswered then s.failures else s.failures ++ [(s.iface, done.iface)] }

/-- What an event does. The node names every delivery batch anew. -/
def step (s : System) : Event → Option System
  | .register call => some { s with iface := (s.iface.registerWithRemote call).1 }
  | .outgoing raw => some (s.outgoing raw)
  | .batch batch =>
      if batch.id.isEmpty || s.node.issued.contains batch.id then none
      else
        some { s with
          node := { s.node with
            pending := s.node.pending ++ [batch], issued := s.node.issued ++ [batch.id] } }
  | .exchange ms fate => if fate.possible then some (s.exchange ms fate) else none

end System

/-- An exchange that failed has left the queue, oversized packets excepted, and the
acknowledgements as they were. -/
structure Restored (before after : PostInterface) : Prop where
  acks : after.ackBatchIds = before.ackBatchIds
  queue : after.outboundQueue.Sublist before.outboundQueue
  fitting : after.outboundQueue.filter (Packet.fits before.maxPacketBytes) =
    before.outboundQueue.filter (Packet.fits before.maxPacketBytes)

/-- Exactly once: packets are processed once and in order, none is lost, no delivery batch is
passed on twice, and exchanges that fail leave things as they were. -/
structure ExactlyOnce (s : System) : Prop where
  inOrder : s.node.processed.Pairwise fun p q => p.number < q.number
  conserved : ∀ p ∈ s.accepted,
    p ∈ s.node.processed ∨ p ∈ s.iface.outboundQueue ∨ p ∈ s.dropped
  passedOnce : s.passed.Nodup
  restored : ∀ f ∈ s.failures, Restored f.1 f.2

/-- An exchange under a session fails only while there is nothing to acknowledge, and brings no
packet to the node that an earlier exchange without an answer had brought there. -/
def Careful (s : System) : Event → Prop
  | .exchange _ fate =>
      s.iface.holdsSession = true →
        (fate.isAnswered = false → s.iface.ackBatchIds = []) ∧
        (fate.handled = true → ∀ p ∈ s.iface.takes, p ∉ s.unanswered)
  | _ => True

/-! ## What a request takes along -/

variable (node : Node) (iface : PostInterface) (request : ExchangeRequest) {ms : Nat} {p : Packet}
  {reply : Reply} {s : System}

namespace PostInterface

theorem makeRoom_sublist : iface.makeRoom.outboundQueue.Sublist iface.outboundQueue := by
  unfold makeRoom
  split
  · exact List.tail_sublist _
  · exact List.Sublist.refl _

theorem makeRoom_batchSeq : iface.makeRoom.batchSeq = iface.batchSeq := by
  unfold makeRoom
  split
  · rfl
  · rfl

theorem makeRoom_ackBatchIds : iface.makeRoom.ackBatchIds = iface.ackBatchIds := by
  unfold makeRoom
  split
  · rfl
  · rfl

theorem mem_makeRoom_or_overflow {iface : PostInterface} (h : p ∈ iface.outboundQueue) :
    p ∈ iface.makeRoom.outboundQueue ∨ p ∈ iface.overflow := by
  unfold makeRoom overflow
  split
  · rw [← List.take_append_drop 1 iface.outboundQueue] at h
    rcases List.mem_append.mp h with hfront | htail
    · exact Or.inr hfront
    · exact Or.inl (by simpa [List.drop_one] using htail)
  · exact Or.inl h

theorem takes_append_rest_sublist : (iface.takes ++ iface.rest).Sublist iface.outboundQueue := by
  have h : (iface.takes ++ iface.rest).Sublist
      (iface.outboundQueue.take iface.maxBatchPackets ++
        iface.outboundQueue.drop iface.maxBatchPackets) :=
    List.filter_sublist.append (List.Sublist.refl _)
  rwa [List.take_append_drop] at h

theorem mem_takes_or_oversized_or_rest {iface : PostInterface} (h : p ∈ iface.outboundQueue) :
    p ∈ iface.takes ∨ p ∈ iface.oversized ∨ p ∈ iface.rest := by
  rw [← List.take_append_drop iface.maxBatchPackets iface.outboundQueue] at h
  rcases List.mem_append.mp h with hpopped | hrest
  · by_cases hfits : p.fits iface.maxPacketBytes = true
    · exact Or.inl (List.mem_filter.mpr ⟨hpopped, hfits⟩)
    · exact Or.inr (Or.inl (List.mem_filter.mpr ⟨hpopped, by simpa using hfits⟩))
  · exact Or.inr (Or.inr hrest)

/-- Packets that fit are taken along or not reached. -/
theorem filter_takes_append_rest :
    (iface.takes ++ iface.rest).filter (Packet.fits iface.maxPacketBytes) =
      iface.outboundQueue.filter (Packet.fits iface.maxPacketBytes) := by
  have hsplit : iface.outboundQueue =
      iface.outboundQueue.take iface.maxBatchPackets ++ iface.rest :=
    (List.take_append_drop _ _).symm
  conv_rhs => rw [hsplit]
  rw [List.filter_append, List.filter_append, takes, List.filter_filter]
  simp only [Bool.and_self]

/-- The interface between the two halves of an exchange. -/
def afterRequest (iface : PostInterface) : PostInterface :=
  { iface with
    outboundQueue := iface.rest
    batchSeq := if iface.takes.isEmpty then iface.batchSeq else iface.batchSeq + 1
    ackBatchIds := [] }

theorem le_afterRequest_batchSeq : iface.batchSeq ≤ iface.afterRequest.batchSeq := by
  unfold afterRequest
  dsimp only
  split
  · exact Nat.le_refl _
  · exact Nat.le_succ _

/-- The interface after an exchange that failed. -/
def afterFailure (iface : PostInterface) (reply : Reply) : PostInterface :=
  if reply.refuses then (iface.afterRequest.requeuePackets iface.takes).expired
  else iface.afterRequest.requeuePackets iface.takes

@[simp] theorem afterFailure_outboundQueue (iface : PostInterface) (reply : Reply) :
    (iface.afterFailure reply).outboundQueue = iface.takes ++ iface.rest := by
  unfold afterFailure
  split
  · rfl
  · rfl

@[simp] theorem afterFailure_ackBatchIds (iface : PostInterface) (reply : Reply) :
    (iface.afterFailure reply).ackBatchIds = [] := by
  unfold afterFailure
  split
  · rfl
  · rfl

@[simp] theorem afterFailure_batchSeq (iface : PostInterface) (reply : Reply) :
    (iface.afterFailure reply).batchSeq = iface.afterRequest.batchSeq := by
  unfold afterFailure
  split
  · rfl
  · rfl

@[simp] theorem acknowledge_outboundQueue (iface : PostInterface) (id : Option String) :
    (iface.acknowledge id).outboundQueue = iface.outboundQueue := by
  unfold acknowledge
  split
  · split
    · rfl
    · rfl
  · rfl

@[simp] theorem acknowledge_batchSeq (iface : PostInterface) (id : Option String) :
    (iface.acknowledge id).batchSeq = iface.batchSeq := by
  unfold acknowledge
  split
  · split
    · rfl
    · rfl
  · rfl

/-- What an interface with a session sends. -/
structure Sends (iface : PostInterface) (ms : Nat) (request : ExchangeRequest) : Prop where
  packets : request.packets = iface.takes
  acks : request.ackBatchIds = iface.ackBatchIds
  batchId : request.batchId =
    if iface.takes.isEmpty then none else some (batchIdText ms iface.afterRequest.batchSeq)

theorem request_eq_ok {iface : PostInterface} (ms : Nat) (h : iface.holdsSession = true) :
    ∃ request, iface.Sends ms request ∧
      iface.request ms =
        .ok { iface := iface.afterRequest, taken := iface.takes, request := request } := by
  obtain ⟨sent, hsent⟩ := request_of_holdsSession ms h
  obtain ⟨-, htaken, hpackets, hacks, hiface, hbatch⟩ := request_spec hsent
  refine ⟨sent.request, ⟨hpackets, hacks, ?_⟩, ?_⟩
  · rw [hbatch]
    by_cases hempty : iface.takes.isEmpty = true
    · rw [if_pos hempty, if_pos hempty]
    · simp [hempty, afterRequest]
  · rw [hsent]
    obtain ⟨iface', taken, request⟩ := sent
    obtain rfl : taken = iface.takes := htaken
    obtain rfl : iface' = iface.afterRequest := hiface
    rfl

end PostInterface

/-! ## What an exchange does to the system -/

namespace System

/-- A packet is accepted or not. -/
theorem outgoing_eq (s : System) (raw : List UInt8) :
    s.outgoing raw = s ∨
      s.outgoing raw =
        { s with
          iface := (s.iface.enqueue { raw := raw, number := s.accepted.length }).signal
          accepted := s.accepted ++ [{ raw := raw, number := s.accepted.length }]
          dropped := s.dropped ++ s.iface.overflow } := by
  by_cases hdown : (!s.iface.online || s.iface.detached) = true
  · left
    simp only [outgoing, PostInterface.processOutgoing, if_pos hdown]
  · right
    simp only [outgoing, PostInterface.processOutgoing, if_neg hdown]

theorem exchange_of_no_session (ms : Nat) (fate : Fate) (h : s.iface.holdsSession = false) :
    s.exchange ms fate = { s with failures := s.failures ++ [(s.iface, s.iface)] } := by
  have hrequest := PostInterface.request_eq_error ms h
  simp only [exchange, PostInterface.exchange, hrequest]

theorem exchange_answered (ms : Nat) (h : s.iface.holdsSession = true) :
    ∃ request, s.iface.Sends ms request ∧
      s.exchange ms .answered =
        { s with
          iface := s.iface.afterRequest.acknowledge
            (s.node.handle request).answer.deliveryBatchId
          node := s.node.handle request
          dropped := s.dropped ++ s.iface.oversized
          passed := s.passed ++ s.passes request } := by
  obtain ⟨request, hsends, hrequest⟩ := PostInterface.request_eq_ok ms h
  refine ⟨request, hsends, ?_⟩
  have hanswer : (Fate.answered.reply s.node request).answer =
      .ok (s.node.handle request).answer := by
    have herror : (s.node.handle request).answer.error = none := by
      unfold Node.answer
      split
      · rfl
      · rfl
    simp [Fate.reply, Reply.answer, isRefused, isSuccess, herror]
  simp [exchange, PostInterface.exchange, hrequest, PostInterface.conclude_of_ok hanswer,
    Fate.handled, Fate.isAnswered]

theorem exchange_failed (ms : Nat) {handled : Bool}
    (hpossible : (Fate.failed handled reply).possible = true) (h : s.iface.holdsSession = true) :
    ∃ request, s.iface.Sends ms request ∧
      s.exchange ms (.failed handled reply) =
        { s with
          iface := s.iface.afterFailure reply
          node := if handled then s.node.handle request else s.node
          dropped := s.dropped ++ s.iface.oversized
          unanswered := if handled then s.unanswered ++ s.iface.takes else s.unanswered
          failures := s.failures ++ [(s.iface, s.iface.afterFailure reply)] } := by
  obtain ⟨request, hsends, hrequest⟩ := PostInterface.request_eq_ok ms h
  refine ⟨request, hsends, ?_⟩
  cases hanswer : reply.answer with
  | ok response => simp [Fate.possible, hanswer, Except.toOption] at hpossible
  | error e =>
      simp only [exchange, PostInterface.exchange, hrequest, Fate.reply,
        PostInterface.conclude_of_error hanswer]
      cases handled with
      | false => rfl
      | true => rfl

end System

/-! ## The node takes in a request -/

namespace Node

@[simp] theorem acknowledged_processed (node : Node) (ids : List String) :
    (node.acknowledged ids).processed = node.processed := rfl

@[simp] theorem acknowledged_seen (node : Node) (ids : List String) :
    (node.acknowledged ids).seen = node.seen := rfl

theorem process_pending : (node.process request).pending = node.pending := by
  unfold process
  split
  · rfl
  · split
    · rfl
    · rfl

theorem process_issued : (node.process request).issued = node.issued := by
  unfold process
  split
  · rfl
  · split
    · rfl
    · rfl

/-- Acknowledged batches are pending no more. -/
theorem handle_pending :
    (node.handle request).pending =
      node.pending.filter fun batch => !request.ackBatchIds.contains batch.id :=
  process_pending _ _

theorem handle_issued : (node.handle request).issued = node.issued :=
  process_issued _ _

/-- The names of batches that the node has seen were given before. -/
def SeenBefore (node : Node) (batchSeq : Nat) : Prop :=
  ∀ e ∈ node.seen, ∃ ms seq, e.2 = batchIdText ms seq ∧ seq ≤ batchSeq

theorem SeenBefore.mono {node : Node} {batchSeq batchSeq' : Nat} (h : node.SeenBefore batchSeq)
    (hle : batchSeq ≤ batchSeq') : node.SeenBefore batchSeq' := by
  intro e he
  obtain ⟨ms, seq, hname, hseq⟩ := h e he
  exact ⟨ms, seq, hname, Nat.le_trans hseq hle⟩

/-- A request of the interface is new to the node, so its packets are processed. -/
theorem handle_sends {node : Node} {iface : PostInterface} {request : ExchangeRequest}
    (hseen : node.SeenBefore iface.batchSeq) (h : iface.Sends ms request) :
    (node.handle request).processed = node.processed ++ iface.takes ∧
      (node.handle request).SeenBefore iface.afterRequest.batchSeq := by
  have hbatch := h.batchId
  by_cases hempty : iface.takes.isEmpty = true
  · rw [if_pos hempty] at hbatch
    have hhandle : node.handle request = node.acknowledged request.ackBatchIds := by
      simp only [handle, process, hbatch]
    refine ⟨?_, ?_⟩
    · rw [hhandle, List.isEmpty_iff.mp hempty, List.append_nil]
      rfl
    · rw [hhandle]
      exact SeenBefore.mono hseen iface.le_afterRequest_batchSeq
  · rw [if_neg hempty] at hbatch
    have hseq : iface.afterRequest.batchSeq = iface.batchSeq + 1 := by
      simp only [PostInterface.afterRequest, if_neg hempty]
    have hnew : (request.sessionToken, batchIdText ms iface.afterRequest.batchSeq) ∉ node.seen := by
      intro hmem
      obtain ⟨ms', seq, hname, hle⟩ := hseen _ hmem
      have hseq' := batchIdText_inj hname
      omega
    have hhandle : node.handle request =
        { node.acknowledged request.ackBatchIds with
          seen := node.seen ++ [(request.sessionToken, batchIdText ms iface.afterRequest.batchSeq)]
          processed := node.processed ++ request.packets } := by
      simp [handle, process, hbatch, hnew]
    rw [hhandle]
    refine ⟨by rw [h.packets], ?_⟩
    intro e he
    rcases List.mem_append.mp he with hold | hnew
    · exact SeenBefore.mono hseen iface.le_afterRequest_batchSeq e hold
    · obtain rfl := List.mem_singleton.mp hnew
      exact ⟨ms, _, rfl, Nat.le_refl _⟩

end Node

/-! ## Packets to the node -/

/-- What holds of the packets on their way to the node. A queued packet is behind every packet
processed, unless an exchange without an answer has brought it to the node. -/
structure Outward (s : System) : Prop where
  inOrder : s.node.processed.Pairwise fun p q => p.number < q.number
  conserved : ∀ p ∈ s.accepted,
    p ∈ s.node.processed ∨ p ∈ s.iface.outboundQueue ∨ p ∈ s.dropped
  queueOrder : s.iface.outboundQueue.Pairwise fun p q => p.number < q.number
  queueAccepted : ∀ p ∈ s.iface.outboundQueue, p ∈ s.accepted
  processedAccepted : ∀ p ∈ s.node.processed, p ∈ s.accepted
  numbered : ∀ p ∈ s.accepted, p.number < s.accepted.length
  behind : ∀ p ∈ s.iface.outboundQueue,
    p ∈ s.unanswered ∨ ∀ q ∈ s.node.processed, q.number < p.number
  reached : ∀ p ∈ s.unanswered, p ∈ s.node.processed
  seenBefore : s.node.SeenBefore s.iface.batchSeq

namespace Outward

/-- Nothing of it changes. -/
theorem of_eq {s s' : System} (h : Outward s)
    (hqueue : s'.iface.outboundQueue = s.iface.outboundQueue)
    (hseq : s'.iface.batchSeq = s.iface.batchSeq)
    (hprocessed : s'.node.processed = s.node.processed) (hseen : s'.node.seen = s.node.seen)
    (haccepted : s'.accepted = s.accepted) (hdropped : s'.dropped = s.dropped)
    (hunanswered : s'.unanswered = s.unanswered) : Outward s' where
  inOrder := hprocessed ▸ h.inOrder
  conserved := by rw [haccepted, hprocessed, hqueue, hdropped]; exact h.conserved
  queueOrder := hqueue ▸ h.queueOrder
  queueAccepted := by rw [haccepted, hqueue]; exact h.queueAccepted
  processedAccepted := by rw [haccepted, hprocessed]; exact h.processedAccepted
  numbered := by rw [haccepted]; exact h.numbered
  behind := by rw [hqueue, hunanswered, hprocessed]; exact h.behind
  reached := by rw [hunanswered, hprocessed]; exact h.reached
  seenBefore := by
    unfold Node.SeenBefore
    rw [hseen, hseq]
    exact h.seenBefore

theorem takes_mem (hp : p ∈ s.iface.takes) : p ∈ s.iface.outboundQueue :=
  s.iface.takes_append_rest_sublist.subset (List.mem_append_left _ hp)

theorem rest_mem (hp : p ∈ s.iface.rest) : p ∈ s.iface.outboundQueue :=
  s.iface.takes_append_rest_sublist.subset (List.mem_append_right _ hp)

section

variable (h : Outward s)

include h

/-- What is taken along is before what is not reached. -/
theorem takes_before_rest {p q : Packet} (hp : p ∈ s.iface.takes)
    (hq : q ∈ s.iface.rest) : p.number < q.number := by
  have horder := h.queueOrder.sublist s.iface.takes_append_rest_sublist
  exact (List.pairwise_append.mp horder).2.2 p hp q hq

/-- Packets that the node does not have from an exchange without an answer go behind those
processed. -/
theorem processed_append_takes (hnew : ∀ p ∈ s.iface.takes, p ∉ s.unanswered) :
    (s.node.processed ++ s.iface.takes).Pairwise fun p q => p.number < q.number := by
  have horder := h.queueOrder.sublist s.iface.takes_append_rest_sublist
  refine List.pairwise_append.mpr ⟨h.inOrder, (List.pairwise_append.mp horder).1, ?_⟩
  intro q hq p hp
  rcases h.behind p (takes_mem hp) with hunanswered | hbehind
  · exact absurd hunanswered (hnew p hp)
  · exact hbehind q hq

/-- A packet that is not reached stays behind what the node has then. -/
theorem rest_behind (hp : p ∈ s.iface.rest) :
    p ∈ s.unanswered ∨ ∀ q ∈ s.node.processed ++ s.iface.takes, q.number < p.number := by
  rcases h.behind p (rest_mem hp) with hunanswered | hbehind
  · exact Or.inl hunanswered
  · refine Or.inr fun q hq => ?_
    rcases List.mem_append.mp hq with hold | htaken
    · exact hbehind q hold
    · exact h.takes_before_rest htaken hp

/-- Accepted packets are processed, taken along, not reached, or dropped. -/
theorem conserved_takes (hp : p ∈ s.accepted) :
    p ∈ s.node.processed ∨ p ∈ s.iface.takes ∨ p ∈ s.iface.rest ∨
      p ∈ s.dropped ++ s.iface.oversized := by
  rcases h.conserved p hp with hprocessed | hqueued | hdropped
  · exact Or.inl hprocessed
  · rcases PostInterface.mem_takes_or_oversized_or_rest hqueued with htaken | hover | hrest
    · exact Or.inr (Or.inl htaken)
    · exact Or.inr (Or.inr (Or.inr (List.mem_append_right _ hover)))
    · exact Or.inr (Or.inr (Or.inl hrest))
  · exact Or.inr (Or.inr (Or.inr (List.mem_append_left _ hdropped)))

/-- What is taken along reaches the node, goes back in front of the rest, or both. -/
theorem exchanged {s' : System} (taken back : List Packet)
    (htaken : taken = [] ∨ taken = s.iface.takes ∧ ∀ p ∈ s.iface.takes, p ∉ s.unanswered)
    (hback : back = [] ∨ back = s.iface.takes)
    (hall : ∀ p ∈ s.iface.takes, p ∈ taken ∨ p ∈ back)
    (hprocessed : s'.node.processed = s.node.processed ++ taken)
    (hqueue : s'.iface.outboundQueue = back ++ s.iface.rest)
    (haccepted : s'.accepted = s.accepted)
    (hdropped : s'.dropped = s.dropped ++ s.iface.oversized)
    (hkept : ∀ p, p ∈ s.unanswered ∨ p ∈ taken ∧ p ∈ back → p ∈ s'.unanswered)
    (hunanswered : ∀ p ∈ s'.unanswered, p ∈ s.unanswered ∨ p ∈ taken)
    (hseen : s'.node.SeenBefore s'.iface.batchSeq) : Outward s' := by
  have htakes : taken ⊆ s.iface.takes := by
    rcases htaken with rfl | ⟨rfl, -⟩
    · exact List.nil_subset _
    · exact List.Subset.refl _
  have hsub : (back ++ s.iface.rest).Sublist s.iface.outboundQueue := by
    refine List.Sublist.trans ?_ s.iface.takes_append_rest_sublist
    rcases hback with rfl | rfl
    · exact List.sublist_append_right _ _
    · exact List.Sublist.refl _
  constructor
  · rw [hprocessed]
    rcases htaken with rfl | ⟨rfl, hnew⟩
    · rw [List.append_nil]
      exact h.inOrder
    · exact h.processed_append_takes hnew
  · intro p hp
    rw [haccepted] at hp
    rw [hprocessed, hqueue, hdropped]
    rcases h.conserved_takes hp with hold | htaken | hrest | hdropped
    · exact Or.inl (List.mem_append_left _ hold)
    · exact (hall p htaken).imp (List.mem_append_right _) fun hp => Or.inl (List.mem_append_left _ hp)
    · exact Or.inr (Or.inl (List.mem_append_right _ hrest))
    · exact Or.inr (Or.inr hdropped)
  · exact hqueue ▸ h.queueOrder.sublist hsub
  · rw [hqueue, haccepted]
    exact fun p hp => h.queueAccepted p (hsub.subset hp)
  · rw [hprocessed, haccepted]
    exact List.forall_mem_append.mpr
      ⟨h.processedAccepted, fun p hp => h.queueAccepted p (takes_mem (htakes hp))⟩
  · rw [haccepted]
    exact h.numbered
  · intro p hp
    rw [hqueue] at hp
    rw [hprocessed]
    rcases List.mem_append.mp hp with hback' | hrest
    · rcases htaken with rfl | ⟨rfl, -⟩
      · rw [List.append_nil]
        exact (h.behind p (hsub.subset hp)).imp_left fun hold => hkept p (Or.inl hold)
      · -- what came back was taken along, so the node has it
        have htaken : p ∈ s.iface.takes := by
          rcases hback with rfl | rfl
          · cases hback'
          · exact hback'
        exact Or.inl (hkept p (Or.inr ⟨htaken, hback'⟩))
    · refine (h.rest_behind hrest).imp (fun hold => hkept p (Or.inl hold)) fun hbehind q hq => ?_
      exact hbehind q ((List.mem_append.mp hq).elim (List.mem_append_left _)
        fun hq => List.mem_append_right _ (htakes hq))
  · intro p hp
    rw [hprocessed]
    exact List.mem_append.mpr ((hunanswered p hp).imp_left (h.reached p))
  · exact hseen

theorem answered (hnew : s.iface.holdsSession = true → ∀ p ∈ s.iface.takes, p ∉ s.unanswered) :
    Outward (s.exchange ms .answered) := by
  cases hsession : s.iface.holdsSession with
  | false =>
      rw [System.exchange_of_no_session ms .answered hsession]
      exact h.of_eq rfl rfl rfl rfl rfl rfl rfl
  | true =>
      obtain ⟨request, hsends, hexchange⟩ := System.exchange_answered ms hsession
      obtain ⟨hprocessed, hseen⟩ := Node.handle_sends h.seenBefore hsends
      rw [hexchange]
      exact h.exchanged s.iface.takes [] (.inr ⟨rfl, hnew hsession⟩) (.inl rfl) (fun _ => .inl)
        hprocessed (PostInterface.acknowledge_outboundQueue _ _) rfl rfl
        (fun p hp => hp.resolve_right fun hboth => List.not_mem_nil hboth.2) (fun _ => .inl)
        (by simpa using hseen)

/-- An exchange that the node has not seen fails: the packets go back. -/
theorem unseen (hpossible : (Fate.failed false reply).possible = true) :
    Outward (s.exchange ms (.failed false reply)) := by
  cases hsession : s.iface.holdsSession with
  | false =>
      rw [System.exchange_of_no_session ms _ hsession]
      exact h.of_eq rfl rfl rfl rfl rfl rfl rfl
  | true =>
      obtain ⟨request, hsends, hexchange⟩ := System.exchange_failed ms hpossible hsession
      have hseen := h.seenBefore.mono s.iface.le_afterRequest_batchSeq
      rw [hexchange]
      exact h.exchanged [] s.iface.takes (.inl rfl) (.inr rfl) (fun _ => .inr)
        (List.append_nil _).symm (PostInterface.afterFailure_outboundQueue _ _) rfl rfl
        (fun p hp => hp.resolve_right fun hboth => List.not_mem_nil hboth.1) (fun _ => .inl)
        (by simpa using hseen)

/-- An exchange that the node has handled fails: the packets go back, and are known to be
there. -/
theorem handled (hpossible : (Fate.failed true reply).possible = true)
    (hnew : s.iface.holdsSession = true → ∀ p ∈ s.iface.takes, p ∉ s.unanswered) :
    Outward (s.exchange ms (.failed true reply)) := by
  cases hsession : s.iface.holdsSession with
  | false =>
      rw [System.exchange_of_no_session ms _ hsession]
      exact h.of_eq rfl rfl rfl rfl rfl rfl rfl
  | true =>
      obtain ⟨request, hsends, hexchange⟩ := System.exchange_failed ms hpossible hsession
      obtain ⟨hprocessed, hseen⟩ := Node.handle_sends h.seenBefore hsends
      rw [hexchange]
      exact h.exchanged s.iface.takes s.iface.takes (.inr ⟨rfl, hnew hsession⟩) (.inr rfl)
        (fun _ => .inl) hprocessed (PostInterface.afterFailure_outboundQueue _ _) rfl rfl
        (fun p hp => List.mem_append.mpr (hp.imp_right And.left)) (fun _ => List.mem_append.mp)
        (by simpa using hseen)

/-- A packet is given to `process_outgoing`. -/
theorem outgoing (raw : List UInt8) : Outward (s.outgoing raw) := by
  rcases s.outgoing_eq raw with hsame | hnew
  · rw [hsame]
    exact h
  · rw [hnew]
    have hsub := s.iface.makeRoom_sublist
    have hlt : ∀ p ∈ s.accepted, p.number < s.accepted.length := h.numbered
    constructor
    · exact h.inOrder
    · intro p hp
      dsimp only [PostInterface.signal, PostInterface.enqueue] at hp ⊢
      rcases List.mem_append.mp hp with hold | hp
      · rcases h.conserved p hold with hprocessed | hqueued | hdropped
        · exact Or.inl hprocessed
        · exact Or.inr ((PostInterface.mem_makeRoom_or_overflow hqueued).imp
            (List.mem_append_left _) (List.mem_append_right _))
        · exact Or.inr (Or.inr (List.mem_append_left _ hdropped))
      · exact Or.inr (Or.inl (List.mem_append_right _ hp))
    · dsimp only [PostInterface.signal, PostInterface.enqueue]
      refine List.pairwise_append.mpr ⟨h.queueOrder.sublist hsub, List.pairwise_singleton _ _, ?_⟩
      intro p hp q hq
      obtain rfl := List.mem_singleton.mp hq
      exact hlt p (h.queueAccepted p (hsub.subset hp))
    · intro p hp
      dsimp only [PostInterface.signal, PostInterface.enqueue] at hp ⊢
      exact List.mem_append.mpr
        ((List.mem_append.mp hp).imp_left fun hp => h.queueAccepted p (hsub.subset hp))
    · intro p hp
      exact List.mem_append_left _ (h.processedAccepted p hp)
    · intro p hp
      dsimp only at hp ⊢
      rw [List.length_append]
      rcases List.mem_append.mp hp with hold | hp
      · exact Nat.lt_succ_of_lt (hlt p hold)
      · obtain rfl := List.mem_singleton.mp hp
        exact Nat.lt_succ_self _
    · intro p hp
      dsimp only [PostInterface.signal, PostInterface.enqueue] at hp ⊢
      rcases List.mem_append.mp hp with hold | hp
      · exact h.behind p (hsub.subset hold)
      · obtain rfl := List.mem_singleton.mp hp
        exact Or.inr fun q hq => hlt q (h.processedAccepted q hq)
    · exact h.reached
    · dsimp only [PostInterface.signal, PostInterface.enqueue]
      rw [PostInterface.makeRoom_batchSeq]
      exact h.seenBefore

end

end Outward

/-! ## Delivery batches from the node -/

/-- What holds of the delivery batches. One that was passed on and is still pending is about to
be acknowledged. -/
structure Inward (s : System) : Prop where
  passedOnce : s.passed.Nodup
  pendingOnce : (s.node.pending.map Batch.id).Nodup
  pendingIssued : ∀ batch ∈ s.node.pending, batch.id ∈ s.node.issued
  pendingNamed : ∀ batch ∈ s.node.pending, batch.id.isEmpty = false
  passedIssued : ∀ id ∈ s.passed, id ∈ s.node.issued
  awaited : ∀ batch ∈ s.node.pending, batch.id ∈ s.passed → batch.id ∈ s.iface.ackBatchIds

namespace Inward

/-- The node keeps its delivery batches, or forgets some, and so does the interface. -/
theorem of_sublist {s s' : System} (h : Inward s) (hpassed : s'.passed = s.passed)
    (hpending : s'.node.pending.Sublist s.node.pending) (hissued : s'.node.issued = s.node.issued)
    (hawaited : ∀ batch ∈ s'.node.pending, batch.id ∈ s.passed → batch.id ∈ s'.iface.ackBatchIds) :
    Inward s' where
  passedOnce := hpassed ▸ h.passedOnce
  pendingOnce := h.pendingOnce.sublist (hpending.map _)
  pendingIssued batch hbatch := hissued ▸ h.pendingIssued batch (hpending.subset hbatch)
  pendingNamed batch hbatch := h.pendingNamed batch (hpending.subset hbatch)
  passedIssued := by rw [hpassed, hissued]; exact h.passedIssued
  awaited := by rw [hpassed]; exact hawaited

theorem of_eq {s s' : System} (h : Inward s) (hpassed : s'.passed = s.passed)
    (hnode : s'.node = s.node) (hacks : s'.iface.ackBatchIds = s.iface.ackBatchIds) :
    Inward s' := by
  refine h.of_sublist hpassed (hnode ▸ List.Sublist.refl _) (by rw [hnode]) ?_
  rw [hnode, hacks]
  exact h.awaited

/-- After a request the batches passed on are pending no more. -/
theorem not_passed_of_handle (h : Inward s) {request : ExchangeRequest}
    (hsends : s.iface.Sends ms request) {batch : Batch}
    (hbatch : batch ∈ (s.node.handle request).pending) : batch.id ∉ s.passed := by
  rw [Node.handle_pending, List.mem_filter, hsends.acks] at hbatch
  intro hpassed
  have hawaited := h.awaited batch hbatch.1 hpassed
  simp [hawaited] at hbatch

theorem handle_pending_sublist : (node.handle request).pending.Sublist node.pending := by
  rw [Node.handle_pending]
  exact List.filter_sublist

/-- The batch that is offered is passed on for the first time, and is to be acknowledged. -/
theorem answered (h : Inward s) : Inward (s.exchange ms .answered) := by
  cases hsession : s.iface.holdsSession with
  | false =>
      rw [System.exchange_of_no_session ms .answered hsession]
      exact h.of_eq rfl rfl rfl
  | true =>
      obtain ⟨request, hsends, hexchange⟩ := System.exchange_answered ms hsession
      have hsub := handle_pending_sublist s.node request
      rw [hexchange]
      cases hpending : (s.node.handle request).pending with
      | nil =>
          have hnone : (s.node.handle request).answer.deliveryBatchId = none := by
            rw [Node.answer, hpending]
          have hpasses : s.passes request = [] := by simp [System.passes, hnone]
          refine h.of_sublist ?_ hsub (Node.handle_issued s.node request) ?_
          · dsimp only
            rw [hpasses, List.append_nil]
          · intro batch hbatch
            dsimp only at hbatch
            rw [hpending] at hbatch
            cases hbatch
      | cons batch more =>
          have hoffered : (s.node.handle request).answer.deliveryBatchId = some batch.id := by
            rw [Node.answer, hpending]
          have hmem : batch ∈ (s.node.handle request).pending := by
            rw [hpending]
            exact List.mem_cons_self
          have hnew := h.not_passed_of_handle hsends hmem
          have hnamed : batch.id.isEmpty = false := h.pendingNamed batch (hsub.subset hmem)
          have hacks : (s.iface.afterRequest.acknowledge (some batch.id)).ackBatchIds =
              [batch.id] := by
            simp [PostInterface.acknowledge, hnamed, PostInterface.afterRequest]
          have hpasses : ∀ id ∈ s.passes request, id = batch.id := by
            intro id hid
            unfold System.passes at hid
            split at hid
            · rw [hoffered] at hid
              exact (Option.mem_toList.mp hid |> Option.some.inj).symm
            · cases hid
          have hpassesOnce : (s.passes request).Nodup := by
            unfold System.passes
            split
            · rw [hoffered]
              exact List.nodup_cons.mpr ⟨List.not_mem_nil, List.nodup_nil⟩
            · exact List.nodup_nil
          constructor
          · refine List.nodup_append.mpr ⟨h.passedOnce, hpassesOnce, ?_⟩
            intro id hid id' hid' heq
            rw [hpasses id' hid'] at heq
            exact hnew (heq ▸ hid)
          · exact h.pendingOnce.sublist (hsub.map _)
          · intro b hb
            dsimp only
            rw [Node.handle_issued]
            exact h.pendingIssued b (hsub.subset hb)
          · intro b hb
            exact h.pendingNamed b (hsub.subset hb)
          · intro id hid
            dsimp only at hid ⊢
            rw [Node.handle_issued]
            rcases List.mem_append.mp hid with hold | hid
            · exact h.passedIssued id hold
            · rw [hpasses id hid]
              exact h.pendingIssued batch (hsub.subset hmem)
          · intro b hb hid
            dsimp only at hb hid ⊢
            rw [hoffered, hacks]
            rcases List.mem_append.mp hid with hold | hid
            · exact absurd hold (h.not_passed_of_handle hsends hb)
            · exact List.mem_singleton.mpr (hpasses _ hid)

/-- An exchange fails while nothing is to be acknowledged. -/
theorem failed (h : Inward s) {handled : Bool}
    (hpossible : (Fate.failed handled reply).possible = true)
    (hacks : s.iface.holdsSession = true → s.iface.ackBatchIds = []) :
    Inward (s.exchange ms (.failed handled reply)) := by
  cases hsession : s.iface.holdsSession with
  | false =>
      rw [System.exchange_of_no_session ms _ hsession]
      exact h.of_eq rfl rfl rfl
  | true =>
      obtain ⟨request, hsends, hexchange⟩ := System.exchange_failed ms hpossible hsession
      have hawaited := h.awaited
      rw [hacks hsession] at hawaited
      rw [hexchange]
      cases handled with
      | false =>
          exact h.of_sublist rfl (List.Sublist.refl _) rfl fun batch hbatch hpassed =>
            absurd (hawaited batch hbatch hpassed) List.not_mem_nil
      | true =>
          have hsub := handle_pending_sublist s.node request
          exact h.of_sublist rfl hsub (Node.handle_issued s.node request)
            fun batch hbatch hpassed =>
              absurd (hawaited batch (hsub.subset hbatch) hpassed) List.not_mem_nil

/-- The node has a new batch. -/
theorem batch (h : Inward s) {batch : Batch} (hnamed : batch.id.isEmpty = false)
    (hnew : batch.id ∉ s.node.issued) :
    Inward { s with
      node := { s.node with
        pending := s.node.pending ++ [batch], issued := s.node.issued ++ [batch.id] } } := by
  constructor
  · exact h.passedOnce
  · dsimp only
    rw [List.map_append]
    refine List.nodup_append.mpr ⟨h.pendingOnce, ?_, ?_⟩
    · exact List.nodup_cons.mpr ⟨List.not_mem_nil, List.nodup_nil⟩
    · intro id hid id' hid' heq
      obtain ⟨b, hb, rfl⟩ := List.mem_map.mp hid
      rw [List.mem_singleton.mp hid'] at heq
      exact hnew (heq ▸ h.pendingIssued b hb)
  · intro b hb
    rcases List.mem_append.mp hb with hold | hb
    · exact List.mem_append_left _ (h.pendingIssued b hold)
    · rw [List.mem_singleton.mp hb]
      exact List.mem_append_right _ (List.mem_singleton.mpr rfl)
  · intro b hb
    rcases List.mem_append.mp hb with hold | hb
    · exact h.pendingNamed b hold
    · rw [List.mem_singleton.mp hb]
      exact hnamed
  · intro id hid
    exact List.mem_append_left _ (h.passedIssued id hid)
  · intro b hb hpassed
    rcases List.mem_append.mp hb with hold | hb
    · exact h.awaited b hold hpassed
    · rw [List.mem_singleton.mp hb] at hpassed
      exact absurd (h.passedIssued _ hpassed) hnew

end Inward

/-! ## Exchanges that fail -/

theorem Restored.refl : Restored iface iface :=
  ⟨rfl, List.Sublist.refl _, rfl⟩

/-- The packets go back to the queue. The acknowledgements do not come back. -/
theorem restored_afterFailure_iff (reply : Reply) :
    Restored iface (iface.afterFailure reply) ↔ iface.ackBatchIds = [] := by
  constructor
  · intro h
    simpa using h.acks.symm
  · intro hacks
    refine ⟨by rw [PostInterface.afterFailure_ackBatchIds, hacks], ?_, ?_⟩
    · rw [PostInterface.afterFailure_outboundQueue]
      exact iface.takes_append_rest_sublist
    · rw [PostInterface.afterFailure_outboundQueue]
      exact iface.filter_takes_append_rest

/-- The invariant of careful runs. -/
structure Kept (s : System) : Prop where
  outward : Outward s
  inward : Inward s
  restored : ∀ f ∈ s.failures, Restored f.1 f.2

namespace Kept

theorem exactlyOnce (h : Kept s) : ExactlyOnce s :=
  ⟨h.outward.inOrder, h.outward.conserved, h.inward.passedOnce, h.restored⟩

theorem start (isWakeMode : Bool) (configuredPollInterval : Option Nat) :
    Kept (System.start isWakeMode configuredPollInterval) := by
  refine ⟨⟨.nil, ?_, .nil, ?_, ?_, ?_, ?_, ?_, ?_⟩,
    ⟨List.nodup_nil, List.nodup_nil, ?_, ?_, ?_, ?_⟩, ?_⟩
  all_goals exact fun _ h => absurd h List.not_mem_nil

theorem exchange_failures (h : Kept s) (ms : Nat) {fate : Fate} (hpossible : fate.possible = true)
    (hacks : s.iface.holdsSession = true → fate.isAnswered = false → s.iface.ackBatchIds = []) :
    ∀ f ∈ (s.exchange ms fate).failures, Restored f.1 f.2 := by
  have happend : ∀ after, Restored s.iface after →
      ∀ f ∈ s.failures ++ [(s.iface, after)], Restored f.1 f.2 := by
    intro after hafter f hf
    rcases List.mem_append.mp hf with hold | hf
    · exact h.restored f hold
    · rw [List.mem_singleton.mp hf]
      exact hafter
  cases hsession : s.iface.holdsSession with
  | false =>
      rw [System.exchange_of_no_session ms fate hsession]
      exact happend _ (Restored.refl _)
  | true =>
      cases fate with
      | answered =>
          obtain ⟨request, -, hexchange⟩ := System.exchange_answered ms hsession
          rw [hexchange]
          exact h.restored
      | failed handled reply =>
          obtain ⟨request, -, hexchange⟩ := System.exchange_failed ms hpossible hsession
          rw [hexchange]
          exact happend _ ((restored_afterFailure_iff _ _).mpr (hacks hsession rfl))

theorem step {s s' : System} (h : Kept s) {e : Event} (hok : Careful s e)
    (hstep : s.step e = some s') : Kept s' := by
  cases e with
  | register call =>
      obtain rfl := Option.some.inj hstep
      have hfields : ∀ iface, iface = (s.iface.registerWithRemote call).1 →
          iface.outboundQueue = s.iface.outboundQueue ∧ iface.batchSeq = s.iface.batchSeq ∧
            iface.ackBatchIds = s.iface.ackBatchIds := by
        rintro iface rfl
        unfold PostInterface.registerWithRemote
        split
        · exact ⟨rfl, rfl, rfl⟩
        · exact ⟨rfl, rfl, rfl⟩
      obtain ⟨hqueue, hseq, hacks⟩ := hfields _ rfl
      exact ⟨h.outward.of_eq hqueue hseq rfl rfl rfl rfl rfl, h.inward.of_eq rfl rfl hacks,
        h.restored⟩
  | outgoing raw =>
      obtain rfl := Option.some.inj hstep
      have houtward := h.outward.outgoing raw
      rcases s.outgoing_eq raw with hsame | hnew
      · rw [hsame]
        exact h
      · rw [hnew] at houtward ⊢
        exact ⟨houtward, h.inward.of_eq rfl rfl s.iface.makeRoom_ackBatchIds, h.restored⟩
  | batch batch =>
      rw [System.step] at hstep
      split at hstep
      · cases hstep
      · rename_i hnew
        obtain rfl := Option.some.inj hstep
        obtain ⟨hnamed, hissued⟩ : batch.id.isEmpty = false ∧ batch.id ∉ s.node.issued := by
          simpa using hnew
        exact ⟨h.outward.of_eq rfl rfl rfl rfl rfl rfl rfl, h.inward.batch hnamed hissued,
          h.restored⟩
  | exchange ms fate =>
      rw [System.step] at hstep
      split at hstep
      · rename_i hpossible
        obtain rfl := Option.some.inj hstep
        have hfailures := h.exchange_failures ms hpossible fun hsession => (hok hsession).1
        cases fate with
        | answered =>
            exact ⟨h.outward.answered fun hsession => (hok hsession).2 rfl, h.inward.answered,
              hfailures⟩
        | failed handled reply =>
            refine ⟨?_, h.inward.failed hpossible fun hsession => (hok hsession).1 rfl, hfailures⟩
            cases handled with
            | false => exact h.outward.unseen hpossible
            | true => exact h.outward.handled hpossible fun hsession => (hok hsession).2 rfl
      · cases hstep

end Kept

end Reticulum.Interfaces.Post
