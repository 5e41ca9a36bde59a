import Reticulum.Lib.Runs
import Reticulum.Channel.Receive

/-!
# Delivery over a channel

A sender numbers its messages consecutively modulo `seqModulus` and keeps at
most `windowMax` of them undelivered. The envelopes arrive in any order, and a
copy may arrive again as long as at most `windowMax` messages were delivered
after the one it carries.

## Implementation notes

The index of a message in the list of messages sent is not on the wire. The
wire carries the index modulo `seqModulus`, and the receiver compares these
remainders, not the indices.
-/

namespace Reticulum.Channel

open Runs

variable {Msg : Type*} [MessageBase Msg]

/-- The bytes of message number `k`. -/
def frame (m : Msg) (k : Nat) : Bytes :=
  (Envelope.pack (some m) (k % seqModulus)).toOption.getD []

/-- A sender, the messages handed to the callbacks so far, and the receiving
channel. -/
structure Peers (Msg : Type*) where
  sent : List Msg
  delivered : List Msg
  receiver : ChannelState Msg

/-- `send m`: the sender numbers and sends a message. `arrive k`: an envelope
carrying message number `k` arrives. -/
inductive Event (Msg : Type*)
  | send (m : Msg)
  | arrive (k : Nat)

/-- Two peers before the first message. -/
def Peers.new (factories : Factories Msg) (callbacks : List (Msg → Bool)) : Peers Msg :=
  { sent := [], delivered := [], receiver := ChannelState.new factories callbacks }

/-- One event. A message with type 0 cannot be packed and is never sent. -/
def step (p : Peers Msg) : Event Msg → Option (Peers Msg)
  | .send m =>
      if p.sent.length < p.delivered.length + windowMax ∧ MessageBase.msgtype m ≠ 0 then
        some { p with sent := p.sent ++ [m] }
      else none
  | .arrive k =>
      match p.sent[k]? with
      | none => none
      | some m =>
          if p.delivered.length ≤ k + windowMax then
            let (receiver, handed) := receive p.receiver (frame m k)
            some { p with
              receiver := receiver
              delivered := p.delivered ++ handed.map Prod.fst }
          else none

/-- The envelope the receiver makes of message number `k`. -/
def envelopeOf (factories : Factories Msg) (m : Msg) (k : Nat) : Option (Envelope Msg) :=
  (received factories m).map fun object =>
    { sequence := k % seqModulus, raw := frame m k, message := some object, unpacked := true }

/-- The messages handed to the callbacks are the first messages sent, and
every envelope in `rx_ring` is that of a message not yet handed over. -/
def ExactlyOnce (p : Peers Msg) : Prop :=
  p.delivered.map some <+: p.sent.map (received p.receiver.messageFactories) ∧
  ∀ envelope ∈ p.receiver.rxRing, ∃ k m, p.delivered.length ≤ k ∧ p.sent[k]? = some m ∧
    envelopeOf p.receiver.messageFactories m k = some envelope

/-- An envelope that carries a delivered message is numbered in the same round
of `seqModulus` numbers as the next message. -/
def SameRound (p : Peers Msg) : Event Msg → Prop
  | .send _ => True
  | .arrive k => k < p.delivered.length → k / seqModulus = p.delivered.length / seqModulus

/-! ## The ring -/

variable {e : Envelope Msg} {m : Msg} {k : Nat} {p : Peers Msg}

omit [MessageBase Msg] in
/-- A new envelope is added to the ring and nothing else changes. -/
theorem emplaceEnvelope_perm {next : Nat} {ring : List (Envelope Msg)}
    (h : (emplaceEnvelope e next ring).1 = true) :
    (emplaceEnvelope e next ring).2.Perm (e :: ring) := by
  induction ring with
  | nil => exact List.Perm.refl _
  | cons x ring ih =>
      simp only [emplaceEnvelope] at h ⊢
      split
      · rename_i heq
        simp [heq] at h
      · split
        · exact List.Perm.refl _
        · rename_i hne hins
          simp only [hne, hins, if_false] at h
          exact ((ih h).cons x).trans (List.Perm.swap e x ring)

omit [MessageBase Msg] in
/-- An envelope is refused only when its number is in the ring. -/
theorem emplaceEnvelope_refused {next : Nat} {ring : List (Envelope Msg)}
    (h : (emplaceEnvelope e next ring).1 = false) : ∃ x ∈ ring, x.sequence = e.sequence := by
  induction ring with
  | nil => cases h
  | cons x ring ih =>
      simp only [emplaceEnvelope] at h
      split at h
      · rename_i heq
        exact ⟨x, by simp, heq.symm⟩
      · split at h
        · cases h
        · obtain ⟨y, hy, hseq⟩ := ih h
          exact ⟨y, by simp [hy], hseq⟩

omit [MessageBase Msg] in
/-- A number far from the next one is compared with the whole ring. -/
theorem emplaceEnvelope_duplicate {next : Nat} {ring : List (Envelope Msg)}
    (hfar : seqDistance next e.sequence > seqMax / 2) (h : ∃ x ∈ ring, x.sequence = e.sequence) :
    (emplaceEnvelope e next ring).1 = false := by
  induction ring with
  | nil => simp at h
  | cons x ring ih =>
      simp only [emplaceEnvelope]
      split
      · rfl
      · rename_i hne
        simp only [hfar, not_true_eq_false, and_false, if_false]
        apply ih
        obtain ⟨y, hy, hseq⟩ := h
        rcases List.mem_cons.mp hy with rfl | hy
        · exact absurd hseq.symm hne
        · exact ⟨y, hy, hseq⟩

omit [MessageBase Msg] in
theorem removeSequence_some {sequence : Nat} {ring rest : List (Envelope Msg)}
    (h : removeSequence sequence ring = some (e, rest)) :
    e.sequence = sequence ∧ ring.Perm (e :: rest) := by
  induction ring generalizing rest with
  | nil => cases h
  | cons x ring ih =>
      simp only [removeSequence] at h
      split at h
      · cases h
        exact ⟨by assumption, List.Perm.refl _⟩
      · obtain ⟨⟨found, rest'⟩, hfound, heq⟩ := Option.map_eq_some_iff.mp h
        cases heq
        obtain ⟨hseq, hperm⟩ := ih hfound
        exact ⟨hseq, (hperm.cons x).trans (List.Perm.swap found x rest')⟩

omit [MessageBase Msg] in
theorem removeSequence_none {sequence : Nat} {ring : List (Envelope Msg)}
    (h : removeSequence sequence ring = none) : ∀ e ∈ ring, e.sequence ≠ sequence := by
  induction ring with
  | nil => simp
  | cons x ring ih =>
      simp only [removeSequence] at h
      split at h
      · cases h
      · rename_i hne
        intro e he
        rcases List.mem_cons.mp he with rfl | he
        · exact hne
        · exact ih (Option.map_eq_none_iff.mp h) e he

/-! ## Numbers around the window -/

theorem seqModulus_eq : seqModulus = 65536 := rfl

/-- Indices less than a round apart are equal when their numbers are. -/
theorem eq_of_mod_eq {d k : Nat} (hd : d ≤ k) (hk : k < d + seqModulus)
    (h : k % seqModulus = d % seqModulus) : k = d := by
  rw [seqModulus_eq] at hk h
  omega

theorem invalidSequence_eq_true {next sequence : Nat} :
    invalidSequence next sequence = true ↔ sequence < next ∧
      ((next + windowMax) % seqModulus < next →
        (next + windowMax) % seqModulus < sequence) := by
  simp only [invalidSequence]
  by_cases h : sequence < next <;> by_cases h' : (next + windowMax) % seqModulus < next <;>
    simp [h, h']

/-- A message inside the window passes the sequence test. -/
theorem invalidSequence_window {d k : Nat} (hd : d ≤ k) (hk : k < d + windowMax) :
    invalidSequence (d % seqModulus) (k % seqModulus) = false := by
  rw [← Bool.not_eq_true, invalidSequence_eq_true]
  simp only [windowMax, seqModulus_eq] at hk ⊢
  omega

/-- A delivered message of the same round is refused. -/
theorem invalidSequence_sameRound {d k : Nat} (hk : k < d) (hd : d ≤ k + windowMax)
    (h : k / seqModulus = d / seqModulus) :
    invalidSequence (d % seqModulus) (k % seqModulus) = true := by
  rw [invalidSequence_eq_true]
  simp only [windowMax, seqModulus_eq] at hd h ⊢
  omega

/-- A delivered message of the round before passes the sequence test. -/
theorem invalidSequence_roundBefore {d k : Nat} (hk : k < d) (hd : d ≤ k + windowMax)
    (h : k / seqModulus ≠ d / seqModulus) :
    invalidSequence (d % seqModulus) (k % seqModulus) = false := by
  rw [← Bool.not_eq_true, invalidSequence_eq_true]
  simp only [windowMax, seqModulus_eq] at hd h ⊢
  omega

/-- A message of the window that is not the next one counts as far away. -/
theorem seqDistance_window {d k : Nat} (hd : d < k) (hk : k < d + windowMax) :
    seqDistance (d % seqModulus) (k % seqModulus) > seqMax / 2 := by
  simp only [windowMax] at hk
  unfold seqDistance
  split
  · simp only [seqModulus_eq, seqMax] at *
    omega
  · simp only [seqModulus_eq, seqMax] at *
    omega

/-! ## Unpacking a frame -/

/-- The receiver unpacks the bytes of message number `k` into its envelope. -/
theorem unpack_frame {factories : Factories Msg} (hm : MessageBase.msgtype m ≠ 0) :
    ((Envelope.ofRaw (frame m k) : Envelope Msg).unpack factories).toOption =
      envelopeOf factories m k := by
  have hk : k % seqModulus < 65536 := Nat.mod_lt k (by decide)
  obtain ⟨raw, hraw⟩ : ∃ raw, Envelope.pack (some m) (k % seqModulus) = .ok raw := by
    simp [Envelope.pack, hm]
  have hframe : frame m k = raw := by simp [frame, hraw, Except.toOption]
  rw [envelopeOf, hframe]
  exact unpack_pack hk hraw

theorem envelopeOf_some {factories : Factories Msg} (h : envelopeOf factories m k = some e) :
    e.sequence = k % seqModulus ∧ e.unpacked = true ∧ e.message = received factories m := by
  obtain ⟨object, hobject, rfl⟩ := Option.map_eq_some_iff.mp h
  exact ⟨rfl, rfl, hobject.symm⟩

/-- A message the receiver cannot unpack leaves the channel as it is. -/
theorem receive_unknown {inner : ChannelState Msg} (hm : MessageBase.msgtype m ≠ 0)
    (h : envelopeOf inner.messageFactories m k = none) :
    receive inner (frame m k) = (inner, []) := by
  have hun : ((Envelope.ofRaw (frame m k) : Envelope Msg).unpack
      inner.messageFactories).toOption = envelopeOf inner.messageFactories m k :=
    unpack_frame hm
  rw [h] at hun
  simp only [receive]
  cases hcase : (Envelope.ofRaw (frame m k) : Envelope Msg).unpack inner.messageFactories with
  | error err => rfl
  | ok e => rw [hcase] at hun; cases hun

/-- The rest of `receive` once the envelope is unpacked. -/
theorem receive_known {inner : ChannelState Msg} (hm : MessageBase.msgtype m ≠ 0)
    (h : envelopeOf inner.messageFactories m k = some e) :
    receive inner (frame m k) =
      if invalidSequence inner.nextRxSequence (k % seqModulus) then (inner, [])
      else
        match emplaceEnvelope e inner.nextRxSequence inner.rxRing with
        | (false, _) => (inner, [])
        | (true, ring) =>
            let (contiguous, left, next) :=
              takeContiguous inner.messageFactories ring inner.nextRxSequence
            ({ inner with rxRing := left, nextRxSequence := next },
              (contiguous.filterMap Envelope.message).map fun message =>
                (message, offer inner.messageCallbacks message)) := by
  have hun : ((Envelope.ofRaw (frame m k) : Envelope Msg).unpack
      inner.messageFactories).toOption = envelopeOf inner.messageFactories m k :=
    unpack_frame hm
  rw [h] at hun
  simp only [receive]
  cases hcase : (Envelope.ofRaw (frame m k) : Envelope Msg).unpack inner.messageFactories with
  | error err => rw [hcase] at hun; cases hun
  | ok e' =>
      rw [hcase] at hun
      obtain rfl : e' = e := Option.some.inj hun
      exact (envelopeOf_some h).1 ▸ rfl

/-! ## The invariant -/

/-- What holds of a ring and a next sequence number when the messages
`delivered` have been handed over. -/
structure Agrees (factories : Factories Msg) (sent delivered : List Msg) (next : Nat)
    (ring : List (Envelope Msg)) : Prop where
  next_eq : next = delivered.length % seqModulus
  delivered_eq : delivered.map some <+: sent.map (received factories)
  window : sent.length ≤ delivered.length + windowMax
  pending : ∀ e ∈ ring, ∃ k m, delivered.length ≤ k ∧ sent[k]? = some m ∧
    envelopeOf factories m k = some e
  nodup : (ring.map Envelope.sequence).Nodup

namespace Agrees

variable {factories : Factories Msg} {sent delivered : List Msg} {next : Nat}
  {ring : List (Envelope Msg)}

/-- The envelope numbered `next` carries the next message. -/
theorem next_message (h : Agrees factories sent delivered next ring) (he : e ∈ ring)
    (hseq : e.sequence = next) :
    ∃ m object, sent[delivered.length]? = some m ∧ received factories m = some object ∧
      e.message = some object ∧ e.unpacked = true := by
  obtain ⟨k, m, hk, hsent, henv⟩ := h.pending e he
  obtain ⟨hnum, hunpacked, hmessage⟩ := envelopeOf_some henv
  obtain ⟨object, hobject, rfl⟩ := Option.map_eq_some_iff.mp henv
  have hlt : k < sent.length := (List.getElem?_eq_some_iff.mp hsent).1
  have hround : k < delivered.length + seqModulus := by
    have hwindow := h.window
    simp only [windowMax, seqModulus_eq] at hwindow ⊢
    omega
  have hkd : k = delivered.length :=
    eq_of_mod_eq hk hround (by rw [← hnum, hseq, h.next_eq])
  exact ⟨m, object, hkd ▸ hsent, hobject, by rw [hmessage, hobject], hunpacked⟩

/-- Taking the next message out of the ring. -/
theorem take (h : Agrees factories sent delivered next ring) {rest : List (Envelope Msg)}
    (hseq : e.sequence = next) (hperm : ring.Perm (e :: rest)) :
    ∃ object, e.message = some object ∧ e.unpacked = true ∧
      Agrees factories sent (delivered ++ [object]) ((next + 1) % seqModulus) rest := by
  obtain ⟨m, object, hsent, hobject, hmessage, hunpacked⟩ :=
    h.next_message (hperm.mem_iff.mpr (by simp)) hseq
  have hnodup : ((e :: rest).map Envelope.sequence).Nodup :=
    (hperm.map Envelope.sequence).nodup_iff.mp h.nodup
  rw [List.map_cons, List.nodup_cons] at hnodup
  refine ⟨object, hmessage, hunpacked, ?_, ?_, ?_, ?_, hnodup.2⟩
  · simp [h.next_eq]
  · rw [List.map_append]
    obtain ⟨tail, htail⟩ := h.delivered_eq
    have hget : (sent.map (received factories))[delivered.length]? = some (some object) := by
      simp [hsent, hobject]
    rw [← htail, List.getElem?_append_right (by simp)] at hget
    cases tail with
    | nil => simp at hget
    | cons first tail =>
        obtain rfl : first = some object := by simpa using hget
        exact ⟨tail, by rw [← htail]; simp⟩
  · have := h.window
    simp only [List.length_append, List.length_singleton]
    omega
  · intro e' he'
    obtain ⟨k, m', hk, hsent', henv⟩ := h.pending e' (hperm.mem_iff.mpr (by simp [he']))
    refine ⟨k, m', ?_, hsent', henv⟩
    have hne : k ≠ delivered.length := by
      rintro rfl
      apply hnodup.1
      rw [hseq, h.next_eq, ← (envelopeOf_some henv).1]
      exact List.mem_map_of_mem he'
    simp only [List.length_append, List.length_singleton]
    omega

end Agrees

/-- The loop hands over the messages it takes, and ends when the next message
is not in the ring. -/
theorem takeContiguous_agrees {factories : Factories Msg} {sent delivered : List Msg} {next : Nat}
    {ring : List (Envelope Msg)} (h : Agrees factories sent delivered next ring) :
    Agrees factories sent
        (delivered ++ (takeContiguous factories ring next).1.filterMap Envelope.message)
        (takeContiguous factories ring next).2.2 (takeContiguous factories ring next).2.1 ∧
      ∀ e ∈ (takeContiguous factories ring next).2.1,
        e.sequence ≠ (takeContiguous factories ring next).2.2 := by
  fun_induction takeContiguous factories ring next generalizing delivered with
  | case1 ring next hnone =>
      simp only [List.filterMap_nil, List.append_nil]
      exact ⟨h, removeSequence_none hnone⟩
  | case2 ring next e rest hsome e' contiguous left last htake =>
      rename_i ih
      obtain ⟨hseq, hperm⟩ := removeSequence_some hsome
      obtain ⟨object, hmessage, hunpacked, hrest⟩ := h.take hseq hperm
      have hih := ih hrest
      have he' : e' = e := by simp [e', hunpacked]
      rw [htake] at hih
      simp only [he', List.filterMap_cons, hmessage]
      simpa only [List.append_assoc, List.singleton_append] using hih

/-- The invariant of a run. -/
structure Inv (p : Peers Msg) : Prop where
  agrees : Agrees p.receiver.messageFactories p.sent p.delivered
    p.receiver.nextRxSequence p.receiver.rxRing
  waiting : ∀ e ∈ p.receiver.rxRing, e.sequence ≠ p.receiver.nextRxSequence
  msgtype : ∀ m ∈ p.sent, MessageBase.msgtype m ≠ 0

theorem inv_new (factories : Factories Msg) (callbacks : List (Msg → Bool)) :
    Inv (Peers.new factories callbacks) where
  agrees :=
    { next_eq := rfl, delivered_eq := List.nil_prefix, window := Nat.zero_le _
      pending := by simp [Peers.new, ChannelState.new]
      nodup := by simp [Peers.new, ChannelState.new] }
  waiting := by simp [Peers.new, ChannelState.new]
  msgtype := by simp [Peers.new]

theorem Inv.exactlyOnce (h : Inv p) : ExactlyOnce p :=
  ⟨h.agrees.delivered_eq, h.agrees.pending⟩

/-- What an arrival can do to the peers. -/
theorem step_arrive {p p' : Peers Msg} (h : step p (.arrive k) = some p') :
    ∃ m, p.sent[k]? = some m ∧ p.delivered.length ≤ k + windowMax ∧
      p' = { p with
        receiver := (receive p.receiver (frame m k)).1
        delivered := p.delivered ++ (receive p.receiver (frame m k)).2.map Prod.fst } := by
  simp only [step] at h
  split at h
  · cases h
  · rename_i m hm
    split at h
    · rename_i hdelay
      exact ⟨m, hm, hdelay, (Option.some.inj h).symm⟩
    · cases h

theorem step_send {p p' : Peers Msg} (h : step p (.send m) = some p') :
    p.sent.length < p.delivered.length + windowMax ∧ MessageBase.msgtype m ≠ 0 ∧
      p' = { p with sent := p.sent ++ [m] } := by
  simp only [step] at h
  split at h
  · rename_i hok
    exact ⟨hok.1, hok.2, (Option.some.inj h).symm⟩
  · cases h

/-- Sending keeps the invariant. -/
theorem Inv.send (h : Inv p) (hwindow : p.sent.length < p.delivered.length + windowMax)
    (hm : MessageBase.msgtype m ≠ 0) : Inv { p with sent := p.sent ++ [m] } where
  agrees :=
    { next_eq := h.agrees.next_eq
      delivered_eq := by
        rw [List.map_append]
        exact h.agrees.delivered_eq.trans (List.prefix_append _ _)
      window := by
        simp only [List.length_append, List.length_singleton]
        omega
      pending := by
        intro e he
        obtain ⟨k, m', hk, hsent, henv⟩ := h.agrees.pending e he
        refine ⟨k, m', hk, ?_, henv⟩
        rw [List.getElem?_append_left (List.getElem?_eq_some_iff.mp hsent).1]
        exact hsent
      nodup := h.agrees.nodup }
  waiting := h.waiting
  msgtype := by
    intro m' hm'
    rcases List.mem_append.mp hm' with hm' | hm'
    · exact h.msgtype m' hm'
    · rw [List.mem_singleton.mp hm']
      exact hm

/-- The envelope of a message in the window joins the ring, once. -/
theorem Agrees.emplace {factories : Factories Msg} {sent delivered : List Msg} {next k : Nat}
    {ring : List (Envelope Msg)} (h : Agrees factories sent delivered next ring)
    (hwaiting : ∀ x ∈ ring, x.sequence ≠ next) (hk : delivered.length ≤ k)
    (hsent : sent[k]? = some m) (he : envelopeOf factories m k = some e)
    (hnew : (emplaceEnvelope e next ring).1 = true) :
    Agrees factories sent delivered next (emplaceEnvelope e next ring).2 := by
  have hperm := emplaceEnvelope_perm hnew
  have hnum := (envelopeOf_some he).1
  have hlt : k < sent.length := (List.getElem?_eq_some_iff.mp hsent).1
  have hfresh : e.sequence ∉ ring.map Envelope.sequence := by
    intro hmem
    obtain ⟨x, hx, hxseq⟩ := List.mem_map.mp hmem
    rcases Nat.eq_or_lt_of_le hk with rfl | hdk
    · exact hwaiting x hx (by rw [hxseq, hnum, h.next_eq])
    · have hfar : seqDistance next e.sequence > seqMax / 2 := by
        rw [h.next_eq, hnum]
        exact seqDistance_window hdk (Nat.lt_of_lt_of_le hlt h.window)
      have hrefused := emplaceEnvelope_duplicate hfar ⟨x, hx, hxseq⟩
      rw [hrefused] at hnew
      cases hnew
  refine ⟨h.next_eq, h.delivered_eq, h.window, ?_, ?_⟩
  · intro x hx
    rcases List.mem_cons.mp (hperm.mem_iff.mp hx) with rfl | hx
    · exact ⟨k, m, hk, hsent, he⟩
    · exact h.pending x hx
  · rw [(hperm.map Envelope.sequence).nodup_iff, List.map_cons, List.nodup_cons]
    exact ⟨hfresh, h.nodup⟩

/-- A message in the window keeps the invariant when it arrives. -/
theorem Inv.arrive (h : Inv p) (hsent : p.sent[k]? = some m) (hk : p.delivered.length ≤ k) :
    Inv { p with
      receiver := (receive p.receiver (frame m k)).1
      delivered := p.delivered ++ (receive p.receiver (frame m k)).2.map Prod.fst } := by
  have hm : MessageBase.msgtype m ≠ 0 := h.msgtype m (List.mem_of_getElem? hsent)
  cases he : envelopeOf p.receiver.messageFactories m k with
  | none => simpa [receive_unknown hm he] using h
  | some e =>
      have hlt : k < p.sent.length := (List.getElem?_eq_some_iff.mp hsent).1
      have hvalid : invalidSequence p.receiver.nextRxSequence (k % seqModulus) = false := by
        rw [h.agrees.next_eq]
        exact invalidSequence_window hk (Nat.lt_of_lt_of_le hlt h.agrees.window)
      rw [receive_known hm he, hvalid]
      simp only [Bool.false_eq_true, if_false]
      cases hnew : emplaceEnvelope e p.receiver.nextRxSequence p.receiver.rxRing with
      | mk isNew ring =>
          cases isNew with
          | false => simpa using h
          | true =>
              have hring : Agrees p.receiver.messageFactories p.sent p.delivered
                  p.receiver.nextRxSequence ring := by
                have := h.agrees.emplace h.waiting hk hsent he (by rw [hnew])
                rwa [hnew] at this
              obtain ⟨hagrees, hwaiting⟩ := takeContiguous_agrees hring
              refine ⟨?_, hwaiting, h.msgtype⟩
              simpa [List.map_map, Function.comp_def] using hagrees

/-- A delivered message of the same round changes nothing. -/
theorem receive_sameRound (h : Inv p) (hsent : p.sent[k]? = some m) (hk : k < p.delivered.length)
    (hdelay : p.delivered.length ≤ k + windowMax)
    (hround : k / seqModulus = p.delivered.length / seqModulus) :
    receive p.receiver (frame m k) = (p.receiver, []) := by
  have hm : MessageBase.msgtype m ≠ 0 := h.msgtype m (List.mem_of_getElem? hsent)
  cases he : envelopeOf p.receiver.messageFactories m k with
  | none => exact receive_unknown hm he
  | some e =>
      rw [receive_known hm he, h.agrees.next_eq, invalidSequence_sameRound hk hdelay hround]
      rfl

/-- A step with an envelope of the right round keeps the invariant. -/
theorem inv_step {p p' : Peers Msg} {e : Event Msg} (h : Inv p) (hok : SameRound p e)
    (hstep : step p e = some p') : Inv p' := by
  cases e with
  | send m =>
      obtain ⟨hwindow, hm, rfl⟩ := step_send hstep
      exact h.send hwindow hm
  | arrive k =>
      obtain ⟨m, hsent, hdelay, rfl⟩ := step_arrive hstep
      rcases Nat.lt_or_ge k p.delivered.length with hk | hk
      · simpa [receive_sameRound h hsent hk hdelay (hok hk)] using h
      · exact h.arrive hsent hk

/-- A delivered message was received as an envelope. -/
theorem Inv.delivered_envelope (h : Inv p) (hk : k < p.delivered.length)
    (hsent : p.sent[k]? = some m) : ∃ e, envelopeOf p.receiver.messageFactories m k = some e := by
  obtain ⟨tail, htail⟩ := h.agrees.delivered_eq
  have hget : (p.sent.map (received p.receiver.messageFactories))[k]? =
      some (received p.receiver.messageFactories m) := by
    simp [hsent]
  rw [← htail, List.getElem?_append_left (by simpa using hk), List.getElem?_map,
    List.getElem?_eq_getElem hk, Option.map_some, Option.some.injEq] at hget
  exact ⟨_, by rw [envelopeOf, ← hget]; rfl⟩

/-- Nothing is taken from a ring without the next message. -/
theorem takeContiguous_waiting {factories : Factories Msg} {ring : List (Envelope Msg)} {next : Nat}
    (h : ∀ e ∈ ring, e.sequence ≠ next) :
    takeContiguous factories ring next = ([], ring, next) := by
  have hnone : removeSequence next ring = none := by
    cases hcase : removeSequence next ring with
    | none => rfl
    | some found =>
        obtain ⟨hseq, hperm⟩ := removeSequence_some hcase
        exact absurd hseq (h found.1 (hperm.mem_iff.mpr (by simp)))
  rw [takeContiguous.eq_def]
  split
  · rfl
  · simp_all

/-- A delivered message of the round before stays in the ring. -/
theorem step_roundBefore {p p' : Peers Msg} (h : Inv p) (hok : ¬ SameRound p (.arrive k))
    (hstep : step p (.arrive k) = some p') : ¬ ExactlyOnce p' := by
  obtain ⟨m, hsent, hdelay, rfl⟩ := step_arrive hstep
  simp only [SameRound, Classical.not_imp] at hok
  obtain ⟨hk, hround⟩ := hok
  have hm : MessageBase.msgtype m ≠ 0 := h.msgtype m (List.mem_of_getElem? hsent)
  obtain ⟨e, he⟩ := h.delivered_envelope hk hsent
  have hnum := (envelopeOf_some he).1
  have hwindow := h.agrees.window
  have hother : ∀ k' : Nat, p.delivered.length ≤ k' → k' < p.sent.length →
      k' % seqModulus ≠ k % seqModulus := by
    intro k' hk' hlt heq
    simp only [windowMax, seqModulus_eq] at *
    omega
  have hvalid : invalidSequence p.receiver.nextRxSequence (k % seqModulus) = false := by
    rw [h.agrees.next_eq]
    exact invalidSequence_roundBefore hk hdelay hround
  have hnew : (emplaceEnvelope e p.receiver.nextRxSequence p.receiver.rxRing).1 = true := by
    rw [← Bool.not_eq_false]
    intro hrefused
    obtain ⟨x, hx, hxseq⟩ := emplaceEnvelope_refused hrefused
    obtain ⟨k', m', hk', hsent', henv⟩ := h.agrees.pending x hx
    apply hother k' hk' (List.getElem?_eq_some_iff.mp hsent').1
    rw [← (envelopeOf_some henv).1, hxseq, hnum]
  have hperm := emplaceEnvelope_perm hnew
  have hwaiting : ∀ x ∈ (emplaceEnvelope e p.receiver.nextRxSequence p.receiver.rxRing).2,
      x.sequence ≠ p.receiver.nextRxSequence := by
    intro x hx
    rcases List.mem_cons.mp (hperm.mem_iff.mp hx) with rfl | hx
    · rw [hnum, h.agrees.next_eq]
      simp only [windowMax, seqModulus_eq] at *
      omega
    · exact h.waiting x hx
  have hreceive : receive p.receiver (frame m k) =
      ({ p.receiver with
          rxRing := (emplaceEnvelope e p.receiver.nextRxSequence p.receiver.rxRing).2 }, []) := by
    rw [receive_known hm he, hvalid]
    simp only [Bool.false_eq_true, if_false]
    split
    · rename_i hcase
      simp [hcase] at hnew
    · rename_i ring hcase
      rw [hcase] at hwaiting
      simp [hcase, takeContiguous_waiting hwaiting]
  rintro ⟨-, hpending⟩
  simp only [hreceive, List.map_nil, List.append_nil] at hpending
  obtain ⟨k', m', hk', hsent', henv⟩ := hpending e (hperm.mem_iff.mpr (by simp))
  apply hother k' hk' (List.getElem?_eq_some_iff.mp hsent').1
  rw [← (envelopeOf_some henv).1, hnum]

/-- Over every run, the messages handed to the callbacks are a prefix of those
sent and the ring holds no delivered message, exactly when every repeated
envelope is numbered in the round of the next message. -/
theorem exactlyOnce_iff_sameRound (factories : Factories Msg)
    (callbacks : List (Msg → Bool)) (es : List (Event Msg)) :
    Always step ExactlyOnce (Peers.new factories callbacks) es ↔
      Meets step SameRound (Peers.new factories callbacks) es := by
  apply always_iff_meets (I := Inv) (fun p h => h.exactlyOnce)
  · intro p e p' h hok hstep
    exact inv_step h hok hstep
  · intro p e p' h hok hstep
    cases e with
    | send m => exact absurd True.intro hok
    | arrive k => exact step_roundBefore h hok hstep
  · exact inv_new factories callbacks

/-! ## A repetition across the wrap -/

/-- `n` messages, each arriving before the next is sent. -/
def inOrder (m : Msg) : Nat → List (Event Msg)
  | 0 => []
  | n + 1 => inOrder m n ++ [.send m, .arrive n]

theorem takeContiguous_nil (factories : Factories Msg) (next : Nat) :
    takeContiguous factories [] next = ([], [], next) :=
  takeContiguous_waiting (by simp)

/-- The only envelope of the ring is taken when it is the next one. -/
theorem takeContiguous_next {factories : Factories Msg} (h : e.unpacked = true) :
    takeContiguous factories [e] e.sequence =
      ([e], [], (e.sequence + 1) % seqModulus) := by
  have hsome : removeSequence e.sequence [e] = some (e, []) := by simp [removeSequence]
  rw [takeContiguous.eq_def]
  split
  · simp_all
  · rename_i e' rest hsome'
    obtain ⟨rfl, rfl⟩ : e' = e ∧ rest = [] := by simp_all
    simp [h, takeContiguous_nil]

/-- A message is handed over at once when nothing is outstanding. -/
theorem receive_next {m object : Msg} (h : Inv p) (hnone : p.receiver.rxRing = [])
    (hm : MessageBase.msgtype m ≠ 0)
    (hobject : received p.receiver.messageFactories m = some object) :
    ∃ next seen, receive p.receiver (frame m p.delivered.length) =
      ({ p.receiver with nextRxSequence := next }, [(object, seen)]) := by
  obtain ⟨e, he⟩ : ∃ e, envelopeOf p.receiver.messageFactories m p.delivered.length = some e := by
    simp [envelopeOf, hobject]
  obtain ⟨hnum, hunpacked, hmessage⟩ := envelopeOf_some he
  have hvalid : invalidSequence p.receiver.nextRxSequence
      (p.delivered.length % seqModulus) = false := by
    rw [h.agrees.next_eq]
    exact invalidSequence_window (Nat.le_refl _) (by simp [windowMax])
  have hnext : p.receiver.nextRxSequence = e.sequence := by rw [h.agrees.next_eq, hnum]
  refine ⟨(e.sequence + 1) % seqModulus, offer p.receiver.messageCallbacks object, ?_⟩
  rw [receive_known hm he, hvalid]
  simp [hnone, emplaceEnvelope, hnext, takeContiguous_next hunpacked, hmessage, hobject]

/-- After `n` messages in order, `n` messages were delivered and the ring is
empty. -/
theorem exec_inOrder (factories : Factories Msg) (callbacks : List (Msg → Bool)) {m object : Msg}
    (hm : MessageBase.msgtype m ≠ 0) (hobject : received factories m = some object) (n : Nat) :
    ∃ p, exec step (Peers.new factories callbacks) (inOrder m n) = some p ∧ Inv p ∧
      p.receiver.rxRing = [] ∧ p.sent.length = n ∧ p.delivered.length = n ∧
      p.receiver.messageFactories = factories := by
  induction n with
  | zero => exact ⟨_, rfl, inv_new factories callbacks, rfl, rfl, rfl, rfl⟩
  | succ n ih =>
      obtain ⟨p, hrun, hinv, hring, hsent, hdelivered, hfactories⟩ := ih
      have hwindow : p.sent.length < p.delivered.length + windowMax := by
        simp only [windowMax]
        omega
      have hinv' := hinv.send hwindow hm
      obtain ⟨next, seen, hreceive⟩ :=
        receive_next hinv' hring hm (by rw [← hobject, ← hfactories])
      simp only [hdelivered] at hreceive
      have hstep : exec step p [.send m, .arrive n] = some
          { sent := p.sent ++ [m]
            delivered := p.delivered ++ [object]
            receiver := { p.receiver with nextRxSequence := next } } := by
        have hget : (p.sent ++ [m])[n]? = some m := by simp [← hsent]
        have hopen : p.sent.length < n + windowMax := hdelivered ▸ hwindow
        simp [exec, step, hopen, hm, hget, hdelivered, hreceive]
      have hdone := hinv'.arrive (k := n) (m := m) (by simp [← hsent]) (by simp [hdelivered])
      simp only [hreceive] at hdone
      refine ⟨_, by rw [inOrder, exec_append_of_eq hrun]; exact hstep, hdone, hring, ?_, ?_,
        hfactories⟩
      · simp [hsent]
      · simp [hdelivered]

/-- A message type without a payload. -/
inductive Beacon
  | beacon
  deriving DecidableEq, Repr

instance : MessageBase Beacon where
  msgtype _ := 1
  msgtype_lt _ := by decide
  pack _ := []
  unpack message _ := message

/-- After 65536 messages delivered in order, a repetition of the last one
stays in the ring. -/
theorem exactlyOnce_false_at_wrap :
    ¬ Always step ExactlyOnce (Peers.new (fun _ => some Beacon.beacon) [])
      (inOrder Beacon.beacon 65536 ++ [.arrive 65535]) := by
  intro halways
  obtain ⟨p, hrun, hinv, -, hsent, hdelivered, -⟩ :=
    exec_inOrder (fun _ => some Beacon.beacon) [] (m := .beacon) (by decide) rfl 65536
  obtain ⟨p', hstep⟩ : ∃ p', step p (.arrive 65535) = some p' := by
    have hlt : 65535 < p.sent.length := by omega
    simp [step, List.getElem?_eq_getElem hlt, hdelivered, windowMax]
  have hround : ¬ SameRound p (.arrive 65535) := by
    simp [SameRound, hdelivered, seqModulus_eq]
  apply step_roundBefore hinv hround hstep
  apply halways _ p' (List.prefix_refl _)
  rw [exec_append_of_eq hrun]
  simp [exec, hstep]

end Reticulum.Channel
