import Reticulum.Interfaces.Senders

/-!
# Packets over a stream

The TCP interface writes frames to a connection that may break anywhere, and the reads at the
other end may be cut anywhere. What is handed over there are packets that were given here, in
order and once each, and all those that `process_outgoing` returned `Ok` for, once the bytes
are in (`packets_arrive`).

## Implementation notes

The TCP loop starts each connection with an empty buffer. The `frame_buffer` of Backbone outlives a
connection: the frame that an earlier one broke off ends at the first flag of the next, and may be
handed over then.
-/

namespace Reticulum.Interfaces

/-- What a reader with a buffer hands over of the bytes that have come in is at most one packet
that the buffer began, and then was given on the connection, in order, and it is all that was
promised once they all have. -/
def Connection.Arrives (receive : Bytes → Bytes → List Bytes × Bytes) (hwMtu ifacSize : Nat)
    (buffer : Bytes) (c : Connection) : Prop :=
  (∀ packet ∈ c.given, Carries hwMtu ifacSize packet) →
    ∀ reads : List Bytes, (∀ data ∈ reads, data ≠ []) → reads.flatten <+: c.wire →
      ∃ early handed, (Emit.run receive buffer reads).1 = early ++ handed ∧ early.length ≤ 1 ∧
        (buffer = [] → early = []) ∧ handed.Sublist c.given ∧
        (reads.flatten = c.wire → c.promised.Sublist handed)

/-- What is in the buffer of a reader after it has read these connections, each as far as it came. -/
inductive Reads (receive : Bytes → Bytes → List Bytes × Bytes) : List Connection → Bytes → Prop
  | none : Reads receive [] []
  | next {before : List Connection} {buffer : Bytes} {c : Connection} {reads : List Bytes}
      (earlier : Reads receive before buffer) (nonempty : ∀ data ∈ reads, data ≠ [])
      (arrived : reads.flatten <+: c.wire) :
      Reads receive (before ++ [c]) (Emit.run receive buffer reads).2

section Recovering

variable {r : Framing.Reader UInt8 Bytes} {unescape : Bytes → Bytes} {hwMtu ifacSize : Nat}
  {c : Connection} {reads packets : List Bytes}

/-- The bytes of a connection are the beginning of frames that were given. -/
theorem exists_given (h : c.Whole Hdlc.frame) :
    ∃ packets : List Bytes, packets.Sublist c.given ∧ c.wire <+: packets.flatMap Hdlc.frame := by
  obtain ⟨sent, cut, hpromised, hsent, hwire, rfl | ⟨packet, hpacket, hstarts⟩⟩ := h
  · exact ⟨sent, hsent, by rw [hwire, List.append_nil]⟩
  · refine ⟨sent ++ [packet], hpacket, ?_⟩
    rw [hwire, List.flatMap_append, List.flatMap_singleton]
    exact (List.prefix_append_right_inj _).mpr hstarts

section

variable (h : Recovering r unescape hwMtu ifacSize)

include h

/-- A reader that starts with an empty buffer hands over packets of the connection. -/
theorem Recovering.handed (hwhole : c.Whole Hdlc.frame)
    (hgiven : ∀ packet ∈ c.given, Carries hwMtu ifacSize packet)
    (hreads : reads.flatten <+: c.wire) :
    (Emit.run r.receive [] reads).1.Sublist c.given ∧
      (reads.flatten = c.wire → c.promised.Sublist (Emit.run r.receive [] reads).1) := by
  obtain ⟨packets, hpackets, hstream⟩ := exists_given hwhole
  obtain ⟨sent, cut, hpromised, hsent, hwire, -⟩ := hwhole
  refine ⟨?_, fun hall => ?_⟩
  · -- the frames that were begun are completed by one more read
    obtain ⟨extra, hextra⟩ := hreads.trans hstream
    have hrecovers : Recovers r.receive hwMtu [] packets (reads ++ [extra]) :=
      h.recovers (fun packet hpacket => hgiven packet (hpackets.subset hpacket))
        (by simpa using hextra)
    have hexact := hrecovers.2.1 rfl
    rw [Emit.run_append] at hexact
    exact List.IsPrefix.sublist ⟨_, hexact⟩ |>.trans hpackets
  · have hprefix := Framing.Reader.prefix_receiveAll h.keeps h.nothing h.clean
      (h.stays fun packet hpacket => hgiven packet (hsent.subset hpacket))
      (hall.trans (h.framed sent ▸ hwire))
    rw [h.said fun packet hpacket => hgiven packet (hsent.subset hpacket)] at hprefix
    exact hpromised.trans hprefix.sublist

/-- Every connection that carries a byte starts with a flag, which ends what was left before. -/
theorem Recovering.run_leftOver (hwhole : c.Whole Hdlc.frame) {buffer : Bytes}
    (hbuffer : Framing.Reader.LeftOver r.flag buffer) (hnonempty : ∀ data ∈ reads, data ≠ [])
    (hreads : reads.flatten <+: c.wire) :
    reads = [] ∨ ∃ early, early.length ≤ 1 ∧ (buffer = [] → early = []) ∧
      Emit.run r.receive buffer reads =
        (early ++ (Emit.run r.receive [] reads).1, (Emit.run r.receive [] reads).2) := by
  obtain ⟨packets, -, hstream⟩ := exists_given hwhole
  cases hflat : reads.flatten with
  | nil =>
      refine .inl (List.eq_nil_iff_forall_not_mem.mpr fun data hdata => hnonempty data hdata ?_)
      exact List.flatten_eq_nil_iff.mp hflat data hdata
  | cons b bytes =>
      have hfirst := hreads.trans hstream
      rw [hflat] at hfirst
      cases packets with
      | nil => cases List.prefix_nil.mp hfirst
      | cons packet packets =>
          obtain ⟨rfl, -⟩ := List.cons_prefix_cons.mp hfirst
          exact .inr (Framing.Reader.receiveAll_leftOver h.keeps hbuffer (h.flag ▸ hflat))

/-- A reader of connections is left with the beginning of a frame. -/
theorem Recovering.leftOver {before : List Connection}
    {buffer : Bytes} (hwhole : ∀ c ∈ before, c.Whole Hdlc.frame)
    (hgiven : ∀ c ∈ before, ∀ packet ∈ c.given, Carries hwMtu ifacSize packet)
    (hreads : Reads r.receive before buffer) : Framing.Reader.LeftOver r.flag buffer := by
  induction hreads with
  | none => exact ⟨.outside [], .inl rfl, List.not_mem_nil, rfl⟩
  | @next before buffer c reads earlier nonempty arrived ih =>
      have hbuffer := ih (fun c hc => hwhole c (List.mem_append_left _ hc))
        fun c hc => hgiven c (List.mem_append_left _ hc)
      have hc : c ∈ before ++ [c] := List.mem_append_right _ (List.mem_singleton_self c)
      obtain rfl | ⟨early, -, -, hrun⟩ := h.run_leftOver (hwhole c hc) hbuffer nonempty arrived
      · exact hbuffer
      · obtain ⟨packets, hpackets, hstream⟩ := exists_given (hwhole c hc)
        rw [hrun]
        exact Framing.Reader.leftOver_receiveAll h.keeps h.nothing h.clean
          (h.stays fun packet hpacket => hgiven c hc packet (hpackets.subset hpacket))
          (h.framed packets ▸ arrived.trans hstream)

theorem Recovering.arrives (hwhole : c.Whole Hdlc.frame)
    {buffer : Bytes} (hbuffer : Framing.Reader.LeftOver r.flag buffer) :
    c.Arrives r.receive hwMtu ifacSize buffer := by
  intro hgiven reads hnonempty hreads
  obtain ⟨hhanded, hall⟩ := h.handed hwhole hgiven hreads
  obtain rfl | ⟨early, hshort, hnone, hrun⟩ := h.run_leftOver hwhole hbuffer hnonempty hreads
  · exact ⟨[], [], rfl, Nat.zero_le _, fun _ => rfl, List.nil_sublist _, hall⟩
  · exact ⟨early, _, congrArg Prod.fst hrun, hshort, hnone, hhanded, hall⟩

end

end Recovering

theorem Backbone.reads_reader {base : Base} {before : List Connection} {buffer : Bytes}
    (h : Reads (Backbone.receive base) before buffer) :
    Reads (Backbone.reader base).receive before buffer := by
  induction h with
  | none => exact .none
  | next _ nonempty arrived ih =>
      rw [Backbone.run_receive base _ nonempty]
      exact .next ih nonempty arrived

/-- In every run of a TCP interface, whatever its sockets do with its writes and wherever its
connections break: the packets of each connection arrive at a TCP interface, and at a Backbone
interface with whatever the connections before have left in its buffer. -/
theorem packets_arrive (base : Base) (connected : Bool) (events : List (SendEvent (List Write))) :
    Runs.Always (fun s e => some (Tcp.send false s e))
      (fun s => ∀ before c after, s.closed ++ s.socket.toList = before ++ c :: after →
        c.Arrives (Tcp.readHdlc base) (Tcp.hwMtu base) base.ifacSize [] ∧
        ∀ buffer, Reads (Backbone.receive base) before buffer →
          (∀ b ∈ before, ∀ packet ∈ b.given, Carries (Backbone.hwMtu base) base.ifacSize packet) →
          c.Arrives (Backbone.receive base) (Backbone.hwMtu base) base.ifacSize buffer)
      (Sender.start connected) events := by
  intro done s _ hrun before c after hconnections
  have hkept : s.Kept (Tcp.frame false) :=
    Runs.invariant_of_step (P := Sender.Kept (Tcp.frame false))
      (fun s e s' hs hstep => Option.some.inj hstep ▸ Tcp.kept_send false hs e)
      (Sender.kept_start connected) hrun
  have hwhole : ∀ b ∈ before ++ c :: after, b.Whole Hdlc.frame := by
    intro b hb
    rw [← hconnections] at hb
    obtain hclosed | hopen := List.mem_append.mp hb
    · exact hkept.closed b hclosed
    · exact (hkept.socket b (Option.mem_toList.mp hopen)).whole
  have hc := hwhole c (List.mem_append_right _ List.mem_cons_self)
  refine ⟨(Tcp.recovering base).arrives hc ⟨.outside [], .inl rfl, List.not_mem_nil, rfl⟩, ?_⟩
  intro buffer hreads hbefore hgiven reads hnonempty hreading
  have hbuffer := (Backbone.recovering base).leftOver
    (fun b hb => hwhole b (List.mem_append_left _ hb)) hbefore
    (Backbone.reads_reader hreads)
  rw [Backbone.run_receive base buffer hnonempty]
  exact (Backbone.recovering base).arrives hc hbuffer hgiven reads hnonempty hreading

end Reticulum.Interfaces
