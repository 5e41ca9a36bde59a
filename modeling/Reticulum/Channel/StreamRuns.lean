import Mathlib.Data.Nat.Bitwise
import Reticulum.Channel.Stream

/-!
# What the readers of a channel collect

The bytes in flight for a reader are those of the envelopes whose id agrees
with its own in the low 14 bits. Together with what it has collected they are
what its writer accepted, as long as no writer with a larger id sends bytes.
-/

namespace Reticulum.Channel

open Runs

/-- An id is read back as it was written when it fits into 14 bits. -/
theorem and_streamIdMax_eq_self_iff (s : UInt16) :
    s &&& StreamDataMessage.streamIdMax = s ↔ s ≤ StreamDataMessage.streamIdMax := by
  have hmask : s.toNat &&& 16383 = s.toNat % 16384 := Nat.and_two_pow_sub_one_eq_mod _ 14
  rw [← UInt16.toNat_inj, UInt16.le_iff_toNat_le]
  simp only [StreamDataMessage.streamIdMax, UInt16.toNat_and, UInt16.reduceToNat, hmask]
  omega

variable [Bz2]

namespace InFlight

/-- The envelope holds a message of the writer that carries these bytes. -/
def Carries (e : InFlight) : Prop :=
  ∃ (m : StreamDataMessage) (sequence : Nat), sequence < seqModulus ∧
    Envelope.pack (some m) sequence = .ok e.raw ∧ m.streamId = e.writer ∧
    m.carried = e.data ∧ 2 + m.data.length < 65536

/-- The stream that the envelope is read as. -/
def target (e : InFlight) : UInt16 := e.writer &&& StreamDataMessage.streamIdMax

/-- The bytes that the envelope brings to the reader of a stream. -/
def bytesFor (s : UInt16) (e : InFlight) : Bytes := if e.target = s then e.data else []

/-- The writer, if its bytes go to the reader of a stream. -/
def originFor (s : UInt16) (e : InFlight) : List UInt16 :=
  if e.bytesFor s = [] then [] else [e.writer]

end InFlight

variable {w : RawChannelWriter}

namespace Streams

/-- What an envelope in flight is unpacked to, once a reader has registered the
message type. -/
theorem unpack_of_carries {p : Streams} {e : InFlight} (h : e.Carries) (hp : p.callbacks ≠ []) :
    ∃ (envelope : Envelope StreamDataMessage) (m : StreamDataMessage),
      (Envelope.ofRaw e.raw).unpack p.factories = .ok envelope ∧
      envelope.message = some m ∧ m.streamId = e.target ∧ m.data = e.data := by
  obtain ⟨m, sequence, hsequence, hpack, hwriter, hdata, hlength⟩ := h
  have hfull : m.pack.take (m.pack.length % 65536) = m.pack := by
    rw [m.length_pack, Nat.mod_eq_of_lt hlength, ← m.length_pack, List.take_length]
  have hreceived : received p.factories m = some { m with
      streamId := m.streamId &&& StreamDataMessage.streamIdMax
      data := m.carried } := by
    have htype : p.factories (MessageBase.msgtype m) = some StreamDataMessage.default :=
      if_pos ⟨rfl, hp⟩
    rw [received, htype, ← StreamDataMessage.unpack_pack StreamDataMessage.default m]
    exact congrArg some (congrArg _ hfull)
  have hunpack : ((Envelope.ofRaw e.raw : Envelope StreamDataMessage).unpack
      p.factories).toOption = _ := unpack_pack hsequence hpack
  rw [hreceived] at hunpack
  cases hresult : (Envelope.ofRaw e.raw : Envelope StreamDataMessage).unpack p.factories with
  | error err => simp [hresult, Except.toOption] at hunpack
  | ok envelope =>
      rw [hresult] at hunpack
      obtain rfl := Option.some.inj hunpack
      refine ⟨_, _, rfl, rfl, ?_, hdata⟩
      rw [InFlight.target, hwriter]

/-- Handing over an envelope changes the reader it is for, and only if there is
one. -/
theorem hand_eq {p : Streams} {e : InFlight} (h : e.Carries) :
    e.target ∉ p.callbacks ∧ p.hand e = p ∨
      e.target ∈ p.callbacks ∧ ∃ m : StreamDataMessage, m.data = e.data ∧
        p.hand e = { p with
          readers := Function.update p.readers e.target ((p.readers e.target).handle m)
          origins := Function.update p.origins e.target
            (p.origins e.target ++ if e.data = [] then [] else [e.writer]) } := by
  by_cases hp : p.callbacks = []
  · refine .inl ⟨by simp [hp], ?_⟩
    obtain ⟨m, sequence, hsequence, hpack, -⟩ := h
    have hunpack : ((Envelope.ofRaw e.raw : Envelope StreamDataMessage).unpack
        p.factories).toOption = _ := unpack_pack hsequence hpack
    simp only [hand]
    split
    · rfl
    · rename_i envelope hok
      simp [hok, received, factories, hp, Except.toOption] at hunpack
  · obtain ⟨envelope, m, hok, hmessage, hid, hdata⟩ := unpack_of_carries h hp
    simp only [hand, hok, hmessage, hid, hdata]
    cases hfind : p.callbacks.find? fun s => e.target == s with
    | none =>
        refine .inl ⟨fun hmem => ?_, rfl⟩
        simpa using List.find?_eq_none.mp hfind e.target hmem
    | some s =>
        obtain rfl : e.target = s := by simpa using List.find?_some hfind
        exact .inr ⟨List.mem_of_find?_eq_some hfind, m, hdata, rfl⟩

section Hand

variable {p : Streams} {e : InFlight} (h : e.Carries) {s : UInt16} (hs : s ∈ p.callbacks)
include h

theorem hand_callbacks : (p.hand e).callbacks = p.callbacks := by
  obtain ⟨-, hp⟩ | ⟨-, m, -, hp⟩ := hand_eq (p := p) h <;> rw [hp]

theorem hand_frame : (p.hand e).sender = p.sender ∧ (p.hand e).writers = p.writers ∧
    (p.hand e).inFlight = p.inFlight ∧ (p.hand e).accepted = p.accepted := by
  obtain ⟨-, hp⟩ | ⟨-, m, -, hp⟩ := hand_eq (p := p) h <;> simp [hp]

include hs

theorem hand_collected : (p.hand e).collected s = p.collected s ++ e.bytesFor s := by
  obtain ⟨hnone, hp⟩ | ⟨-, m, hm, hp⟩ := hand_eq (p := p) h
  · have hne : e.target ≠ s := fun heq => hnone (heq ▸ hs)
    rw [hp, InFlight.bytesFor, if_neg hne, List.append_nil]
  · rw [hp]
    by_cases heq : e.target = s
    · subst heq
      simp [collected, InFlight.bytesFor, RawChannelReader.handle, hm]
    · simp [collected, InFlight.bytesFor, heq, Function.update_of_ne (Ne.symm heq)]

theorem hand_origins : (p.hand e).origins s = p.origins s ++ e.originFor s := by
  obtain ⟨hnone, hp⟩ | ⟨-, m, hm, hp⟩ := hand_eq (p := p) h
  · have hne : e.target ≠ s := fun heq => hnone (heq ▸ hs)
    simp [hp, InFlight.originFor, InFlight.bytesFor, hne]
  · rw [hp]
    by_cases heq : e.target = s
    · subst heq
      simp [InFlight.originFor, InFlight.bytesFor]
    · simp [InFlight.originFor, InFlight.bytesFor, heq, Function.update_of_ne (Ne.symm heq)]

end Hand

section Settled

variable {s : UInt16} {es : List InFlight} (hes : ∀ e ∈ es, e.Carries)
include hes

theorem foldl_hand {p : Streams} (hs : s ∈ p.callbacks) :
    (es.foldl hand p).collected s = p.collected s ++ es.flatMap (InFlight.bytesFor s) ∧
      (es.foldl hand p).origins s = p.origins s ++ es.flatMap (InFlight.originFor s) := by
  induction es generalizing p with
  | nil => simp
  | cons e es ih =>
      have he : e.Carries := hes e (by simp)
      have hmem : s ∈ (p.hand e).callbacks := (hand_callbacks he).symm ▸ hs
      obtain ⟨hcollected, horigins⟩ := ih (fun e' h' => hes e' (by simp [h'])) hmem
      rw [List.foldl_cons, hcollected, horigins, hand_collected he hs, hand_origins he hs]
      simp

end Settled

/-- What the channel keeps to. The last two fields speak of each reader: the
bytes it has and those on their way to it are what its writer accepted, and
all of them are from that writer. -/
structure Inv (p : Streams) : Prop where
  sequence : p.sender.nextSequence < seqModulus
  writers : ∀ s w, p.writers s = some w →
    w.streamId = s ∧ w.mdu = (RawChannelWriter.new s p.sender.outletMdu).mdu
  carries : ∀ e ∈ p.inFlight, e.Carries
  fits : ∀ raw ∈ p.sender.envelopes, raw.length ≤ p.sender.outletMdu
  bytes : ∀ s ∈ p.callbacks,
    p.collected s ++ p.inFlight.flatMap (InFlight.bytesFor s) = p.accepted s
  origin : ∀ s ∈ p.callbacks,
    ∀ u ∈ p.origins s ++ p.inFlight.flatMap (InFlight.originFor s), u = s

/-- Once everything in flight is delivered, each reader has exactly the bytes
that the writes on its stream accepted, and none from another writer; every
envelope fits the outlet; and a writer with a non-zero `mdu`, which is one over
an outlet of more than 14 bytes, accepts at least one byte of a non-empty
buffer whenever the channel is ready. -/
structure Exact (p : Streams) : Prop where
  bytes : ∀ s ∈ p.callbacks, p.settled.collected s = p.accepted s
  origin : ∀ s ∈ p.callbacks, ∀ u ∈ p.settled.origins s, u = s
  fits : ∀ raw ∈ p.sender.envelopes, raw.length ≤ p.sender.outletMdu
  accepts : ∀ s w, p.writers s = some w → w.mdu ≠ 0 → ∀ buf, buf ≠ [] →
    0 < (w.write p.sender true buf).1
  mdu : ∀ s w, p.writers s = some w → (w.mdu ≠ 0 ↔ 14 < p.sender.outletMdu)

theorem inv_new (outletMdu : Nat) (writers readers : List UInt16) :
    (new outletMdu writers readers).Inv where
  sequence := show 0 < seqModulus by decide
  writers s w h := by
    simp only [new] at h ⊢
    split at h
    · obtain rfl := Option.some.inj h
      exact ⟨rfl, rfl⟩
    · cases h
  carries e h := by simp [new] at h
  fits raw h := by simp [new] at h
  bytes s _ := by simp [new, collected, RawChannelReader.new]
  origin s _ u h := by simp [new] at h

theorem settled_collected {p : Streams} (h : ∀ e ∈ p.inFlight, e.Carries) {s : UInt16}
    (hs : s ∈ p.callbacks) :
    p.settled.collected s = p.collected s ++ p.inFlight.flatMap (InFlight.bytesFor s) :=
  (foldl_hand h (p := { p with inFlight := [] }) hs).1

theorem settled_origins {p : Streams} (h : ∀ e ∈ p.inFlight, e.Carries) {s : UInt16}
    (hs : s ∈ p.callbacks) :
    p.settled.origins s = p.origins s ++ p.inFlight.flatMap (InFlight.originFor s) :=
  (foldl_hand h (p := { p with inFlight := [] }) hs).2

theorem Inv.accepts {p : Streams} (h : p.Inv) {s : UInt16} (hw : p.writers s = some w)
    (hmdu : w.mdu ≠ 0) {buf : Bytes} (hbuf : buf ≠ []) : 0 < (w.write p.sender true buf).1 := by
  have hle := RawChannelWriter.mdu_new_le s p.sender.outletMdu
  rw [← (h.writers s w hw).2] at hle
  obtain ⟨raw, -, -, -, hwrite⟩ | ⟨hbig, -⟩ := w.write_cases p.sender true buf h.sequence
  · rw [hwrite]
    apply Nat.pos_of_ne_zero
    simp [w.processed_eq_zero_iff, hmdu, hbuf]
  · have hroom := hbig rfl
    omega

theorem Inv.exact {p : Streams} (h : p.Inv) : p.Exact where
  bytes s hs := (settled_collected h.carries hs).trans (h.bytes s hs)
  origin s hs u hu := h.origin s hs u (settled_origins h.carries hs ▸ hu)
  fits := h.fits
  accepts _ _ hw hmdu _ hbuf := h.accepts hw hmdu hbuf
  mdu s w hw := by
    rw [(h.writers s w hw).2]
    exact RawChannelWriter.mdu_new_ne_zero_iff s p.sender.outletMdu

/-- A write either sends an envelope with the bytes it accepts, or accepts
none. -/
theorem put_cases {p : Streams} (h : p.sender.nextSequence < seqModulus) {s : UInt16}
    (hid : w.streamId = s) (hmdu : w.mdu = (RawChannelWriter.new s p.sender.outletMdu).mdu)
    (ready : Bool) (buf : Bytes) :
    (∃ (e : InFlight) (next : Nat), next < seqModulus ∧ e.Carries ∧ e.writer = s ∧
        e.raw.length ≤ p.sender.outletMdu ∧ ready = true ∧
        (e.data = [] ↔ buf = [] ∨ p.sender.outletMdu ≤ 14) ∧
        p.put w ready buf = { p with
          sender := { p.sender with
            nextSequence := next, envelopes := p.sender.envelopes ++ [e.raw] }
          accepted := Function.update p.accepted s (p.accepted s ++ e.data)
          inFlight := p.inFlight ++ [e] }) ∨
      (ready = true → p.sender.outletMdu ≤ 14) ∧ ∃ next, next < seqModulus ∧
        p.put w ready buf = { p with sender := { p.sender with nextSequence := next } } := by
  subst hid
  have hle := RawChannelWriter.mdu_new_le w.streamId p.sender.outletMdu
  have hzero := RawChannelWriter.mdu_new_ne_zero_iff w.streamId p.sender.outletMdu
  have hcap : w.mdu ≤ 0xFFFF - 8 := by
    rw [hmdu]
    simp only [RawChannelWriter.new, Channel.mdu, StreamDataMessage.overhead]
    omega
  rw [← hmdu] at hle hzero
  obtain ⟨raw, hpack, hready, hfits, hwrite⟩ | ⟨hbig, next, hnext, hwrite⟩ :=
    w.write_cases p.sender ready buf h
  · have hpayload := w.length_payload_le buf
    refine .inl ⟨⟨w.streamId, buf.take (w.segment buf).2.1, raw⟩, _,
      Nat.mod_lt (p.sender.nextSequence + 1) (by decide : 0 < seqModulus), ?_, rfl, hfits,
      hready, ?_, ?_⟩
    · refine ⟨w.message buf, p.sender.nextSequence, h, hpack, rfl, w.carried_message buf, ?_⟩
      simp only [RawChannelWriter.message]
      omega
    · have hprocessed := w.processed_eq_zero_iff buf
      simp only [List.take_eq_nil_iff, hprocessed]
      have hmdu0 : w.mdu = 0 ↔ p.sender.outletMdu ≤ 14 := by omega
      rw [hmdu0]
      tauto
    · simp [put, hwrite]
  · refine .inr ⟨fun hready => ?_, next, hnext, ?_⟩
    · have hroom := hbig hready
      omega
    · simp [put, hwrite]

/-- A write of bytes that reach the wrong reader, or miss their own: the id
does not fit into 14 bits, and it has a reader itself or its low 14 bits have
one. -/
def Misdirected (p : Streams) (s : UInt16) (ready : Bool) (buf : Bytes) : Prop :=
  ready = true ∧ buf ≠ [] ∧ 14 < p.sender.outletMdu ∧ StreamDataMessage.streamIdMax < s ∧
    (s ∈ p.callbacks ∨ s &&& StreamDataMessage.streamIdMax ∈ p.callbacks)

/-- The writes that go where they should. -/
def Fitting (p : Streams) : StreamEvent → Prop
  | .write s ready buf => ¬ p.Misdirected s ready buf
  | _ => True

omit [Bz2] in
/-- The bytes of a write that is not misdirected go to the reader of its stream
and to no other. -/
theorem bytesFor_eq {p : Streams} {e : InFlight} {ready : Bool} {buf : Bytes}
    (hok : ¬ p.Misdirected e.writer ready buf) (hready : ready = true)
    (hempty : e.data = [] ↔ buf = [] ∨ p.sender.outletMdu ≤ 14) {t : UInt16}
    (ht : t ∈ p.callbacks) :
    e.bytesFor t = if e.writer = t then e.data else [] := by
  by_cases hdata : e.data = []
  · simp [InFlight.bytesFor, hdata]
  · by_cases hid : e.writer ≤ StreamDataMessage.streamIdMax
    · have htarget : e.target = e.writer := (and_streamIdMax_eq_self_iff e.writer).mpr hid
      rw [InFlight.bytesFor, htarget]
    · rw [hempty, not_or, not_le] at hdata
      have hnone : ¬ (e.writer ∈ p.callbacks ∨ e.target ∈ p.callbacks) := fun hmem =>
        hok ⟨hready, hdata.1, hdata.2, UInt16.not_le.mp hid, hmem⟩
      have hwriter : e.writer ≠ t := fun heq => hnone (.inl (heq ▸ ht))
      have htarget : e.target ≠ t := fun heq => hnone (.inr (heq ▸ ht))
      rw [InFlight.bytesFor, if_neg htarget, if_neg hwriter]

theorem inv_put {p : Streams} (h : p.Inv) {s : UInt16} (hid : w.streamId = s)
    (hmdu : w.mdu = (RawChannelWriter.new s p.sender.outletMdu).mdu) {ready : Bool} {buf : Bytes}
    (hok : ¬ p.Misdirected s ready buf) : (p.put w ready buf).Inv := by
  obtain ⟨e, next, hnext, hcarries, rfl, hfits, hready, hempty, hput⟩ |
    ⟨-, next, hnext, hput⟩ := put_cases h.sequence hid hmdu ready buf
  · rw [hput]
    refine ⟨hnext, h.writers, ?_, ?_, ?_, ?_⟩
    · intro e' he'
      obtain he' | he' := List.mem_append.mp he'
      · exact h.carries e' he'
      · exact List.mem_singleton.mp he' ▸ hcarries
    · intro raw hraw
      obtain hraw | hraw := List.mem_append.mp hraw
      · exact h.fits raw hraw
      · exact List.mem_singleton.mp hraw ▸ hfits
    · intro t ht
      have hbytes := h.bytes t ht
      rw [List.flatMap_append, List.flatMap_singleton, bytesFor_eq hok hready hempty ht]
      change p.collected t ++ _ = _
      rw [← List.append_assoc, hbytes]
      by_cases heq : e.writer = t
      · subst heq
        simp
      · simp [heq, Function.update_of_ne (Ne.symm heq)]
    · intro t ht u hu
      rw [List.flatMap_append, List.flatMap_singleton, ← List.append_assoc] at hu
      obtain hu | hu := List.mem_append.mp hu
      · exact h.origin t ht u hu
      · rw [InFlight.originFor, bytesFor_eq hok hready hempty ht] at hu
        by_cases heq : e.writer = t
        · by_cases hdata : e.data = []
          · simp [hdata] at hu
          · simp only [heq, if_true, hdata, if_false, List.mem_singleton] at hu
            exact hu
        · simp [heq] at hu
  · rw [hput]
    exact ⟨hnext, h.writers, h.carries, h.fits, h.bytes, h.origin⟩

/-- A misdirected write leaves a reader with too many or too few bytes. -/
theorem not_exact_put {p : Streams} (h : p.Inv) {s : UInt16} (hid : w.streamId = s)
    (hmdu : w.mdu = (RawChannelWriter.new s p.sender.outletMdu).mdu) {ready : Bool} {buf : Bytes}
    (hbad : p.Misdirected s ready buf) : ¬ (p.put w ready buf).Exact := by
  obtain ⟨hready, hbuf, hroom, hlarge, hreader⟩ := hbad
  obtain ⟨e, next, -, hcarries, rfl, -, -, hempty, hput⟩ | ⟨hsmall, -⟩ :=
    put_cases h.sequence hid hmdu ready buf
  · have hdata : e.data ≠ [] := by
      rw [Ne, hempty, not_or, not_le]
      exact ⟨hbuf, hroom⟩
    have htarget : e.target ≠ e.writer := by
      rw [InFlight.target, Ne, and_streamIdMax_eq_self_iff]
      exact UInt16.not_le.mpr hlarge
    have hall : ∀ e' ∈ p.inFlight ++ [e], e'.Carries := by
      intro e' he'
      obtain he' | he' := List.mem_append.mp he'
      · exact h.carries e' he'
      · exact List.mem_singleton.mp he' ▸ hcarries
    have hcollected : ∀ t ∈ p.callbacks,
        (p.put w ready buf).settled.collected t = p.accepted t ++ e.bytesFor t := by
      intro t ht
      rw [hput, settled_collected hall (by exact ht), List.flatMap_append,
        List.flatMap_singleton, ← List.append_assoc, ← h.bytes t ht]
      rfl
    have haccepted : (p.put w ready buf).accepted =
        Function.update p.accepted e.writer (p.accepted e.writer ++ e.data) := by
      rw [hput]
    have hcallbacks : (p.put w ready buf).callbacks = p.callbacks := by
      rw [hput]
    intro hexact
    obtain hown | hother := hreader
    · have heq := hexact.bytes e.writer (hcallbacks ▸ hown)
      rw [hcollected _ hown, haccepted, InFlight.bytesFor, if_neg htarget,
        Function.update_self, List.append_nil] at heq
      exact hdata (List.append_right_eq_self.mp heq.symm)
    · have heq := hexact.bytes e.target (hcallbacks ▸ hother)
      rw [hcollected e.target hother, haccepted, InFlight.bytesFor, if_pos rfl,
        Function.update_of_ne htarget] at heq
      exact hdata (List.append_right_eq_self.mp heq)
  · exact absurd (hsmall hready) (not_le.mpr hroom)

theorem inv_hand {p : Streams} {e : InFlight} {rest : List InFlight} (h : p.Inv)
    (hflight : p.inFlight = e :: rest) : ({ p with inFlight := rest }.hand e).Inv := by
  have he : e.Carries := h.carries e (by simp [hflight])
  have hrest : ∀ e' ∈ rest, e'.Carries := fun e' h' => h.carries e' (by simp [hflight, h'])
  have hcallbacks := hand_callbacks (p := { p with inFlight := rest }) he
  have hbytes := h.bytes
  have horigin := h.origin
  rw [hflight] at hbytes horigin
  obtain ⟨hsender, hwriters, hin, haccepted⟩ :=
    hand_frame (p := { p with inFlight := rest }) he
  constructor
  · rw [hsender]
    exact h.sequence
  · rw [hsender, hwriters]
    exact h.writers
  · rw [hin]
    exact hrest
  · rw [hsender]
    exact h.fits
  · intro s hs
    rw [hcallbacks] at hs
    rw [hand_collected he hs, hin, haccepted, List.append_assoc]
    exact hbytes s hs
  · intro s hs
    rw [hcallbacks] at hs
    rw [hand_origins he hs, hin, List.append_assoc]
    exact horigin s hs

theorem inv_read {p : Streams} (h : p.Inv) (s : UInt16) (length : Nat) :
    Inv { p with
      readers := Function.update p.readers s ((p.readers s).read length).2
      taken := Function.update p.taken s (p.taken s ++ ((p.readers s).read length).1) } := by
  refine ⟨h.sequence, h.writers, h.carries, h.fits, ?_, h.origin⟩
  intro t ht
  rw [← h.bytes t ht]
  congr 1
  by_cases heq : t = s
  · subst heq
    simp [collected, RawChannelReader.read]
  · simp [collected, Function.update_of_ne heq]

/-- A `close` writes an empty buffer, whatever its id. -/
theorem inv_close {p : Streams} (h : p.Inv) {s : UInt16} (hw : p.writers s = some w)
    (ready : Bool) :
    Inv ({ p with writers := Function.update p.writers s (some { w with eof := true }) }.put
      { w with eof := true } ready []) := by
  obtain ⟨hid, hmdu⟩ := h.writers s w hw
  refine inv_put (s := s) ?_ (by exact hid) (by exact hmdu) (fun hbad => hbad.2.1 rfl)
  refine ⟨h.sequence, ?_, h.carries, h.fits, h.bytes, h.origin⟩
  intro t w' hw'
  dsimp only at hw'
  by_cases heq : t = s
  · subst heq
    rw [Function.update_self] at hw'
    obtain rfl := Option.some.inj hw'
    exact ⟨hid, hmdu⟩
  · rw [Function.update_of_ne heq] at hw'
    exact h.writers t w' hw'

theorem inv_step {p p' : Streams} {a : StreamEvent} (h : p.Inv) (hok : p.Fitting a)
    (hstep : p.step a = some p') : p'.Inv := by
  cases a with
  | write s ready buf =>
      obtain ⟨w, hw, rfl⟩ := Option.map_eq_some_iff.mp hstep
      obtain ⟨hid, hmdu⟩ := h.writers s w hw
      exact inv_put h hid hmdu hok
  | close s ready =>
      obtain ⟨w, hw, rfl⟩ := Option.map_eq_some_iff.mp hstep
      exact inv_close h hw ready
  | deliver =>
      simp only [step] at hstep
      split at hstep
      · cases hstep
      · rename_i e rest hflight
        obtain rfl := Option.some.inj hstep
        exact inv_hand h hflight
  | read s length =>
      simp only [step] at hstep
      split at hstep
      · obtain rfl := Option.some.inj hstep
        exact inv_read h s length
      · cases hstep

theorem not_exact_step {p p' : Streams} {a : StreamEvent} (h : p.Inv) (hbad : ¬ p.Fitting a)
    (hstep : p.step a = some p') : ¬ p'.Exact := by
  cases a with
  | write s ready buf =>
      obtain ⟨w, hw, rfl⟩ := Option.map_eq_some_iff.mp hstep
      obtain ⟨hid, hmdu⟩ := h.writers s w hw
      exact not_exact_put h hid hmdu (not_not.mp hbad)
  | close s ready => exact absurd True.intro hbad
  | deliver => exact absurd True.intro hbad
  | read s length => exact absurd True.intro hbad

/-- In every interleaving of writes, closes, deliveries and reads, the readers
collect exactly what was written for them if and only if no write is
misdirected. -/
theorem streams_exact_iff (outletMdu : Nat) (writers readers : List UInt16)
    (events : List StreamEvent) :
    Always step Exact (new outletMdu writers readers) events ↔
      Meets step Fitting (new outletMdu writers readers) events :=
  always_iff_meets (fun _ h => h.exact) (fun _ _ _ h hok hstep => inv_step h hok hstep)
    (fun _ _ _ h hbad hstep => not_exact_step h hbad hstep)
    (inv_new outletMdu writers readers) events

/-- A compressor that finds nothing to compress. -/
abbrev storing : Bz2 where
  compressBytes _ := none
  decompressBytes _ := none
  decompress_compress h := by cases h

omit [Bz2] in
/-- The writer of stream 0x4001 sends to the reader of stream 1. -/
theorem streams_exact_false :
    ¬ ∀ (_ : Bz2) (outletMdu : Nat) (writers readers : List UInt16)
        (events : List StreamEvent),
      Always step Exact (new outletMdu writers readers) events := by
  intro hall
  have hwrite : (new 100 [0x4001] [1]).Misdirected 0x4001 true [7] :=
    ⟨rfl, by decide, by decide, by decide, by decide⟩
  have hexact := hall storing 100 [0x4001] [1] [.write 0x4001 true [7]] _ _
    List.prefix_rfl rfl
  let _ : Bz2 := storing
  exact not_exact_step (a := .write 0x4001 true [7]) (inv_new 100 [0x4001] [1])
    (not_not.mpr hwrite) rfl hexact

end Streams

end Reticulum.Channel
