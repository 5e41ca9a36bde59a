import Reticulum.Interfaces.Hdlc
import Reticulum.Lib.Pairing

/-!
# HDLC over local, serial and pipe interfaces

These interfaces take every second flag for a closing one. A flag too many before the
first frame, or a frame that was cut off, shifts the pairs for the rest of the
connection: `resynchronise_iff` says exactly when all packets but the first are handed
over.

## Implementation notes

`Loop` has the variables of the byte loops of the serial and the pipe interface, which
differ only in whether an empty frame is handed over. A serial loop that finds no byte
looks at how long ago the last one came; that is the event `quiet`.
-/

namespace Reticulum.Interfaces

namespace Local

/-- `base.hw_mtu`, or `MTU`. -/
def hwMtu (base : Base) : Nat := base.hwMtu.getD 500

/-- `drain_frames`, with `discard_overlong_frame_buffer`. -/
def reader (base : Base) : Framing.Reader UInt8 Bytes where
  flag := Hdlc.flag
  decode := acceptFrame Hdlc.unescape (hwMtu base) base.ifacSize
  keepsFlag := false
  dropsBare := fun bufferLen => frameBufferExceeded bufferLen (hwMtu base)
  dropsOpen := fun bufferLen => frameBufferExceeded bufferLen (hwMtu base)

/-- A read and `handle_hdlc`: the frames that are handed over, and the buffer after it. -/
def handleHdlc (base : Base) (frameBuffer data : Bytes) : List Bytes × Bytes :=
  (reader base).receive frameBuffer data

end Local

/-! ## The byte loops -/

/-- The variables of a byte loop. -/
structure Loop where
  inFrame : Bool
  escape : Bool
  dataBuffer : Bytes
  deriving DecidableEq

namespace Loop

/-- The loop starts. -/
def start : Loop := { inFrame := false, escape := false, dataBuffer := [] }

/-- What a byte stands for after an escape. -/
def unescaped (byte : UInt8) : UInt8 :=
  if byte = Hdlc.flag ^^^ Hdlc.escMask then Hdlc.flag
  else if byte = Hdlc.esc ^^^ Hdlc.escMask then Hdlc.esc
  else byte

/-- A byte is read; `handsEmpty` says whether an empty frame is handed over. -/
def readByte (handsEmpty : Bool) (hwMtu : Nat) (s : Loop) (byte : UInt8) : List Bytes × Loop :=
  if s.inFrame && byte == Hdlc.flag then
    (if handsEmpty || !s.dataBuffer.isEmpty then [s.dataBuffer] else [],
      { s with inFrame := false, dataBuffer := [] })
  else if byte == Hdlc.flag then ([], { s with inFrame := true, dataBuffer := [] })
  else if s.inFrame && s.dataBuffer.length < hwMtu then
    if byte == Hdlc.esc then ([], { s with escape := true })
    else
      ([], { s with
        escape := false
        dataBuffer := s.dataBuffer ++ [if s.escape then unescaped byte else byte] })
  else ([], s)

end Loop

namespace Serial

/-- `base.hw_mtu`, or `HW_MTU`. -/
def hwMtu (base : Base) : Nat := base.hwMtu.getD 564

/-- `timeout_ms`. -/
def timeoutMs : Nat := 100

/-- What the loop finds: a byte, or none, so many milliseconds after the last one. -/
inductive Event
  | byte (byte : UInt8)
  | quiet (sinceLast : Nat)

/-- One round of `start_read_loop`. -/
def readLoop (base : Base) (s : Loop) : Event → List Bytes × Loop
  | .byte byte => s.readByte true (hwMtu base) byte
  | .quiet sinceLast =>
      ([], if !s.dataBuffer.isEmpty && timeoutMs < sinceLast then Loop.start else s)

end Serial

namespace Pipe

/-- `base.hw_mtu`, or 1064. -/
def hwMtu (base : Base) : Nat := base.hwMtu.getD 1064

/-- One round of `read_loop`. -/
def readLoop (base : Base) (s : Loop) (byte : UInt8) : List Bytes × Loop :=
  s.readByte false (hwMtu base) byte

end Pipe

/-! ## The law -/

/-- A packet that a byte loop has room for. -/
def Fits (hwMtu : Nat) (packet : Bytes) : Prop :=
  headerMinSize < packet.length ∧ packet.length ≤ hwMtu

/-- All packets but the first are handed over, each as its frame comes in: after the frames of some
first packets those have been handed over, without the very first, behind what came early. -/
def Resynchronises (handed : List Bytes → List Bytes) (packets : List Bytes) : Prop :=
  ∃ early, ∀ received, received <+: packets → received ≠ [] →
    handed received = early ++ received.tail

/-- The frames of packets. -/
def frames (packets : List Bytes) : Bytes := packets.flatMap Hdlc.frame

namespace Local

/-- What was handed over for noise and the frames of some first packets. -/
def handed (base : Base) (noise : Bytes) (reads : List Bytes) (received : List Bytes) :
    List Bytes :=
  (Emit.run (handleHdlc base) [] (Framing.upTo (noise ++ frames received).length reads)).1

/-- When there is a second packet, the flags that wait before it pair up, and no read that ends
right before the closing flag of a later packet than the first leaves too much in the buffer. -/
def InStep (base : Base) (noise : Bytes) (reads : List Bytes) (packets : List Bytes) : Prop :=
  ∀ first rest, packets = first :: rest → rest ≠ [] →
    ((reader base).waiting [] reads (noise ++ frames [first]).length).count Hdlc.flag % 2 = 0 ∧
      ∀ done packet more, rest = done ++ packet :: more →
        Framing.EndsAt reads
            (noise ++ frames (first :: done) ++ Hdlc.flag :: Hdlc.escape packet) →
          (Hdlc.escape packet).length + 1 ≤ 2 * hwMtu base

end Local

namespace Serial

/-- What was handed over for noise and the frames of some first packets. -/
def handed (base : Base) (noise : List Event) (received : List Bytes) : List Bytes :=
  (Emit.run (readLoop base) Loop.start (noise ++ (frames received).map Event.byte)).1

/-- When there is a second packet, no frame is open after the noise. -/
def InStep (base : Base) (noise : List Event) (packets : List Bytes) : Prop :=
  2 ≤ packets.length → (Emit.run (readLoop base) Loop.start noise).2.inFrame = false

end Serial

namespace Pipe

/-- What was handed over for noise and the frames of some first packets. -/
def handed (base : Base) (noise : Bytes) (received : List Bytes) : List Bytes :=
  (Emit.run (readLoop base) Loop.start (noise ++ frames received)).1

/-- When there is a second packet, no frame is open after the noise. -/
def InStep (base : Base) (noise : Bytes) (packets : List Bytes) : Prop :=
  2 ≤ packets.length → (Emit.run (readLoop base) Loop.start noise).2.inFrame = false

end Pipe

/-! ## Byte loops -/

namespace Loop

variable {hwMtu : Nat}

/-- A leaked escape bit is gone after a packet, whatever it does to the packet. -/
theorem fill_escape_of_leak {packet : Bytes} (hne : packet ≠ []) (hfits : packet.length ≤ hwMtu)
    (escape : Bool) :
    ((Hdlc.escape packet).foldl (Hdlc.stuffing.fill hwMtu) (escape, [])).1 = false := by
  cases packet with
  | nil => exact absurd rfl hne
  | cons b packet =>
      cases escape with
      | false =>
          have hread := (Hdlc.stuffing.fills_fill hwMtu).escape [] (b :: packet) (by simpa using hfits)
          exact congrArg Prod.fst hread
      | true =>
          have hread := Hdlc.stuffing.fill_escape_of_leak hwMtu b hfits
          exact congrArg Prod.fst hread

variable (hwMtu) (handsEmpty : Bool)

/-- The bytes of an open frame. -/
theorem run_inside {data : Bytes} (hdata : Hdlc.flag ∉ data) (escape : Bool) (out : Bytes) :
    Emit.run (readByte handsEmpty hwMtu) ⟨true, escape, out⟩ data =
      ([], ⟨true, (data.foldl (Hdlc.stuffing.fill hwMtu) (escape, out)).1,
        (data.foldl (Hdlc.stuffing.fill hwMtu) (escape, out)).2⟩) := by
  induction data generalizing escape out with
  | nil => rfl
  | cons b data ih =>
      rw [List.mem_cons, not_or] at hdata
      obtain ⟨hb, hdata⟩ := hdata
      have hstep : readByte handsEmpty hwMtu ⟨true, escape, out⟩ b =
          ([], ⟨true, (Hdlc.stuffing.fill hwMtu (escape, out) b).1,
            (Hdlc.stuffing.fill hwMtu (escape, out) b).2⟩) := by
        have hflag : (b == Hdlc.flag) = false := beq_eq_false_iff_ne.mpr (Ne.symm hb)
        have hescByte : Hdlc.stuffing.esc = Hdlc.esc := rfl
        have hmeans : Hdlc.stuffing.unescaped = unescaped := rfl
        unfold readByte Stuffing.fill
        rw [hflag, hescByte, hmeans]
        by_cases hroom : out.length < hwMtu
        · by_cases hesc : b = Hdlc.esc
          · simp [hroom, hesc]
          · simp [hroom, hesc]
        · simp [hroom]
      rw [Emit.run_cons, hstep, ih hdata, List.foldl_cons]
      rfl

/-- The bytes outside frames are not looked at. -/
theorem run_outside {data : Bytes} (hdata : Hdlc.flag ∉ data) (escape : Bool) (out : Bytes) :
    Emit.run (readByte handsEmpty hwMtu) ⟨false, escape, out⟩ data =
      ([], ⟨false, escape, out⟩) := by
  induction data with
  | nil => rfl
  | cons b data ih =>
      rw [List.mem_cons, not_or] at hdata
      obtain ⟨hb, hdata⟩ := hdata
      have hflag : (b == Hdlc.flag) = false := beq_eq_false_iff_ne.mpr (Ne.symm hb)
      have hstep : readByte handsEmpty hwMtu ⟨false, escape, out⟩ b =
          ([], ⟨false, escape, out⟩) := by
        unfold readByte
        rw [hflag]
        rfl
      rw [Emit.run_cons, hstep, ih hdata]
      rfl

/-- A frame that comes when none is open is handed over, as far as the escape bit lets it. -/
theorem run_frame {s : Loop} (hs : s.inFrame = false) (packet : Bytes) :
    Emit.run (readByte handsEmpty hwMtu) s (Hdlc.frame packet) =
      (if handsEmpty ||
            !((Hdlc.escape packet).foldl (Hdlc.stuffing.fill hwMtu) (s.escape, [])).2.isEmpty then
          [((Hdlc.escape packet).foldl (Hdlc.stuffing.fill hwMtu) (s.escape, [])).2]
        else [],
        ⟨false, ((Hdlc.escape packet).foldl (Hdlc.stuffing.fill hwMtu) (s.escape, [])).1, []⟩) := by
  obtain ⟨inFrame, escape, out⟩ := s
  subst hs
  have hopen : readByte handsEmpty hwMtu ⟨false, escape, out⟩ Hdlc.flag =
      ([], ⟨true, escape, []⟩) := rfl
  have hbody := run_inside hwMtu handsEmpty (Hdlc.flag_notMem_escape packet) escape []
  unfold Hdlc.frame
  rw [Emit.run_cons, hopen]
  dsimp only
  rw [Emit.run_append_of_eq hbody, Emit.run_singleton]
  rfl

/-- A frame that comes when another is open closes that one, and its own closing flag opens the
next. -/
theorem run_frame_missed {s : Loop} (hs : s.inFrame = true) (packet : Bytes) :
    Emit.run (readByte handsEmpty hwMtu) s (Hdlc.frame packet) =
      (if handsEmpty || !s.dataBuffer.isEmpty then [s.dataBuffer] else [],
        ⟨true, s.escape, []⟩) := by
  obtain ⟨inFrame, escape, out⟩ := s
  subst hs
  have hclose : readByte handsEmpty hwMtu ⟨true, escape, out⟩ Hdlc.flag =
      (if handsEmpty || !out.isEmpty then [out] else [], ⟨false, escape, []⟩) := rfl
  have hbody := run_outside hwMtu handsEmpty (Hdlc.flag_notMem_escape packet) escape []
  unfold Hdlc.frame
  rw [Emit.run_cons, hclose]
  dsimp only
  rw [Emit.run_append_of_eq hbody, Emit.run_singleton]
  simp [readByte]

variable {hwMtu}

theorem fill_escape {packet : Bytes} (hfits : Fits hwMtu packet) :
    (Hdlc.escape packet).foldl (Hdlc.stuffing.fill hwMtu) (false, []) = (false, packet) :=
  (Hdlc.stuffing.fills_fill hwMtu).escape [] packet (by simpa using hfits.2)

theorem ne_nil_of_fits {packet : Bytes} (hfits : Fits hwMtu packet) : packet ≠ [] :=
  List.length_pos_iff.mp (Nat.lt_of_le_of_lt (Nat.zero_le _) hfits.1)

/-- Frames that come when none is open, with no escape bit left. -/
theorem run_frames {packets : List Bytes} (hfits : ∀ packet ∈ packets, Fits hwMtu packet)
    {s : Loop} (hs : s.inFrame = false) (hescape : s.escape = false) :
    (Emit.run (readByte handsEmpty hwMtu) s (frames packets)).1 = packets := by
  induction packets generalizing s with
  | nil => rfl
  | cons packet packets ih =>
      have hpacket := hfits packet List.mem_cons_self
      have hrest := ih (fun other hother => hfits other (List.mem_cons_of_mem _ hother))
        (s := ⟨false, false, []⟩) rfl rfl
      have hframe := run_frame hwMtu handsEmpty hs packet
      rw [hescape, fill_escape hpacket] at hframe
      have hne : packet.isEmpty = false := by
        rw [List.isEmpty_eq_false_iff]
        exact ne_nil_of_fits hpacket
      rw [hne] at hframe
      unfold frames at hrest ⊢
      rw [List.flatMap_cons, Emit.run_append_of_eq hframe, hrest]
      simp

/-- What a byte loop in any state hands over of the frames that follow. -/
theorem resynchronises_iff {packets : List Bytes}
    (hfits : ∀ packet ∈ packets, Fits hwMtu packet) (handed : List Bytes) (s : Loop) :
    Resynchronises (fun received =>
        handed ++ (Emit.run (readByte handsEmpty hwMtu) s (frames received)).1) packets ↔
      (2 ≤ packets.length → s.inFrame = false) := by
  have hsingle : ∀ packet : Bytes, frames [packet] = Hdlc.frame packet := fun packet => by
    simp [frames]
  cases packets with
  | nil =>
      refine iff_of_true ⟨[], fun received hreceived hne => ?_⟩ fun hlen => absurd hlen (by simp)
      exact absurd (List.prefix_nil.mp hreceived) hne
  | cons first rest =>
      constructor
      · rintro ⟨early, h⟩ hlen
        by_contra hopen
        rw [Bool.not_eq_false] at hopen
        cases rest with
        | nil => simp at hlen
        | cons second rest =>
            have hone := h [first] (List.cons_prefix_cons.mpr ⟨rfl, List.nil_prefix⟩) (by simp)
            have htwo := h [first, second]
              (List.cons_prefix_cons.mpr ⟨rfl, List.cons_prefix_cons.mpr ⟨rfl, List.nil_prefix⟩⟩)
              (by simp)
            have hfirst := run_frame_missed hwMtu handsEmpty hopen first
            have hsecond := run_frame_missed hwMtu handsEmpty
              (s := ⟨true, s.escape, []⟩) rfl second
            have hframes : frames [first, second] = Hdlc.frame first ++ Hdlc.frame second := by
              simp [frames]
            dsimp only at hone htwo
            rw [hsingle, hfirst] at hone
            rw [hframes, Emit.run_append_of_eq hfirst, hsecond] at htwo
            dsimp only at hone htwo
            rw [← List.append_assoc, hone, List.tail_cons, List.tail_cons, List.append_nil] at htwo
            have hlost := List.append_cancel_left htwo
            have hne := ne_nil_of_fits (hfits second (by simp))
            cases handsEmpty with
            | false => cases hlost
            | true => exact hne (List.cons_eq_cons.mp hlost).1.symm
      · intro hopen
        by_cases hrest : rest = []
        · refine ⟨handed ++ (Emit.run (readByte handsEmpty hwMtu) s (frames [first])).1,
            fun received hreceived hne => ?_⟩
          rw [hrest] at hreceived
          cases received with
          | nil => exact absurd rfl hne
          | cons other received =>
              obtain ⟨rfl, hnil⟩ := List.cons_prefix_cons.mp hreceived
              rw [List.prefix_nil.mp hnil]
              exact (List.append_nil _).symm
        · have hs := hopen (by
            rw [List.length_cons]
            exact Nat.succ_le_succ (List.length_pos_iff.mpr hrest))
          have hfirst := hfits first List.mem_cons_self
          have hframe := run_frame hwMtu handsEmpty hs first
          rw [fill_escape_of_leak (ne_nil_of_fits hfirst) hfirst.2] at hframe
          refine ⟨handed ++ (Emit.run (readByte handsEmpty hwMtu) s (Hdlc.frame first)).1,
            fun received hreceived hne => ?_⟩
          cases received with
          | nil => exact absurd rfl hne
          | cons other received =>
              obtain ⟨rfl, hrest⟩ := List.cons_prefix_cons.mp hreceived
              have hlater := run_frames handsEmpty
                (fun packet hpacket => hfits packet
                  (List.mem_cons_of_mem _ (hrest.subset hpacket)))
                (s := ⟨false, false, []⟩) rfl rfl
              have hframes : frames (other :: received) = Hdlc.frame other ++ frames received :=
                List.flatMap_cons
              dsimp only
              rw [hframes, Emit.run_append_of_eq hframe, hlater, hframe, List.append_assoc]
              rfl

end Loop

/-! ## The local interface -/

namespace Local

theorem frames_cons (first : Bytes) (rest : List Bytes) :
    frames (first :: rest) = (Hdlc.flag :: Hdlc.escape first) ++ [Hdlc.flag] ++
      Framing.Reader.framed Hdlc.flag (rest.map Hdlc.escape) := by
  unfold frames Framing.Reader.framed
  rw [List.flatMap_cons, List.flatMap_map]
  rfl

theorem noise_frames_cons (noise first : Bytes) (received : List Bytes) :
    noise ++ frames (first :: received) =
      (noise ++ (Hdlc.flag :: Hdlc.escape first)) ++ [Hdlc.flag] ++
        Framing.Reader.framed Hdlc.flag (received.map Hdlc.escape) := by
  rw [frames_cons]
  simp

theorem decode_escape {base : Base} {packet : Bytes} (h : Fits (hwMtu base) packet) :
    (reader base).decode (Hdlc.escape packet) = some packet :=
  acceptFrame_escape (Hdlc.unescape_escape packet) h.1 (Nat.le_add_right_of_le h.2)

theorem decode_packets {base : Base} {packets : List Bytes}
    (h : ∀ packet ∈ packets, Fits (hwMtu base) packet) :
    ((packets.map Hdlc.escape).flatMap fun frame => ((reader base).decode frame).toList) =
      packets := by
  rw [List.flatMap_map]
  refine Eq.trans (List.flatMap_congr fun packet hpacket => ?_) (List.flatMap_singleton' packets)
  rw [decode_escape (h packet hpacket)]
  rfl

theorem resynchronises_iff (base : Base) {noise : Bytes} {packets reads : List Bytes}
    (hreads : reads.flatten = noise ++ frames packets) (hnonempty : ∀ data ∈ reads, data ≠ [])
    (hfits : ∀ packet ∈ packets, Fits (hwMtu base) packet) :
    Resynchronises (handed base noise reads) packets ↔ InStep base noise reads packets := by
  cases packets with
  | nil =>
      refine iff_of_true ⟨[], fun received hreceived hne => ?_⟩ fun first rest hsplit => ?_
      · exact absurd (List.prefix_nil.mp hreceived) hne
      · cases hsplit
  | cons first rest =>
      have hrest : ∀ packet ∈ rest, Fits (hwMtu base) packet := fun packet hpacket =>
        hfits packet (List.mem_cons_of_mem _ hpacket)
      have hframes : ∀ frame ∈ rest.map Hdlc.escape,
          (reader base).flag ∉ frame ∧ frame.length ≤ hwMtu base * 2 ∧
            ((reader base).decode frame).isSome := by
        intro frame hframe
        obtain ⟨packet, hpacket, rfl⟩ := List.mem_map.mp hframe
        have hshort := (hrest packet hpacket).2
        have hescaped : (Hdlc.escape packet).length ≤ 2 * packet.length :=
          Hdlc.stuffing.length_escape_le packet
        refine ⟨Hdlc.flag_notMem_escape packet, by omega, ?_⟩
        rw [decode_escape (hrest packet hpacket)]
        rfl
      have hpos := noise_frames_cons noise first
      have hone : noise ++ frames [first] =
          (noise ++ (Hdlc.flag :: Hdlc.escape first)) ++ [Hdlc.flag] := by
        rw [hpos]
        simp [Framing.Reader.framed]
      have hpackets : ∀ received, received <+: rest →
          ((received.map Hdlc.escape).flatMap fun frame =>
            ((reader base).decode frame).toList) = received :=
        fun received hreceived => decode_packets fun packet hpacket =>
          hrest packet (hreceived.subset hpacket)
      have hiff := Framing.Reader.handed_iff (r := reader base) rfl rfl (fun _ => rfl) hframes
        hnonempty (hreads.trans (hpos rest))
      have hleft : Resynchronises (handed base noise reads) (first :: rest) ↔
          ∀ done, done <+: rest.map Hdlc.escape →
            (Emit.run (reader base).receive [] (Framing.upTo
              ((noise ++ (Hdlc.flag :: Hdlc.escape first)) ++ [Hdlc.flag] ++
                Framing.Reader.framed Hdlc.flag done).length reads)).1 =
              (Emit.run (reader base).receive [] (Framing.upTo
                ((noise ++ (Hdlc.flag :: Hdlc.escape first)) ++ [Hdlc.flag]).length reads)).1 ++
                done.flatMap fun frame => ((reader base).decode frame).toList := by
        constructor
        · rintro ⟨early, h⟩ done hdone
          obtain ⟨received, hreceived, rfl⟩ := List.prefix_map_iff.mp hdone
          have hfirst := h [first] (List.cons_prefix_cons.mpr ⟨rfl, List.nil_prefix⟩) (by simp)
          have hlater := h (first :: received) (List.cons_prefix_cons.mpr ⟨rfl, hreceived⟩)
            (List.cons_ne_nil _ _)
          unfold handed at hfirst hlater
          rw [hone, List.tail_cons, List.append_nil] at hfirst
          rw [hpos] at hlater
          rw [hpackets received hreceived]
          exact hlater.trans (congrArg (· ++ received) hfirst.symm)
        · intro h
          refine ⟨handed base noise reads [first], fun received hreceived hne => ?_⟩
          cases received with
          | nil => exact absurd rfl hne
          | cons other received =>
              obtain ⟨rfl, hlast⟩ := List.cons_prefix_cons.mp hreceived
              have hlater := h (received.map Hdlc.escape) (hlast.map _)
              rw [hpackets received hlast] at hlater
              unfold handed
              rw [hone, hpos]
              exact hlater
      rw [hleft]
      refine hiff.trans ⟨fun h => ?_, fun h => ?_⟩
      · rintro _ _ ⟨rfl, rfl⟩ hne
        rcases h with hnil | ⟨heven, hroom⟩
        · exact absurd (List.map_eq_nil_iff.mp hnil) hne
        · refine ⟨by rw [hone]; exact heven, fun done packet more hsplit hends => ?_⟩
          rw [Nat.mul_comm]
          refine hroom (done.map Hdlc.escape) (Hdlc.escape packet) (more.map Hdlc.escape)
            (by rw [hsplit, List.map_append, List.map_cons]) ?_
          rw [hpos, List.append_assoc] at hends
          exact hends
      · by_cases hne : rest = []
        · exact .inl (by rw [hne]; rfl)
        · obtain ⟨heven, hroom⟩ := h first rest rfl hne
          rw [hone] at heven
          refine .inr ⟨heven, fun done frame more hsplit hends => ?_⟩
          obtain ⟨received, later, rfl, rfl, hlater⟩ := List.map_eq_append_iff.mp hsplit
          obtain ⟨packet, last, rfl, rfl, rfl⟩ := List.map_eq_cons_iff.mp hlater
          rw [Nat.mul_comm]
          refine hroom received packet last rfl ?_
          rw [hpos, List.append_assoc]
          exact hends

end Local

/-! ## The three interfaces -/

theorem serial_handed (base : Base) (noise : List Serial.Event) (received : List Bytes) :
    Serial.handed base noise received =
      (Emit.run (Serial.readLoop base) Loop.start noise).1 ++
        (Emit.run (Loop.readByte true (Serial.hwMtu base))
          (Emit.run (Serial.readLoop base) Loop.start noise).2 (frames received)).1 := by
  unfold Serial.handed
  rw [Emit.run_append, Emit.run_map]
  rfl

theorem pipe_handed (base : Base) (noise : Bytes) (received : List Bytes) :
    Pipe.handed base noise received =
      (Emit.run (Pipe.readLoop base) Loop.start noise).1 ++
        (Emit.run (Loop.readByte false (Pipe.hwMtu base))
          (Emit.run (Pipe.readLoop base) Loop.start noise).2 (frames received)).1 := by
  unfold Pipe.handed
  rw [Emit.run_append]
  rfl

/-- After any noise the three interfaces hand over all packets but the first exactly when they are
in step: the flags before the second packet pair up, and no read of the local interface leaves too
much of a later one in the buffer. -/
theorem resynchronise_iff (base : Base) (packets : List Bytes) :
    (∀ noise reads, reads.flatten = noise ++ frames packets → (∀ data ∈ reads, data ≠ []) →
      (∀ packet ∈ packets, Fits (Local.hwMtu base) packet) →
        (Resynchronises (Local.handed base noise reads) packets ↔
          Local.InStep base noise reads packets)) ∧
    (∀ noise, (∀ packet ∈ packets, Fits (Serial.hwMtu base) packet) →
      (Resynchronises (Serial.handed base noise) packets ↔
        Serial.InStep base noise packets)) ∧
    (∀ noise, (∀ packet ∈ packets, Fits (Pipe.hwMtu base) packet) →
      (Resynchronises (Pipe.handed base noise) packets ↔ Pipe.InStep base noise packets)) := by
  refine ⟨fun noise reads hreads hnonempty hfits => ?_, fun noise hfits => ?_,
    fun noise hfits => ?_⟩
  · exact Local.resynchronises_iff base hreads hnonempty hfits
  · rw [funext (serial_handed base noise)]
    exact Loop.resynchronises_iff true hfits _ _
  · rw [funext (pipe_handed base noise)]
    exact Loop.resynchronises_iff false hfits _ _

/-- Two packets. -/
def twoPackets : List Bytes := [List.replicate 20 0x41, List.replicate 20 0x42]

/-- A lone flag is enough for the second packet to be lost. -/
theorem resynchronise_false :
    List.replicate 20 0x42 ∉
        Local.handed ⟨some 500, 0⟩ [Hdlc.flag] [Hdlc.flag :: frames twoPackets] twoPackets ∧
      List.replicate 20 0x42 ∉
        Serial.handed ⟨some 564, 0⟩ [.byte Hdlc.flag] twoPackets ∧
      List.replicate 20 0x42 ∉ Pipe.handed ⟨some 1064, 0⟩ [Hdlc.flag] twoPackets := by
  have hlocal : Local.handed ⟨some 500, 0⟩ [Hdlc.flag] [Hdlc.flag :: frames twoPackets] twoPackets =
      (Emit.run (Local.reader ⟨some 500, 0⟩).step (.outside [])
        ((Framing.marks [Hdlc.flag :: frames twoPackets]).take 45)).1 :=
    Framing.Reader.handed_upTo (by decide) (by decide) (by decide)
  rw [hlocal]
  exact ⟨by decide, by decide, by decide⟩

/-- Two packets on a local interface that is in step. -/
theorem resynchronise_iff_local :
    Resynchronises
      (Local.handed ⟨some 500, 0⟩ [0x11] [0x11 :: frames twoPackets]) twoPackets := by
  have hfits : ∀ packet ∈ twoPackets, Fits (Local.hwMtu ⟨some 500, 0⟩) packet := by
    intro packet hmem
    simp only [twoPackets, List.mem_cons, List.not_mem_nil, or_false] at hmem
    rcases hmem with rfl | rfl
    · exact ⟨by decide, by decide⟩
    · exact ⟨by decide, by decide⟩
  refine ((resynchronise_iff ⟨some 500, 0⟩ twoPackets).1 [0x11] [0x11 :: frames twoPackets]
    (by decide) (by decide) hfits).mpr ?_
  rintro _ _ ⟨rfl, rfl⟩ -
  refine ⟨by decide, fun done packet more hsplit _ => ?_⟩
  have hmem : packet ∈ [List.replicate 20 (0x42 : UInt8)] := by
    rw [hsplit]
    simp
  rw [List.mem_singleton.mp hmem]
  decide

end Reticulum.Interfaces
