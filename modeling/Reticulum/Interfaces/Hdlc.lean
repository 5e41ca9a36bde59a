import Reticulum.Lib.Bytes
import Reticulum.Lib.Framing
import Reticulum.Lib.Stuffing

/-!
# HDLC over TCP and Backbone

Both interfaces keep the closing flag of a frame in their buffer, as it may open the
next one. So whatever came before, all frames but the first are handed over, and all of
them when nothing came before, however the stream is cut into reads
(`tcp_backbone_recover`).

## Implementation notes

`Base` has the fields of `Interface` that decoding reads. The TCP loop starts each
connection with an empty buffer; the buffer of Backbone outlives a connection, and what an
earlier one left in it is part of the noise.
-/

namespace Reticulum.Interfaces

/-! ## The framing -/

namespace Hdlc

def flag : UInt8 := 0x7E

def esc : UInt8 := 0x7D

def escMask : UInt8 := 0x20

/-- The flag and the escape, each followed by its code under the mask. -/
def stuffing : Stuffing UInt8 where
  flag := flag
  esc := esc
  flagCode := flag ^^^ escMask
  escCode := esc ^^^ escMask
  esc_ne_flag := by decide
  flagCode_ne_flag := by decide
  escCode_ne_flag := by decide
  flagCode_ne_esc := by decide
  escCode_ne_esc := by decide
  escCode_ne_flagCode := by decide

def escape (data : Bytes) : Bytes := stuffing.escape data

/-- A packet between two flags. -/
def frame (data : Bytes) : Bytes := flag :: (escape data ++ [flag])

/-- One byte of a frame, after an escape or not. -/
def unescapeByte (s : Bool × Bytes) (byte : UInt8) : Bool × Bytes :=
  if s.1 then
    (false,
      if byte = flag ^^^ escMask then s.2 ++ [flag]
      else if byte = esc ^^^ escMask then s.2 ++ [esc]
      else s.2)
  else if byte = esc then (true, s.2)
  else (false, s.2 ++ [byte])

/-- How the TCP and the local interface read a frame. -/
def unescape (frame : Bytes) : Bytes := (frame.foldl unescapeByte (false, [])).2

theorem fills_unescapeByte (cap : Nat) : stuffing.Fills unescapeByte cap where
  plain := fun _ _ _ hesc _ => if_neg hesc
  esc := fun _ _ => rfl
  flagCode := fun _ _ => rfl
  escCode := fun _ _ => rfl

theorem unescape_escape (data : Bytes) : unescape (escape data) = data := by
  unfold unescape escape
  rw [(fills_unescapeByte data.length).escape [] data (by simp), List.nil_append]

theorem flag_notMem_escape (data : Bytes) : flag ∉ escape data :=
  stuffing.flag_notMem_escape data

end Hdlc

def headerMinSize : Nat := 19

def checkFrameLen (frameLen hwMtu ifacSize : Nat) : Bool :=
  if frameLen ≤ headerMinSize then false else frameLen ≤ hwMtu + ifacSize

def frameBufferExceeded (bufferLen hwMtu : Nat) : Bool := hwMtu * 2 < bufferLen

/-- What a loop makes of the bytes between two flags. -/
def acceptFrame (unescape : Bytes → Bytes) (hwMtu ifacSize : Nat) (frame : Bytes) : Option Bytes :=
  let unescaped := unescape frame
  if checkFrameLen unescaped.length hwMtu ifacSize then some unescaped else none

/-- The fields of `Interface` that decoding reads. -/
structure Base where
  hwMtu : Option Nat
  ifacSize : Nat

/-! ## The readers -/

namespace Tcp

/-- `base.hw_mtu`, or `HW_MTU`. -/
def hwMtu (base : Base) : Nat := base.hwMtu.getD 262144

/-- The HDLC branch of `start_read_loop`. -/
def reader (base : Base) : Framing.Reader UInt8 Bytes where
  flag := Hdlc.flag
  decode := acceptFrame Hdlc.unescape (hwMtu base) base.ifacSize
  keepsFlag := true
  dropsBare := fun _ => true
  dropsOpen := fun bufferLen => frameBufferExceeded bufferLen (hwMtu base)

/-- A read that is not the end of the connection: the frames that are handed over, and the buffer
after it. -/
def readHdlc (base : Base) (frameBuffer dataIn : Bytes) : List Bytes × Bytes :=
  (reader base).receive frameBuffer dataIn

end Tcp

namespace Backbone

/-- `base.hw_mtu`, or `HW_MTU`. -/
def hwMtu (base : Base) : Nat := base.hwMtu.getD 1048576

/-- How a frame is read: an escape that no code follows stands for itself. -/
def unescape : Bytes → Bytes
  | [] => []
  | [byte] => [byte]
  | byte :: next :: frame =>
      if byte = Hdlc.esc then
        if next = Hdlc.flag ^^^ Hdlc.escMask then Hdlc.flag :: unescape frame
        else if next = Hdlc.esc ^^^ Hdlc.escMask then Hdlc.esc :: unescape frame
        else byte :: unescape (next :: frame)
      else byte :: unescape (next :: frame)

/-- `drain_frames`, with `discard_overlong_frame_buffer`. -/
def reader (base : Base) : Framing.Reader UInt8 Bytes where
  flag := Hdlc.flag
  decode := acceptFrame unescape (hwMtu base) base.ifacSize
  keepsFlag := true
  dropsBare := fun bufferLen => frameBufferExceeded bufferLen (hwMtu base)
  dropsOpen := fun bufferLen => frameBufferExceeded bufferLen (hwMtu base)

/-- `receive`: the frames that are handed over, and the buffer after it. -/
def receive (base : Base) (frameBuffer data : Bytes) : List Bytes × Bytes :=
  if data.isEmpty then ([], frameBuffer) else (reader base).receive frameBuffer data

theorem unescape_cons {byte : UInt8} (h : byte ≠ Hdlc.esc) (frame : Bytes) :
    unescape (byte :: frame) = byte :: unescape frame := by
  cases frame with
  | nil => rfl
  | cons next frame => rw [unescape, if_neg h]

theorem unescape_escape (data : Bytes) : unescape (Hdlc.escape data) = data := by
  induction data with
  | nil => rfl
  | cons b data ih =>
      have hcons : Hdlc.escape (b :: data) = Hdlc.stuffing.stuff b ++ Hdlc.escape data :=
        Hdlc.stuffing.escape_cons b data
      rw [hcons, Stuffing.stuff]
      split
      · rename_i hb
        rw [List.cons_append, List.cons_append, List.nil_append]
        exact (congrArg _ ih).trans (congrArg (· :: data) hb.symm)
      · split
        · rename_i hb
          rw [List.cons_append, List.cons_append, List.nil_append]
          exact (congrArg _ ih).trans (congrArg (· :: data) hb.symm)
        · rename_i hesc _
          rw [List.cons_append, List.nil_append, unescape_cons hesc, ih]

end Backbone

/-! ## Recovery -/

/-- A packet that an interface carries: no runt, no longer than a frame may be, and short enough
for the buffer when it is escaped. -/
def Carries (hwMtu ifacSize : Nat) (packet : Bytes) : Prop :=
  headerMinSize < packet.length ∧ packet.length ≤ hwMtu + ifacSize ∧
    (Hdlc.escape packet).length ≤ 2 * hwMtu - 1

/-- What reading does with noise and the frames of packets: all packets but the first are handed
over in the end, exactly the packets when there was no noise, and no read leaves a long buffer. -/
def Recovers (receive : Bytes → Bytes → List Bytes × Bytes) (hwMtu : Nat) (noise : Bytes)
    (packets : List Bytes) (reads : List Bytes) : Prop :=
  packets.tail <:+ (Emit.run receive [] reads).1 ∧
    (noise = [] → (Emit.run receive [] reads).1 = packets) ∧
    ∀ done, done <+: reads → (Emit.run receive [] done).2.length ≤ 2 * hwMtu

theorem acceptFrame_escape {unescape : Bytes → Bytes} {hwMtu ifacSize : Nat} {packet : Bytes}
    (hunescape : unescape (Hdlc.escape packet) = packet) (hlong : headerMinSize < packet.length)
    (hshort : packet.length ≤ hwMtu + ifacSize) :
    acceptFrame unescape hwMtu ifacSize (Hdlc.escape packet) = some packet := by
  have hlen : checkFrameLen packet.length hwMtu ifacSize = true := by
    rw [checkFrameLen, if_neg (Nat.not_le.mpr hlong)]
    exact decide_eq_true hshort
  unfold acceptFrame
  rw [hunescape]
  exact if_pos hlen

theorem acceptFrame_nil {unescape : Bytes → Bytes} (hwMtu ifacSize : Nat)
    (hunescape : unescape [] = []) : acceptFrame unescape hwMtu ifacSize [] = none := by
  unfold acceptFrame
  rw [hunescape]
  rfl

theorem frameBufferExceeded_of_lt {bufferLen hwMtu : Nat} (h : 2 * hwMtu < bufferLen) :
    frameBufferExceeded bufferLen hwMtu = true :=
  decide_eq_true (by omega)

/-- A reader of frames that keeps the closing flag and drops an open frame only for its length. -/
structure Recovering (r : Framing.Reader UInt8 Bytes) (unescape : Bytes → Bytes)
    (hwMtu ifacSize : Nat) : Prop where
  flag : r.flag = Hdlc.flag
  decode : r.decode = acceptFrame unescape hwMtu ifacSize
  keeps : r.keepsFlag = true
  bare : ∀ n, 2 * hwMtu < n → r.dropsBare n = true
  dropsOpen : r.dropsOpen = fun n => frameBufferExceeded n hwMtu
  empty : unescape [] = []
  unescape : ∀ packet, unescape (Hdlc.escape packet) = packet

variable {r : Framing.Reader UInt8 Bytes} {unescape : Bytes → Bytes} {hwMtu ifacSize : Nat}
  {packets : List Bytes}

section

variable (h : Recovering r unescape hwMtu ifacSize)

include h

theorem Recovering.framed (packets : List Bytes) :
    packets.flatMap Hdlc.frame = Framing.Reader.framed r.flag (packets.map Hdlc.escape) := by
  rw [Framing.Reader.framed, List.flatMap_map, h.flag]
  rfl

theorem Recovering.clean :
    ∀ frame ∈ packets.map Hdlc.escape, r.flag ∉ frame := by
  intro frame hframe
  obtain ⟨packet, -, rfl⟩ := List.mem_map.mp hframe
  exact h.flag ▸ Hdlc.flag_notMem_escape packet

theorem Recovering.stays (hpackets : ∀ packet ∈ packets, Carries hwMtu ifacSize packet) :
    ∀ frame ∈ packets.map Hdlc.escape, ∀ n ≤ frame.length + 1, r.dropsOpen n = false := by
  intro frame hframe n hn
  obtain ⟨packet, hpacket, rfl⟩ := List.mem_map.mp hframe
  obtain ⟨hlong, -, hescaped⟩ := hpackets packet hpacket
  have hle : packet.length ≤ (Hdlc.escape packet).length := Hdlc.stuffing.length_le_escape packet
  rw [h.dropsOpen]
  exact decide_eq_false (by unfold headerMinSize at hlong; omega)

theorem Recovering.nothing : r.decode [] = none := by
  rw [h.decode, acceptFrame_nil hwMtu ifacSize h.empty]

/-- The frames of packets say the packets. -/
theorem Recovering.said (hpackets : ∀ packet ∈ packets, Carries hwMtu ifacSize packet) :
    ((packets.map Hdlc.escape).flatMap fun frame => (r.decode frame).toList) = packets := by
  rw [List.flatMap_map, h.decode]
  refine Eq.trans (List.flatMap_congr fun packet hpacket => ?_) (List.flatMap_singleton' packets)
  obtain ⟨hlong, hwide, -⟩ := hpackets packet hpacket
  rw [acceptFrame_escape (h.unescape packet) hlong hwide]
  rfl

theorem Recovering.recovers {noise : Bytes}
    {reads : List Bytes} (hpackets : ∀ packet ∈ packets, Carries hwMtu ifacSize packet)
    (hreads : reads.flatten = noise ++ packets.flatMap Hdlc.frame) :
    Recovers r.receive hwMtu noise packets reads := by
  refine ⟨?_, ?_, ?_⟩
  · cases packets with
    | nil => exact List.nil_suffix
    | cons first rest =>
        have hrest := fun packet hpacket => hpackets packet (List.mem_cons_of_mem first hpacket)
        have hsplit : reads.flatten = ((noise ++ (Hdlc.flag :: Hdlc.escape first)) ++ [r.flag]) ++
            Framing.Reader.framed r.flag (rest.map Hdlc.escape) := by
          rw [hreads, ← h.framed, h.flag]
          simp [Hdlc.frame]
        obtain ⟨early, hrun⟩ := Framing.Reader.receiveAll_recovers h.keeps h.nothing h.clean
          (h.stays hrest) hsplit
        rw [h.said hrest] at hrun
        exact ⟨early, hrun.symm⟩
  · rintro rfl
    rw [List.nil_append, h.framed] at hreads
    rw [Framing.Reader.receiveAll_frames h.keeps h.nothing h.clean (h.stays hpackets) hreads,
      h.said hpackets]
  · intro done hdone
    have hstep : ∀ (buffer data : Bytes), (r.receive buffer data).2.length ≤ 2 * hwMtu := by
      intro buffer data
      refine Framing.Reader.length_drain_le h.bare (fun n hn => ?_) (buffer ++ data)
      rw [h.dropsOpen]
      exact frameBufferExceeded_of_lt hn
    exact Emit.run_invariant (P := fun buffer : Bytes => buffer.length ≤ 2 * hwMtu)
      (fun buffer data _ => hstep buffer data) (Nat.zero_le _) done

end

theorem Tcp.recovering (base : Base) :
    Recovering (Tcp.reader base) Hdlc.unescape (Tcp.hwMtu base) base.ifacSize :=
  ⟨rfl, rfl, rfl, fun _ _ => rfl, rfl, rfl, Hdlc.unescape_escape⟩

theorem Backbone.recovering (base : Base) :
    Recovering (Backbone.reader base) Backbone.unescape (Backbone.hwMtu base) base.ifacSize :=
  ⟨rfl, rfl, rfl, fun _ hn => frameBufferExceeded_of_lt hn, rfl, rfl, Backbone.unescape_escape⟩

/-- `receive` of Backbone and its reader do the same with reads that are not empty. -/
theorem Backbone.run_receive (base : Base) (buffer : Bytes) {reads : List Bytes}
    (hnonempty : ∀ data ∈ reads, data ≠ []) :
    Emit.run (Backbone.receive base) buffer reads =
      Emit.run (Backbone.reader base).receive buffer reads := by
  refine Emit.run_congr fun buffer data hdata => if_neg ?_
  rw [List.isEmpty_iff]
  exact hnonempty data hdata

/-- Over TCP and Backbone all packets but the first are handed over after any noise, and exactly
the packets when there was none, however the stream is cut into reads. -/
theorem tcp_backbone_recover (base : Base) (noise : Bytes) (packets reads : List Bytes)
    (hreads : reads.flatten = noise ++ packets.flatMap Hdlc.frame)
    (hnonempty : ∀ data ∈ reads, data ≠ []) :
    ((∀ packet ∈ packets, Carries (Tcp.hwMtu base) base.ifacSize packet) →
      Recovers (Tcp.readHdlc base) (Tcp.hwMtu base) noise packets reads) ∧
    ((∀ packet ∈ packets, Carries (Backbone.hwMtu base) base.ifacSize packet) →
      Recovers (Backbone.receive base) (Backbone.hwMtu base) noise packets reads) := by
  refine ⟨fun hpackets => ?_, fun hpackets => ?_⟩
  · exact (Tcp.recovering base).recovers hpackets hreads
  · obtain ⟨htail, hexact, hshort⟩ := (Backbone.recovering base).recovers hpackets hreads
    rw [← Backbone.run_receive base [] hnonempty] at htail hexact
    refine ⟨htail, hexact, fun done hdone => ?_⟩
    rw [Backbone.run_receive base [] fun data hdata => hnonempty data (hdone.subset hdata)]
    exact hshort done hdone

/-- Two packets after a flag and a byte, cut inside an escaped byte of the second. -/
theorem tcp_backbone_recover_cut :
    Recovers (Tcp.readHdlc ⟨some 500, 0⟩) 500 [0x7E, 0x11]
        [List.replicate 20 0x41, List.replicate 20 0x7E]
        [[0x7E, 0x11] ++ Hdlc.frame (List.replicate 20 0x41) ++ [0x7E, 0x7D],
          (Hdlc.frame (List.replicate 20 0x7E)).drop 2] ∧
      Recovers (Backbone.receive ⟨some 500, 0⟩) 500 [0x7E, 0x11]
        [List.replicate 20 0x41, List.replicate 20 0x7E]
        [[0x7E, 0x11] ++ Hdlc.frame (List.replicate 20 0x41) ++ [0x7E, 0x7D],
          (Hdlc.frame (List.replicate 20 0x7E)).drop 2] := by
  have hcarries : ∀ packet ∈ [List.replicate 20 (0x41 : UInt8), List.replicate 20 0x7E],
      Carries 500 0 packet := by
    intro packet hmem
    simp only [List.mem_cons, List.not_mem_nil, or_false] at hmem
    rcases hmem with rfl | rfl
    · exact ⟨by decide, by decide, by decide⟩
    · exact ⟨by decide, by decide, by decide⟩
  have h := tcp_backbone_recover ⟨some 500, 0⟩ [0x7E, 0x11]
    [List.replicate 20 0x41, List.replicate 20 0x7E]
    [[0x7E, 0x11] ++ Hdlc.frame (List.replicate 20 0x41) ++ [0x7E, 0x7D],
      (Hdlc.frame (List.replicate 20 0x7E)).drop 2] (by decide) (by decide)
  exact ⟨h.1 hcarries, h.2 hcarries⟩

end Reticulum.Interfaces
