import Reticulum.Interfaces.Hdlc

/-!
# KISS over TCP, serial ports and RNodes

A frame ends where a `FEND` follows the data command, and any other `FEND` opens one. So
the decoders find the frames again after at most one data frame. The escape bit is not
reset between frames, though, and harms a packet that begins with certain bytes:
`recovers_iff` says exactly when every packet is handed over unchanged.

## Implementation notes

The loops of the TCP and the KISS interface differ in whether an empty frame is handed
over and in the `CMD_READY` command; `Deframer` has the variables of both. Of what an
RNode reports only what ends the read loop is modelled: the other readings are stored,
and decoding does not look at them. A temperature out of the range of `i8` wraps, as in
release builds. Bytes after the end of a read loop are not read.
-/

namespace Reticulum.Interfaces

namespace Kiss

def fend : UInt8 := 0xC0

def fesc : UInt8 := 0xDB

def tfend : UInt8 := 0xDC

def tfesc : UInt8 := 0xDD

def cmdData : UInt8 := 0x00

def cmdUnknown : UInt8 := 0xFE

def cmdReady : UInt8 := 0x0F

/-- The frame end and the escape, with their codes. -/
def stuffing : Stuffing UInt8 where
  flag := fend
  esc := fesc
  flagCode := tfend
  escCode := tfesc
  esc_ne_flag := by decide
  flagCode_ne_flag := by decide
  escCode_ne_flag := by decide
  flagCode_ne_esc := by decide
  escCode_ne_esc := by decide
  escCode_ne_flagCode := by decide

def escape (data : Bytes) : Bytes := stuffing.escape data

/-- What a byte stands for after an escape. -/
def unescaped (byte : UInt8) : UInt8 :=
  if byte = tfend then fend else if byte = tfesc then fesc else byte

/-- What a loop does with what it reads. -/
inductive Signal
  | inbound (data : Bytes)
  | processQueue
  deriving DecidableEq

/-- The variables of a read loop. -/
structure Deframer where
  inFrame : Bool
  escape : Bool
  command : UInt8
  dataBuffer : Bytes
  deriving DecidableEq

/-- The loop starts. -/
def Deframer.start : Deframer :=
  { inFrame := false, escape := false, command := cmdUnknown, dataBuffer := [] }

/-- A frame ends at this byte. -/
def Deframer.ends (s : Deframer) (byte : UInt8) : Bool :=
  s.inFrame && byte == fend && s.command == cmdData

/-- A byte is read; `handsEmpty` says whether an empty frame is handed over, `hearsReady` whether
`CMD_READY` means anything. -/
def Deframer.readByte (handsEmpty hearsReady : Bool) (hwMtu : Nat) (s : Deframer) (byte : UInt8) :
    List Signal × Deframer :=
  if s.ends byte then
    (if handsEmpty || !s.dataBuffer.isEmpty then [.inbound s.dataBuffer] else [],
      { s with inFrame := false, dataBuffer := [] })
  else if byte == fend then
    ([], { s with inFrame := true, command := cmdUnknown, dataBuffer := [] })
  else if s.inFrame && s.dataBuffer.length < hwMtu then
    if s.dataBuffer.isEmpty && s.command == cmdUnknown then
      ([], { s with command := byte &&& 0x0F })
    else if s.command == cmdData then
      if byte == fesc then ([], { s with escape := true })
      else
        ([], { s with
          escape := false
          dataBuffer := s.dataBuffer ++ [if s.escape then unescaped byte else byte] })
    else if hearsReady && s.command == cmdReady then ([.processQueue], s)
    else ([], s)
  else ([], s)

/-- The KISS branch of `TcpClientInterface::start_read_loop`. -/
def tcpReadByte (base : Base) (s : Deframer) (byte : UInt8) : List Signal × Deframer :=
  s.readByte false false (Tcp.hwMtu base) byte

/-- `base.hw_mtu`, or `HW_MTU`, of the KISS interface. -/
def hwMtu (base : Base) : Nat := base.hwMtu.getD 564

def timeoutMs : Nat := 100

/-- What a loop finds: a byte, or none, so many milliseconds after the last one. -/
inductive Event
  | byte (byte : UInt8)
  | quiet (sinceLast : Nat)

/-- One round of `KissInterface::start_read_loop`. -/
def readLoop (base : Base) (s : Deframer) : Event → List Signal × Deframer
  | .byte byte => s.readByte true true (hwMtu base) byte
  | .quiet sinceLast =>
      ([], if !s.dataBuffer.isEmpty && timeoutMs < sinceLast then Deframer.start else s)

end Kiss

/-! ## RNodes -/

namespace RNode

open Kiss

def cmdPlatform : UInt8 := 0x48

def cmdReset : UInt8 := 0x55

def cmdError : UInt8 := 0x90

def platformEsp32 : UInt8 := 0x80

/-- The errors that are only noted: `ERROR_EEPROM_LOCKED`, `ERROR_QUEUE_FULL`, `ERROR_MEMORY_LOW` and
`ERROR_MODEM_TIMEOUT`. -/
def minorErrors : List UInt8 := [0x03, 0x04, 0x05, 0x06]

/-- The longest packet that is kept. -/
def maxData : Nat := 508

/-- The variables of the read loop, what it reads of the interface, and whether it still runs. -/
structure Reader extends Deframer where
  platform : Option UInt8
  online : Bool
  fatalError : Bool
  running : Bool

/-- The loop starts on an interface. -/
def Reader.start (platform : Option UInt8) (online fatalError : Bool) : Reader :=
  { Deframer.start with
    platform := platform, online := online, fatalError := fatalError, running := true }

/-- An error that the interface does not survive. -/
def Reader.fails (s : Reader) : Reader := { s with online := false, fatalError := true }

/-- What a byte of a command says, unescaped. -/
def Reader.perform (s : Reader) (actualByte : UInt8) : List Signal × Reader :=
  if s.command = cmdData then
    ([], if s.dataBuffer.length < maxData then
        { s with dataBuffer := s.dataBuffer ++ [actualByte] } else s)
  else if s.command = cmdPlatform then ([], { s with platform := some actualByte })
  else if s.command = cmdReady then ([.processQueue], s)
  else if s.command = cmdError then
    ([], if actualByte ∈ minorErrors then s else s.fails)
  else if s.command = cmdReset then
    ([], if actualByte = 0xF8 ∧ s.platform = some platformEsp32 ∧ s.online = true then s.fails
      else s)
  else ([], s)

def Reader.processCommandByte (s : Reader) (byte : UInt8) : List Signal × Reader :=
  if byte = fesc ∧ s.command ≠ cmdData then ([], { s with escape := true })
  else if s.escape then { s with escape := false }.perform (unescaped byte)
  else if byte = fesc then ([], { s with escape := true })
  else s.perform byte

/-- What the loop finds: a byte, or none, so many milliseconds after the last one. -/
def Reader.readLoop (s : Reader) : Event → List Signal × Reader
  | .byte byte =>
      if !s.running then ([], s)
      else if s.ends byte then
        (if !s.dataBuffer.isEmpty then [.inbound s.dataBuffer] else [],
          { s with inFrame := false, dataBuffer := [] })
      else if byte == fend then
        ([], { s with inFrame := true, command := cmdUnknown, dataBuffer := [] })
      else if s.inFrame then
        if s.dataBuffer.isEmpty && s.command == cmdUnknown then ([], { s with command := byte })
        else
          let (signals, s) := s.processCommandByte byte
          (signals, if s.fatalError then { s with running := false } else s)
      else ([], s)
  | .quiet sinceLast =>
      ([], if s.running && !s.dataBuffer.isEmpty && 100 < sinceLast then
          { s with
            inFrame := false, escape := false, command := cmdUnknown, dataBuffer := [] }
        else s)

end RNode

/-! ## The law -/

namespace Kiss

/-- What is sent: a packet, or a command of the device. -/
inductive Frame
  | data (packet : Bytes)
  | command (c : UInt8) (body : Bytes)
  deriving DecidableEq

/-- The bytes of a frame. -/
def Frame.bytes : Frame → Bytes
  | .data packet => fend :: cmdData :: (escape packet ++ [fend])
  | .command c body => fend :: c :: (body ++ [fend])

/-- A packet that there is room for, or a well-formed command. -/
def Frame.Fits (limit : Nat) : Frame → Prop
  | .data packet => packet ≠ [] ∧ packet.length ≤ limit
  | .command c body => c ≠ cmdData ∧ fend ∉ body

/-- A read loop: how it starts and what it does with an event, how it is told of a byte, what it has
of a `Deframer`, whether it goes on reading, which commands it takes for commands, how much room a
packet has, and which packets a leaked escape bit harms. -/
structure Decoder (S I : Type) where
  start : S
  read : S → I → List Signal × S
  byte : UInt8 → I
  loop : S → Deframer
  reads : S → Bool
  isCommand : UInt8 → Bool
  limit : Nat
  harms : Bytes → Bool

/-- An escape bit that is set before one of the codes takes it for what it stands for. -/
def harms : Bytes → Bool
  | [] => false
  | byte :: _ => byte == tfend || byte == tfesc

/-- The KISS loop of the TCP interface. -/
def tcpDecoder (base : Base) : Decoder Deframer UInt8 where
  start := Deframer.start
  read := tcpReadByte base
  byte := id
  loop := id
  reads := fun _ => true
  isCommand := fun command => command &&& 0x0F != cmdData
  limit := Tcp.hwMtu base
  harms := harms

/-- The loop of the KISS interface. -/
def kissDecoder (base : Base) : Decoder Deframer Event where
  start := Deframer.start
  read := readLoop base
  byte := .byte
  loop := id
  reads := fun _ => true
  isCommand := fun command => command &&& 0x0F != cmdData
  limit := hwMtu base
  harms := harms

end Kiss

namespace RNode

open Kiss

/-- An escape bit that is set before an escape leaves both bytes of that, too. -/
def harms : Bytes → Bool
  | [] => false
  | byte :: rest =>
      byte == fend || byte == tfend || byte == tfesc ||
        byte == fesc && rest != List.replicate (maxData - 1) tfesc

/-- The loop of an RNode. -/
def decoder (platform : Option UInt8) (online fatalError : Bool) : Decoder Reader Event where
  start := Reader.start platform online fatalError
  read := Reader.readLoop
  byte := .byte
  loop := Reader.toDeframer
  reads := fun s => s.running && !s.fatalError
  isCommand := fun command => command != cmdData && command != cmdUnknown && command != fend
  limit := maxData
  harms := harms

end RNode

variable {packet : Bytes} {s : Reader} {c : UInt8}

namespace Kiss

variable {S I : Type} (d : Decoder S I) (noise : List I)

/-- What a loop does for noise and frames, and how it is left. -/
def Decoder.after (frames : List Frame) : List Signal × S :=
  Emit.run d.read d.start (noise ++ (frames.flatMap Frame.bytes).map d.byte)

/-- Nothing but frames came before, or a data frame. -/
def Counts (done : List Frame) : Prop := noise = [] ∨ ∃ packet, .data packet ∈ done

/-- Each packet that counts is handed over once when its frame is in, unchanged, and a command hands
nothing over, as long as the loop goes on reading. -/
structure Decoder.Delivers (frames : List Frame) : Prop where
  data : ∀ done packet more, frames = done ++ .data packet :: more → Counts noise done →
    d.reads (d.after noise done).2 →
      (d.after noise (done ++ [.data packet])).1 = (d.after noise done).1 ++ [.inbound packet]
  command : ∀ done command body more, frames = done ++ .command command body :: more →
    Counts noise done → d.reads (d.after noise done).2 → d.isCommand command →
      ∃ ready, (d.after noise (done ++ [.command command body])).1 =
        (d.after noise done).1 ++ List.replicate ready .processQueue

/-- The escape bit is not set before a packet that it harms. -/
def Decoder.Unharmed (frames : List Frame) : Prop :=
  ∀ done packet more, frames = done ++ .data packet :: more → Counts noise done →
    d.reads (d.after noise done).2 →
      ¬((d.loop (d.after noise done).2).escape = true ∧ d.harms packet = true)

/-! ## Frame by frame -/

/-- A `FEND` opens a frame. -/
def Deframer.Between (s : Deframer) : Prop := ¬(s.inFrame = true ∧ s.command = cmdData)

/-- What is needed of a loop: it does not take up reading again, a `FEND` leaves it between frames,
and there it reads packets and commands. -/
structure Decoder.Lawful : Prop where
  start : (d.loop d.start).Between
  keeps : ∀ s i, d.reads (d.read s i).2 → d.reads s
  settles : ∀ s, d.reads s → (d.loop (d.read s (d.byte fend)).2).Between
  data : ∀ s packet, d.reads s → (d.loop s).Between → packet ≠ [] → packet.length ≤ d.limit →
    ((Emit.run d.read s ((Frame.data packet).bytes.map d.byte)).1 = [.inbound packet] ↔
      ¬((d.loop s).escape = true ∧ d.harms packet = true))
  command : ∀ s command body, d.reads s → (d.loop s).Between → d.isCommand command →
    fend ∉ body →
      ∃ ready, (Emit.run d.read s ((Frame.command command body).bytes.map d.byte)).1 =
        List.replicate ready .processQueue

theorem Frame.bytes_eq (frame : Frame) : ∃ first, frame.bytes = first ++ [fend] := by
  cases frame with
  | data packet => exact ⟨fend :: cmdData :: escape packet, rfl⟩
  | command c body => exact ⟨fend :: c :: body, rfl⟩

theorem Decoder.after_append (done : List Frame) (frame : Frame) :
    d.after noise (done ++ [frame]) =
      ((d.after noise done).1 ++
          (Emit.run d.read (d.after noise done).2 (frame.bytes.map d.byte)).1,
        (Emit.run d.read (d.after noise done).2 (frame.bytes.map d.byte)).2) := by
  unfold Decoder.after
  rw [List.flatMap_append, List.flatMap_singleton, List.map_append, ← List.append_assoc,
    Emit.run_append]

variable {d}

/-- After frames, and after nothing, a loop that goes on reading is between frames. -/
theorem Decoder.Lawful.between (h : d.Lawful) {done : List Frame} (hcounts : Counts noise done)
    (hreads : d.reads (d.after noise done).2) : (d.loop (d.after noise done).2).Between := by
  rcases List.eq_nil_or_concat' done with rfl | ⟨before, frame, rfl⟩
  · rcases hcounts with rfl | ⟨packet, hpacket⟩
    · exact h.start
    · exact absurd hpacket List.not_mem_nil
  · obtain ⟨first, hfirst⟩ := frame.bytes_eq
    rw [d.after_append, hfirst, List.map_append, Emit.run_append] at hreads ⊢
    rw [List.map_singleton, Emit.run_singleton] at hreads ⊢
    exact h.settles _ (h.keeps _ _ hreads)

/-- A loop delivers exactly as far as no leaked escape bit harms a packet. -/
theorem Decoder.Lawful.delivers_iff (h : d.Lawful) {frames : List Frame}
    (hfits : ∀ frame ∈ frames, frame.Fits d.limit) :
    d.Delivers noise frames ↔ d.Unharmed noise frames := by
  have hdata : ∀ done packet more, frames = done ++ .data packet :: more → Counts noise done →
      d.reads (d.after noise done).2 →
        ((d.after noise (done ++ [.data packet])).1 = (d.after noise done).1 ++ [.inbound packet] ↔
          ¬((d.loop (d.after noise done).2).escape = true ∧ d.harms packet = true)) := by
    intro done packet more hframes hcounts hreads
    have hpacket := hfits (.data packet) (by rw [hframes]; simp)
    rw [d.after_append, List.append_cancel_left_eq]
    exact h.data _ packet hreads (h.between noise hcounts hreads) hpacket.1 hpacket.2
  constructor
  · intro hdelivers done packet more hframes hcounts hreads
    exact (hdata done packet more hframes hcounts hreads).mp
      (hdelivers.data done packet more hframes hcounts hreads)
  · intro hunharmed
    refine ⟨fun done packet more hframes hcounts hreads => ?_,
      fun done command body more hframes hcounts hreads hcommand => ?_⟩
    · exact (hdata done packet more hframes hcounts hreads).mpr
        (hunharmed done packet more hframes hcounts hreads)
    · have hbody := hfits (.command command body) (by rw [hframes]; simp)
      obtain ⟨ready, hready⟩ := h.command _ command body hreads
        (h.between noise hcounts hreads) hcommand hbody.2
      refine ⟨ready, ?_⟩
      rw [d.after_append, hready]

/-! ## The loops of the TCP and the KISS interface -/

namespace Deframer

variable (handsEmpty hearsReady : Bool) (hwMtu : Nat)

theorem readByte_inside {b : UInt8} (hb : b ≠ fend) (escape : Bool) (out : Bytes) :
    readByte handsEmpty hearsReady hwMtu ⟨true, escape, cmdData, out⟩ b =
      ([], ⟨true, (stuffing.fill hwMtu (escape, out) b).1, cmdData,
        (stuffing.fill hwMtu (escape, out) b).2⟩) := by
  have hfend : (b == fend) = false := beq_eq_false_iff_ne.mpr hb
  have hunknown : (cmdData == cmdUnknown) = false := rfl
  have hfesc : stuffing.esc = fesc := rfl
  have hmeans : stuffing.unescaped = unescaped := rfl
  unfold readByte ends Stuffing.fill
  rw [hfesc, hmeans, hfend, hunknown]
  by_cases hroom : out.length < hwMtu
  · by_cases hesc : b = fesc
    · simp [hroom, hesc]
    · simp [hroom, hesc]
  · simp [hroom]

/-- The bytes of an open data frame. -/
theorem run_inside {data : Bytes} (hdata : fend ∉ data) (escape : Bool) (out : Bytes) :
    Emit.run (readByte handsEmpty hearsReady hwMtu) ⟨true, escape, cmdData, out⟩ data =
      ([], ⟨true, (data.foldl (stuffing.fill hwMtu) (escape, out)).1, cmdData,
        (data.foldl (stuffing.fill hwMtu) (escape, out)).2⟩) := by
  induction data generalizing escape out with
  | nil => rfl
  | cons b data ih =>
      rw [List.mem_cons, not_or] at hdata
      obtain ⟨hb, hdata⟩ := hdata
      rw [Emit.run_cons, readByte_inside handsEmpty hearsReady hwMtu (Ne.symm hb), ih hdata,
        List.foldl_cons]
      rfl

variable {handsEmpty hearsReady hwMtu} in
theorem readByte_fend {s : Deframer} (hs : s.Between) :
    readByte handsEmpty hearsReady hwMtu s fend = ([], ⟨true, s.escape, cmdUnknown, []⟩) := by
  have hends : s.ends fend = false := by
    unfold ends
    rw [beq_self_eq_true, Bool.and_true, Bool.and_eq_false_iff, beq_eq_false_iff_ne]
    by_cases hin : s.inFrame = true
    · exact .inr fun hcommand => hs ⟨hin, hcommand⟩
    · exact .inl (Bool.not_eq_true _ ▸ hin)
  unfold readByte
  rw [hends]
  rfl

/-- A `FEND` leaves the loop between frames. -/
theorem between_readByte_fend (s : Deframer) :
    (readByte handsEmpty hearsReady hwMtu s fend).2.Between := by
  unfold readByte
  split
  · exact fun h => Bool.false_ne_true h.1
  · rw [if_pos (beq_self_eq_true fend)]
    intro h
    have hunknown : cmdUnknown = cmdData := h.2
    exact absurd hunknown (by decide)

/-- A data frame that comes between frames is handed over as far as the escape bit lets it. -/
theorem run_data {s : Deframer} (hs : s.Between) (hne : packet ≠ [])
    (hfits : packet.length ≤ hwMtu) :
    (Emit.run (readByte handsEmpty hearsReady hwMtu) s (Frame.data packet).bytes).1 =
      if handsEmpty || !((stuffing.escape packet).foldl (stuffing.fill hwMtu) (s.escape, [])).2.isEmpty then
        [.inbound ((stuffing.escape packet).foldl (stuffing.fill hwMtu) (s.escape, [])).2]
      else [] := by
  have hroom : 0 < hwMtu := Nat.lt_of_lt_of_le (List.length_pos_iff.mpr hne) hfits
  have hcommand : readByte handsEmpty hearsReady hwMtu ⟨true, s.escape, cmdUnknown, []⟩ cmdData =
      ([], ⟨true, s.escape, cmdData, []⟩) := by
    have hfend : (cmdData == fend) = false := rfl
    unfold readByte ends
    simp [hfend, hroom]
    rfl
  have hbody := run_inside handsEmpty hearsReady hwMtu (stuffing.flag_notMem_escape packet)
    s.escape []
  unfold Frame.bytes Kiss.escape
  rw [Emit.run_cons, readByte_fend hs]
  dsimp only
  rw [Emit.run_cons, hcommand]
  dsimp only
  rw [Emit.run_append_of_eq hbody, Emit.run_singleton]
  rfl

/-- The body of a command frame. -/
theorem run_body (hdata : c ≠ cmdData) (hunknown : c = cmdUnknown → hwMtu = 0) {body : Bytes}
    (hbody : fend ∉ body) (escape : Bool) :
    ∃ ready, Emit.run (readByte handsEmpty hearsReady hwMtu) ⟨true, escape, c, []⟩ body =
      (List.replicate ready .processQueue, ⟨true, escape, c, []⟩) := by
  induction body with
  | nil => exact ⟨0, rfl⟩
  | cons b body ih =>
      rw [List.mem_cons, not_or] at hbody
      obtain ⟨hb, hbody⟩ := hbody
      obtain ⟨ready, hready⟩ := ih hbody
      have hstep : ∃ first, readByte handsEmpty hearsReady hwMtu ⟨true, escape, c, []⟩ b =
          (List.replicate first .processQueue, ⟨true, escape, c, []⟩) := by
        have hfend : (b == fend) = false := beq_eq_false_iff_ne.mpr (Ne.symm hb)
        have hcommand : (c == cmdData) = false := beq_eq_false_iff_ne.mpr hdata
        unfold readByte ends
        rw [hfend, hcommand]
        by_cases hroom : 0 < hwMtu
        · have hknown : (c == cmdUnknown) = false :=
            beq_eq_false_iff_ne.mpr fun h => Nat.ne_of_gt hroom (hunknown h)
          by_cases hhears : (hearsReady && c == cmdReady) = true
          · exact ⟨1, by simp [hroom, hknown, hhears]⟩
          · exact ⟨0, by simp [hroom, hknown, hhears]⟩
        · exact ⟨0, by simp [hroom]⟩
      obtain ⟨first, hfirst⟩ := hstep
      refine ⟨first + ready, ?_⟩
      rw [Emit.run_cons, hfirst]
      dsimp only
      rw [hready, List.replicate_add]

theorem lowNibble_ne_unknown (c : UInt8) : c &&& 0x0F ≠ cmdUnknown := by
  intro h
  have hhigh : (c &&& 0x0F) &&& 0xF0 = cmdUnknown &&& 0xF0 := congrArg (· &&& 0xF0) h
  have hnone : (0x0F &&& 0xF0 : UInt8) = 0 := rfl
  rw [UInt8.and_assoc, hnone, UInt8.and_zero] at hhigh
  exact absurd hhigh (by decide)

/-- A command frame that comes between frames hands nothing over. -/
theorem run_command {s : Deframer} (hs : s.Between) (hc : c &&& 0x0F ≠ cmdData) {body : Bytes}
    (hbody : fend ∉ body) :
    ∃ ready, (Emit.run (readByte handsEmpty hearsReady hwMtu) s (Frame.command c body).bytes).1 =
      List.replicate ready .processQueue := by
  have hfend : (c == fend) = false := beq_eq_false_iff_ne.mpr fun h => hc (by rw [h]; rfl)
  have hcommand : ∃ held, held ≠ cmdData ∧ (held = cmdUnknown → hwMtu = 0) ∧
      readByte handsEmpty hearsReady hwMtu ⟨true, s.escape, cmdUnknown, []⟩ c =
        ([], ⟨true, s.escape, held, []⟩) := by
    have hunknown : (cmdUnknown == cmdData) = false := rfl
    by_cases hroom : 0 < hwMtu
    · refine ⟨c &&& 0x0F, hc, fun h => absurd h (lowNibble_ne_unknown c), ?_⟩
      unfold readByte ends
      simp [hfend, hroom]
    · refine ⟨cmdUnknown, by decide, fun _ => by omega, ?_⟩
      unfold readByte ends
      simp [hfend, hroom]
  obtain ⟨held, hdata, hunknown, hheld⟩ := hcommand
  obtain ⟨ready, hready⟩ := run_body handsEmpty hearsReady hwMtu hdata hunknown hbody s.escape
  have hclose : readByte handsEmpty hearsReady hwMtu ⟨true, s.escape, held, []⟩ fend =
      ([], ⟨true, s.escape, cmdUnknown, []⟩) := readByte_fend fun h => hdata h.2
  refine ⟨ready, ?_⟩
  unfold Frame.bytes
  rw [Emit.run_cons, readByte_fend hs]
  dsimp only
  rw [Emit.run_cons, hheld]
  dsimp only
  rw [Emit.run_append_of_eq hready, Emit.run_singleton, hclose]
  simp

/-- What a data frame comes to is its packet unless a leaked escape bit harms it. -/
theorem run_data_eq_iff {s : Deframer} (hs : s.Between) (hne : packet ≠ [])
    (hfits : packet.length ≤ hwMtu) :
    (Emit.run (readByte handsEmpty hearsReady hwMtu) s (Frame.data packet).bytes).1 =
        [.inbound packet] ↔
      ¬(s.escape = true ∧ harms packet = true) := by
  rw [run_data handsEmpty hearsReady hwMtu hs hne hfits]
  cases packet with
  | nil => exact absurd rfl hne
  | cons b packet =>
      cases hescape : s.escape with
      | false =>
          have hread := (stuffing.fills_fill hwMtu).escape [] (b :: packet) (by simpa using hfits)
          rw [hread]
          simp
      | true =>
          have hread := stuffing.fill_escape_of_leak hwMtu b hfits
          have hiff := stuffing.fill_leak_eq_iff hwMtu b hfits
          have hharms : harms (b :: packet) = true ↔ b = tfend ∨ b = tfesc := by
            simp [harms]
          have hfull : ((stuffing.escape (b :: packet)).foldl (stuffing.fill hwMtu) (true, [])).2.isEmpty =
              false := by
            rw [hread]
            rfl
          rw [hfull, Bool.not_false, Bool.or_true, if_pos rfl, hharms, List.cons_eq_cons,
            and_iff_left rfl, Signal.inbound.injEq, hiff, eq_self, true_and, not_or]
          rfl

end Deframer

theorem tcpDecoder_lawful (base : Base) : (tcpDecoder base).Lawful where
  start := fun h => Bool.false_ne_true h.1
  keeps := fun _ _ _ => rfl
  settles := fun s _ => s.between_readByte_fend false false (Tcp.hwMtu base)
  data := fun s packet _ hs hne hfits => by
    have hdata := s.run_data_eq_iff false false (Tcp.hwMtu base) hs hne hfits
    rw [← List.map_id (Frame.data packet).bytes] at hdata
    exact hdata
  command := fun s c body _ hs hc hbody => by
    have hcommand := Deframer.run_command false false (Tcp.hwMtu base) hs (bne_iff_ne.mp hc) hbody
    rw [← List.map_id (Frame.command c body).bytes] at hcommand
    exact hcommand

theorem kissDecoder_lawful (base : Base) : (kissDecoder base).Lawful where
  start := fun h => Bool.false_ne_true h.1
  keeps := fun _ _ _ => rfl
  settles := fun s _ => s.between_readByte_fend true true (hwMtu base)
  data := fun s packet _ hs hne hfits => by
    rw [Emit.run_map]
    exact s.run_data_eq_iff true true (hwMtu base) hs hne hfits
  command := fun s c body _ hs hc hbody => by
    rw [Emit.run_map]
    exact Deframer.run_command true true (hwMtu base) hs (bne_iff_ne.mp hc) hbody

end Kiss

/-! ## The loop of an RNode -/

namespace RNode

open Kiss

/-- A byte of a packet is kept, if there is room. -/
def keep (out : Bytes) (byte : UInt8) : Bytes :=
  if out.length < maxData then out ++ [byte] else out

/-- A byte of an open data frame. -/
def fill (s : Bool × Bytes) (byte : UInt8) : Bool × Bytes :=
  if s.1 then (false, keep s.2 (unescaped byte))
  else if byte = fesc then (true, s.2)
  else (false, keep s.2 byte)

theorem keep_eq_take (out : Bytes) (byte : UInt8) (hout : out.length ≤ maxData) :
    keep out byte = (out ++ [byte]).take maxData := by
  unfold keep
  split
  · rename_i hroom
    rw [List.take_of_length_le (by simp; omega)]
  · rename_i hroom
    have hfull : out.length = maxData := by omega
    rw [List.take_left' hfull]

theorem length_keep_le {out : Bytes} (byte : UInt8) (hout : out.length ≤ maxData) :
    (keep out byte).length ≤ maxData := by
  rw [keep_eq_take out byte hout, List.length_take]
  exact Nat.min_le_left _ _

theorem foldl_fill_stuff (b : UInt8) (out : Bytes) :
    (stuffing.stuff b).foldl fill (false, out) = (false, keep out b) := by
  unfold Stuffing.stuff
  split
  · rename_i hesc
    rw [hesc]
    rfl
  · rename_i hesc
    split
    · rename_i hflag
      rw [hflag]
      rfl
    · have hfesc : b ≠ fesc := hesc
      rw [List.foldl_cons, List.foldl_nil, fill, if_neg Bool.false_ne_true, if_neg hfesc]

/-- Of a packet as much is kept as there is room for. -/
theorem foldl_fill_escape {out : Bytes} (hout : out.length ≤ maxData) (data : Bytes) :
    (stuffing.escape data).foldl fill (false, out) = (false, (out ++ data).take maxData) := by
  induction data generalizing out with
  | nil =>
      rw [List.append_nil, List.take_of_length_le hout]
      rfl
  | cons b data ih =>
      rw [Stuffing.escape_cons, List.foldl_append, foldl_fill_stuff, ih (length_keep_le b hout),
        keep_eq_take out b hout]
      by_cases hroom : out.length < maxData
      · have hshort : (out ++ [b]).length ≤ maxData := by
          rw [List.length_append, List.length_singleton]
          omega
        rw [List.take_of_length_le hshort, List.append_assoc]
        rfl
      · have hfull : out.length = maxData := by omega
        rw [List.take_left' hfull, List.take_left' hfull, List.take_left' hfull]

/-- What a leaked escape bit makes of the first byte: an escape is kept with its code. -/
theorem foldl_fill_leak (b : UInt8) :
    (stuffing.stuff b).foldl fill (true, []) =
      (false, if b = fesc then [fesc, tfesc] else if b = fend then [fesc, tfend]
        else [unescaped b]) := by
  unfold Stuffing.stuff
  have hesc : stuffing.esc = fesc := rfl
  have hflag : stuffing.flag = fend := rfl
  rw [hesc, hflag]
  split
  · rfl
  · split
    · rfl
    · rfl

/-- A row that a further symbol at its head leaves as it is. -/
theorem take_cons_eq_iff {α : Type} (a : α) {n : Nat} {row : List α} (hrow : row.length ≤ n) :
    (a :: row).take n = row ↔ row = List.replicate n a := by
  induction n generalizing row with
  | zero =>
      rw [List.length_eq_zero_iff.mp (Nat.le_zero.mp hrow)]
      exact iff_of_true rfl rfl
  | succ n ih =>
      cases row with
      | nil => simp
      | cons b row =>
          rw [List.take_succ_cons, List.replicate_succ, List.cons_eq_cons, List.cons_eq_cons]
          constructor
          · rintro ⟨rfl, h⟩
            exact ⟨rfl, (ih (Nat.le_of_succ_le_succ hrow)).mp h⟩
          · rintro ⟨rfl, h⟩
            exact ⟨rfl, (ih (Nat.le_of_succ_le_succ hrow)).mpr h⟩

/-- A packet survives a leaked escape bit unless it is one of those that it harms. -/
theorem fill_leak_eq_iff {b : UInt8} (hfits : (b :: packet).length ≤ maxData) :
    ((stuffing.escape (b :: packet)).foldl fill (true, [])).2 = b :: packet ↔
      harms (b :: packet) = false := by
  have hshort : packet.length ≤ maxData - 1 := Nat.le_sub_one_of_lt hfits
  have hroom : ∀ first code : UInt8, [first, code].length ≤ maxData := fun _ _ => by
    simp [maxData]
  have hlong : ∀ first code : UInt8, ([first, code] ++ packet).take maxData =
      first :: (code :: packet).take (maxData - 1) := fun _ _ => rfl
  rw [Stuffing.escape_cons, List.foldl_append, foldl_fill_leak]
  by_cases hesc : b = fesc
  · have hharms : harms (fesc :: packet) = false ↔ packet = List.replicate (maxData - 1) tfesc := by
      simp only [harms, bne_eq_false_iff_eq, Bool.or_eq_false_iff, Bool.and_eq_false_iff]
      simp [fesc, fend, tfend, tfesc]
    rw [if_pos hesc, foldl_fill_escape (hroom _ _), hlong, hesc, List.cons_eq_cons, hharms,
      take_cons_eq_iff tfesc hshort]
    exact and_iff_right rfl
  · rw [if_neg hesc]
    by_cases hflag : b = fend
    · have hharms : harms (fend :: packet) = true := rfl
      rw [if_pos hflag, foldl_fill_escape (hroom _ _), hlong, hflag, List.cons_eq_cons, hharms]
      exact iff_of_false (fun h => absurd h.1 (by decide)) Bool.true_eq_false.mp
    · have hone : ([unescaped b] ++ packet).length ≤ maxData := by simpa using hfits
      have hharms : harms (b :: packet) = false ↔ unescaped b = b := by
        have hmeans := stuffing.unescaped_eq_self_iff b
        have hsame : stuffing.unescaped b = unescaped b := rfl
        rw [hsame] at hmeans
        rw [hmeans]
        simp [harms, hesc, hflag, stuffing]
      rw [if_neg hflag, foldl_fill_escape (by simp [maxData]), List.take_of_length_le hone, hharms]
      simp

namespace Reader

/-- An open data frame. -/
def inside (s : Reader) (escape : Bool) (out : Bytes) : Reader :=
  { s with inFrame := true, escape := escape, command := cmdData, dataBuffer := out }

/-- An open frame of which the command may have been read. -/
def opened (s : Reader) (command : UInt8) : Reader :=
  { s with inFrame := true, command := command, dataBuffer := [] }

theorem processCommandByte_inside (s : Reader) (escape : Bool) (out : Bytes) (b : UInt8) :
    (s.inside escape out).processCommandByte b =
      ([], s.inside (fill (escape, out) b).1 (fill (escape, out) b).2) := by
  have hperform : ∀ byte : UInt8,
      (s.inside false out).perform byte = ([], s.inside false (keep out byte)) := by
    intro byte
    have hcommand : (s.inside false out).command = cmdData := rfl
    have hbuffer : (s.inside false out).dataBuffer = out := rfl
    unfold perform keep
    rw [if_pos hcommand, hbuffer]
    by_cases hroom : out.length < maxData
    · rw [if_pos hroom, if_pos hroom]
      rfl
    · rw [if_neg hroom, if_neg hroom]
  have hdata : ¬(b = fesc ∧ (s.inside escape out).command ≠ cmdData) := fun h => h.2 rfl
  unfold processCommandByte fill
  rw [if_neg hdata]
  cases escape with
  | true => exact hperform _
  | false =>
      by_cases hesc : b = fesc
      · simp [hesc, inside]
      · rw [if_neg hesc, if_neg hesc]
        exact hperform b

section

variable (hrunning : s.running = true)

include hrunning

theorem readLoop_inside (hfatal : s.fatalError = false) {b : UInt8}
    (hb : b ≠ fend) (escape : Bool) (out : Bytes) :
    (s.inside escape out).readLoop (.byte b) =
      ([], s.inside (fill (escape, out) b).1 (fill (escape, out) b).2) := by
  have hfend : (b == fend) = false := beq_eq_false_iff_ne.mpr hb
  have hunknown : ((s.inside escape out).dataBuffer.isEmpty &&
      (s.inside escape out).command == cmdUnknown) = false := by
    have hdata : ((s.inside escape out).command == cmdUnknown) = false := rfl
    rw [hdata, Bool.and_false]
  have hends : (s.inside escape out).toDeframer.ends b = false := by
    unfold Deframer.ends
    rw [hfend, Bool.and_false, Bool.false_and]
  have hin : (s.inside escape out).inFrame = true := rfl
  have hruns : (s.inside escape out).running = true := hrunning
  have hfine : (s.inside (fill (escape, out) b).1 (fill (escape, out) b).2).fatalError = false :=
    hfatal
  rw [readLoop, hruns, hends, hfend, hin, hunknown, processCommandByte_inside]
  simp [hfine]

/-- The bytes of an open data frame. -/
theorem run_inside (hfatal : s.fatalError = false) {data : Bytes}
    (hdata : fend ∉ data) (escape : Bool) (out : Bytes) :
    Emit.run (fun s b => readLoop s (.byte b)) (s.inside escape out) data =
      ([], s.inside (data.foldl fill (escape, out)).1 (data.foldl fill (escape, out)).2) := by
  induction data generalizing escape out with
  | nil => rfl
  | cons b data ih =>
      rw [List.mem_cons, not_or] at hdata
      obtain ⟨hb, hdata⟩ := hdata
      rw [Emit.run_cons, readLoop_inside hrunning hfatal (Ne.symm hb), ih hdata, List.foldl_cons]
      rfl

theorem readLoop_fend (hs : s.Between) :
    s.readLoop (.byte fend) = ([], s.opened cmdUnknown) := by
  have hends : s.ends fend = false := by
    unfold Deframer.ends
    rw [beq_self_eq_true, Bool.and_true, Bool.and_eq_false_iff, beq_eq_false_iff_ne]
    by_cases hin : s.inFrame = true
    · exact .inr fun hcommand => hs ⟨hin, hcommand⟩
    · exact .inl (Bool.not_eq_true _ ▸ hin)
  rw [readLoop, hends]
  simp [hrunning, opened]

theorem readLoop_command (hc : c ≠ fend) :
    (s.opened cmdUnknown).readLoop (.byte c) = ([], s.opened c) := by
  have hfend : (c == fend) = false := beq_eq_false_iff_ne.mpr hc
  have hruns : (s.opened cmdUnknown).running = true := hrunning
  have hends : (s.opened cmdUnknown).toDeframer.ends c = false := by
    unfold Deframer.ends
    rw [hfend, Bool.and_false, Bool.false_and]
  rw [readLoop, hends, hfend, hruns]
  simp [opened, hrunning]

/-- What a data frame comes to is its packet unless a leaked escape bit harms it. -/
theorem run_data_eq_iff (hfatal : s.fatalError = false)
    (hs : s.Between) (hne : packet ≠ []) (hfits : packet.length ≤ maxData) :
    (Emit.run (fun s b => readLoop s (.byte b)) s (Frame.data packet).bytes).1 =
        [.inbound packet] ↔
      ¬(s.escape = true ∧ harms packet = true) := by
  have hbody := run_inside hrunning hfatal (stuffing.flag_notMem_escape packet) s.escape []
  have hclose : ∀ escape out, ((s.inside escape out).readLoop (.byte fend)).1 =
      if !out.isEmpty then [.inbound out] else [] := by
    intro escape out
    have hruns : (s.inside escape out).running = true := hrunning
    have hends : (s.inside escape out).toDeframer.ends fend = true := rfl
    rw [readLoop, hruns, hends]
    rfl
  have hrun : (Emit.run (fun s b => readLoop s (.byte b)) s (Frame.data packet).bytes).1 =
      if !((stuffing.escape packet).foldl fill (s.escape, [])).2.isEmpty then
        [.inbound ((stuffing.escape packet).foldl fill (s.escape, [])).2]
      else [] := by
    unfold Frame.bytes Kiss.escape
    rw [Emit.run_cons, readLoop_fend hrunning hs]
    dsimp only
    rw [Emit.run_cons, readLoop_command hrunning (by decide)]
    dsimp only
    have hopened : s.opened cmdData = s.inside s.escape [] := rfl
    rw [hopened, Emit.run_append_of_eq hbody, Emit.run_singleton, hclose]
    rfl
  rw [hrun]
  cases packet with
  | nil => exact absurd rfl hne
  | cons b packet =>
      cases hescape : s.escape with
      | false =>
          rw [foldl_fill_escape (Nat.zero_le _), List.nil_append, List.take_of_length_le hfits]
          simp
      | true =>
          have hiff := fill_leak_eq_iff hfits
          by_cases hempty : ((stuffing.escape (b :: packet)).foldl fill (true, [])).2.isEmpty = true
          · have hnil := List.isEmpty_iff.mp hempty
            rw [hnil] at hiff ⊢
            have hharms : RNode.harms (b :: packet) = true := by
              rw [← Bool.not_eq_false]
              exact fun h => List.cons_ne_nil _ _ (hiff.mpr h).symm
            simp [hharms]
          · rw [Bool.not_eq_true] at hempty
            rw [hempty, Bool.not_false, if_pos rfl, List.cons_eq_cons, and_iff_left rfl,
              Signal.inbound.injEq, hiff, eq_self, true_and, Bool.not_eq_true]

end

/-- What a byte of a command leaves as it is. -/
theorem perform_spec (s : Reader) (b : UInt8) :
    (s.perform b).2.running = s.running ∧ (s.perform b).2.command = s.command ∧
      (s.fatalError = true → (s.perform b).2.fatalError = true) ∧
      (s.command ≠ cmdData → (s.perform b).2.dataBuffer = s.dataBuffer ∧
        ∃ ready, (s.perform b).1 = List.replicate ready .processQueue) := by
  unfold perform
  split
  · rename_i hdata
    split
    · exact ⟨rfl, rfl, id, fun h => absurd hdata h⟩
    · exact ⟨rfl, rfl, id, fun h => absurd hdata h⟩
  · split
    · exact ⟨rfl, rfl, id, fun _ => ⟨rfl, 0, rfl⟩⟩
    · split
      · exact ⟨rfl, rfl, id, fun _ => ⟨rfl, 1, rfl⟩⟩
      · split
        · split
          · exact ⟨rfl, rfl, id, fun _ => ⟨rfl, 0, rfl⟩⟩
          · exact ⟨rfl, rfl, fun _ => rfl, fun _ => ⟨rfl, 0, rfl⟩⟩
        · split
          · split
            · exact ⟨rfl, rfl, fun _ => rfl, fun _ => ⟨rfl, 0, rfl⟩⟩
            · exact ⟨rfl, rfl, id, fun _ => ⟨rfl, 0, rfl⟩⟩
          · exact ⟨rfl, rfl, id, fun _ => ⟨rfl, 0, rfl⟩⟩

theorem processCommandByte_spec (s : Reader) (b : UInt8) :
    (s.processCommandByte b).2.running = s.running ∧
      (s.processCommandByte b).2.command = s.command ∧
      (s.fatalError = true → (s.processCommandByte b).2.fatalError = true) ∧
      (s.command ≠ cmdData → (s.processCommandByte b).2.dataBuffer = s.dataBuffer ∧
        ∃ ready, (s.processCommandByte b).1 = List.replicate ready .processQueue) := by
  unfold processCommandByte
  split
  · exact ⟨rfl, rfl, id, fun _ => ⟨rfl, 0, rfl⟩⟩
  · split
    · exact perform_spec { s with escape := false } (unescaped b)
    · split
      · exact ⟨rfl, rfl, id, fun _ => ⟨rfl, 0, rfl⟩⟩
      · exact perform_spec s b

/-- A loop that ended does not go on, and a fatal error stays. -/
theorem readLoop_keeps (s : Reader) (i : Event) :
    ((s.readLoop i).2.running = true → s.running = true) ∧
      ((s.readLoop i).2.fatalError = false → s.fatalError = false) := by
  cases i with
  | quiet sinceLast =>
      rw [readLoop]
      split
      · exact ⟨id, id⟩
      · exact ⟨id, id⟩
  | byte b =>
      obtain ⟨hrunning, -, hfatal, -⟩ := processCommandByte_spec s b
      have hfine : (s.processCommandByte b).2.fatalError = false → s.fatalError = false := by
        intro h
        by_contra hno
        rw [hfatal (Bool.not_eq_false _ ▸ hno)] at h
        cases h
      rw [readLoop]
      split
      · exact ⟨id, id⟩
      · split
        · exact ⟨id, id⟩
        · split
          · exact ⟨id, id⟩
          · split
            · split
              · exact ⟨id, id⟩
              · dsimp only
                split
                · exact ⟨fun h => absurd h Bool.false_ne_true, hfine⟩
                · exact ⟨fun h => hrunning ▸ h, hfine⟩
            · exact ⟨id, id⟩

/-- A byte of a command frame. -/
theorem readLoop_body (hdata : c ≠ cmdData) (hunknown : c ≠ cmdUnknown)
    (hs : s.command = c ∧ s.dataBuffer = []) {b : UInt8} (hb : b ≠ fend) :
    ((s.readLoop (.byte b)).2.command = c ∧ (s.readLoop (.byte b)).2.dataBuffer = []) ∧
      ∃ ready, (s.readLoop (.byte b)).1 = List.replicate ready .processQueue := by
  obtain ⟨hcommand, hbuffer⟩ := hs
  have hends : s.ends b = false := by
    unfold Deframer.ends
    rw [hcommand, beq_eq_false_iff_ne.mpr hdata, Bool.and_false]
  have hfend : (b == fend) = false := beq_eq_false_iff_ne.mpr hb
  have hknown : (s.command == cmdUnknown) = false := by
    rw [hcommand]
    exact beq_eq_false_iff_ne.mpr hunknown
  obtain ⟨-, hkept, -, hsilent⟩ := processCommandByte_spec s b
  obtain ⟨hempty, hready⟩ := hsilent (by rw [hcommand]; exact hdata)
  rw [readLoop, hends, hfend, hknown, Bool.and_false]
  split
  · exact ⟨⟨hcommand, hbuffer⟩, 0, rfl⟩
  · rw [if_neg Bool.false_ne_true, if_neg Bool.false_ne_true]
    split
    · rw [if_neg Bool.false_ne_true]
      dsimp only
      refine ⟨?_, hready⟩
      split
      · exact ⟨hkept.trans hcommand, hempty.trans hbuffer⟩
      · exact ⟨hkept.trans hcommand, hempty.trans hbuffer⟩
    · exact ⟨⟨hcommand, hbuffer⟩, 0, rfl⟩

theorem run_body (hdata : c ≠ cmdData) (hunknown : c ≠ cmdUnknown) {body : Bytes}
    (hbody : fend ∉ body) (hs : s.command = c ∧ s.dataBuffer = []) :
    (Emit.run (fun s b => readLoop s (.byte b)) s body).2.command = c ∧
      ∃ ready, (Emit.run (fun s b => readLoop s (.byte b)) s body).1 =
        List.replicate ready .processQueue := by
  induction body generalizing s with
  | nil => exact ⟨hs.1, 0, rfl⟩
  | cons b body ih =>
      rw [List.mem_cons, not_or] at hbody
      obtain ⟨hnext, first, hfirst⟩ := readLoop_body hdata hunknown hs (Ne.symm hbody.1)
      obtain ⟨hcommand, ready, hready⟩ := ih hbody.2 hnext
      refine ⟨hcommand, first + ready, ?_⟩
      rw [Emit.run_cons, List.replicate_add]
      dsimp only
      rw [hfirst, hready]

theorem readLoop_fend_silent (hs : s.command ≠ cmdData) : (s.readLoop (.byte fend)).1 = [] := by
  have hends : s.ends fend = false := by
    unfold Deframer.ends
    rw [beq_eq_false_iff_ne.mpr hs, Bool.and_false]
  rw [readLoop, hends]
  split
  · rfl
  · rfl

/-- A command frame that comes between frames hands nothing over. -/
theorem run_command (hrunning : s.running = true) (hs : s.Between) (hdata : c ≠ cmdData)
    (hunknown : c ≠ cmdUnknown) (hc : c ≠ fend) {body : Bytes} (hbody : fend ∉ body) :
    ∃ ready, (Emit.run (fun s b => readLoop s (.byte b)) s (Frame.command c body).bytes).1 =
      List.replicate ready .processQueue := by
  obtain ⟨hcommand, ready, hready⟩ := run_body hdata hunknown hbody (s := s.opened c) ⟨rfl, rfl⟩
  refine ⟨ready, ?_⟩
  unfold Frame.bytes
  rw [Emit.run_cons, readLoop_fend hrunning hs]
  dsimp only
  rw [Emit.run_cons, readLoop_command hrunning hc]
  dsimp only
  rw [Emit.run_append, Emit.run_singleton]
  dsimp only
  rw [hready, readLoop_fend_silent (by rw [hcommand]; exact hdata)]
  simp

theorem between_readLoop_fend (hrunning : s.running = true) :
    (s.readLoop (.byte fend)).2.Between := by
  rw [readLoop, hrunning]
  split
  · rename_i hstop
    exact absurd hstop Bool.false_ne_true
  · split
    · exact fun h => Bool.false_ne_true h.1
    · rw [if_pos (beq_self_eq_true fend)]
      intro h
      have hunknown : cmdUnknown = cmdData := h.2
      exact absurd hunknown (by decide)

end Reader

theorem decoder_lawful (platform : Option UInt8) (online fatalError : Bool) :
    (decoder platform online fatalError).Lawful where
  start := fun h => Bool.false_ne_true h.1
  keeps := fun s i h => by
    obtain ⟨hrunning, hfatal⟩ := s.readLoop_keeps i
    have hboth := Bool.and_eq_true_iff.mp h
    rw [Bool.not_eq_true'] at hboth
    exact Bool.and_eq_true_iff.mpr ⟨hrunning hboth.1, by rw [hfatal hboth.2]; rfl⟩
  settles := fun s hreads => Reader.between_readLoop_fend (Bool.and_eq_true_iff.mp hreads).1
  data := fun s packet hreads hs hne hfits => by
    have hboth := Bool.and_eq_true_iff.mp hreads
    rw [Bool.not_eq_true'] at hboth
    rw [Emit.run_map]
    exact Reader.run_data_eq_iff hboth.1 hboth.2 hs hne hfits
  command := fun s c body hreads hs hc hbody => by
    have hcommand : (c ≠ cmdData ∧ c ≠ cmdUnknown) ∧ c ≠ fend := by
      simpa [decoder] using hc
    rw [Emit.run_map]
    exact Reader.run_command (Bool.and_eq_true_iff.mp hreads).1 hs hcommand.1.1 hcommand.1.2
      hcommand.2 hbody

end RNode

/-! ## The three loops -/

/-- The KISS loops hand over every packet after the first, and every packet when nothing else came
before, as long as they go on reading, exactly when no leaked escape bit is set before a packet that
it harms. -/
theorem recovers_iff (base : Base) (platform : Option UInt8) (online fatalError : Bool)
    (frames : List Kiss.Frame) :
    (∀ noise, (∀ frame ∈ frames, frame.Fits (Tcp.hwMtu base)) →
      ((Kiss.tcpDecoder base).Delivers noise frames ↔
        (Kiss.tcpDecoder base).Unharmed noise frames)) ∧
    (∀ noise, (∀ frame ∈ frames, frame.Fits (Kiss.hwMtu base)) →
      ((Kiss.kissDecoder base).Delivers noise frames ↔
        (Kiss.kissDecoder base).Unharmed noise frames)) ∧
    (∀ noise, (∀ frame ∈ frames, frame.Fits RNode.maxData) →
      ((RNode.decoder platform online fatalError).Delivers noise frames ↔
        (RNode.decoder platform online fatalError).Unharmed noise frames)) :=
  ⟨fun noise hfits => (Kiss.tcpDecoder_lawful base).delivers_iff noise hfits,
    fun noise hfits => (Kiss.kissDecoder_lawful base).delivers_iff noise hfits,
    fun noise hfits => (RNode.decoder_lawful platform online fatalError).delivers_iff noise hfits⟩

/-- Two packets that begin with no code arrive over all three loops. -/
theorem recovers_iff_plain :
    (Kiss.tcpDecoder ⟨none, 0⟩).Delivers [0xC0, 0x00, 0xDB] [.data [1], .data [2]] ∧
      (Kiss.kissDecoder ⟨none, 0⟩).Delivers [] [.data [1], .data [2]] ∧
      (RNode.decoder none true false).Delivers [] [.data [1], .command 0x0F [1], .data [2]] := by
  obtain ⟨htcp, hkiss, -⟩ := recovers_iff ⟨none, 0⟩ none true false [.data [1], .data [2]]
  obtain ⟨-, -, hrnode⟩ :=
    recovers_iff ⟨none, 0⟩ none true false [.data [1], .command 0x0F [1], .data [2]]
  have hplain : ∀ done packet more,
      [Kiss.Frame.data [1], .data [2]] = done ++ .data packet :: more →
        packet = [1] ∨ packet = [2] := fun done packet more hframes => by
    have hmem : Kiss.Frame.data packet ∈ [Kiss.Frame.data [1], .data [2]] := by simp [hframes]
    simpa using hmem
  have hmixed : ∀ done packet more,
      [Kiss.Frame.data [1], .command 0x0F [1], .data [2]] = done ++ .data packet :: more →
        packet = [1] ∨ packet = [2] := fun done packet more hframes => by
    have hmem : Kiss.Frame.data packet ∈ [Kiss.Frame.data [1], .command 0x0F [1], .data [2]] := by
      simp [hframes]
    simpa using hmem
  refine ⟨(htcp _ (by simp [Kiss.Frame.Fits, Tcp.hwMtu])).mpr ?_,
    (hkiss _ (by simp [Kiss.Frame.Fits, Kiss.hwMtu])).mpr ?_,
    (hrnode _ (by simp [Kiss.Frame.Fits, RNode.maxData, Kiss.cmdData, Kiss.fend])).mpr ?_⟩
  · rintro done packet more hframes - - ⟨-, hharms⟩
    rcases hplain done packet more hframes with rfl | rfl
    · exact absurd hharms (by decide)
    · exact absurd hharms (by decide)
  · rintro done packet more hframes - - ⟨-, hharms⟩
    rcases hplain done packet more hframes with rfl | rfl
    · exact absurd hharms (by decide)
    · exact absurd hharms (by decide)
  · rintro done packet more hframes - - ⟨-, hharms⟩
    rcases hmixed done packet more hframes with rfl | rfl
    · exact absurd hharms (by decide)
    · exact absurd hharms (by decide)

/-- A frame that is cut off behind an escape, and a command frame with an escape at its end, leave
the bit set, and the packet `TFEND` arrives as `FEND`. -/
theorem recovers_false :
    ¬(Kiss.tcpDecoder ⟨none, 0⟩).Delivers [0xC0, 0x00, 0xDB] [.data [1], .data [0xDC]] ∧
      ¬(Kiss.kissDecoder ⟨none, 0⟩).Delivers [.byte 0xC0, .byte 0x00, .byte 0xDB]
        [.data [1], .data [0xDC]] ∧
      ¬(RNode.decoder none true false).Delivers [] [.command 0x01 [0xDB], .data [0xDC]] := by
  refine ⟨fun h => ?_, fun h => ?_, fun h => ?_⟩
  · have hlast := h.data [.data [1]] [0xDC] [] rfl (.inr ⟨[1], List.mem_singleton_self _⟩) rfl
    exact absurd hlast (by decide)
  · have hlast := h.data [.data [1]] [0xDC] [] rfl (.inr ⟨[1], List.mem_singleton_self _⟩) rfl
    exact absurd hlast (by decide)
  · have hlast := h.data [.command 0x01 [0xDB]] [0xDC] [] rfl (.inl rfl) (by decide)
    exact absurd hlast (by decide)

end Reticulum.Interfaces
