import Reticulum.Interfaces.Kiss
import Reticulum.Lib.Runs

/-!
# What an RNode reports

`RNodeInterface::read_loop_impl` and `process_command_byte`
(`src/interfaces/rnode_interface.rs`), with every reading that they store. Whatever the
device sends, each reading of several bytes comes from the first bytes of one frame of its
own command, unless the frame before ended in an escape or a frame begins with the byte of
`CMD_UNKNOWN`; most temperatures, however, overflow (`readings_follow`).

## Implementation notes

Operations on integers are checked, as in a debug build: one that overflows, or an index
that is out of range, ends the thread. The floating-point operations are Lean's own. What
a `READY` does with the transmit queue and what the host writes are not part of reading.
-/

namespace Reticulum.Interfaces.RNode

open Kiss

/-! ## Commands -/

/-- The commands whose reports have several bytes. -/
inductive Multibyte
  | frequency
  | bandwidth
  | stAlock
  | ltAlock
  | statRx
  | statTx
  | statChtm
  | statPhyprm
  | statBat
  | statCsma
  | fwVersion
  | fbRead
  | dispRead
  deriving DecidableEq

/-- The byte of the command. -/
def Multibyte.command : Multibyte → UInt8
  | .frequency => 0x01
  | .bandwidth => 0x02
  | .stAlock => 0x0B
  | .ltAlock => 0x0C
  | .statRx => 0x21
  | .statTx => 0x22
  | .statChtm => 0x25
  | .statPhyprm => 0x26
  | .statBat => 0x27
  | .statCsma => 0x28
  | .fwVersion => 0x50
  | .fbRead => 0x42
  | .dispRead => 0x66

/-- The bytes of a report. -/
def Multibyte.length : Multibyte → Nat
  | .frequency => 4
  | .bandwidth => 4
  | .stAlock => 2
  | .ltAlock => 2
  | .statRx => 4
  | .statTx => 4
  | .statChtm => 11
  | .statPhyprm => 12
  | .statBat => 2
  | .statCsma => 3
  | .fwVersion => 2
  | .fbRead => 512
  | .dispRead => 1024

/-- The commands that the loop knows. -/
inductive Command
  | data
  | multibyte (m : Multibyte)
  | txpower
  | sf
  | cr
  | radioState
  | radioLock
  | detect
  | ready
  | statRssi
  | statSnr
  | statTemp
  | random
  | platform
  | mcu
  | reset
  | error
  deriving DecidableEq

/-- The byte of the command. -/
def Command.byte : Command → UInt8
  | .data => cmdData
  | .multibyte m => m.command
  | .txpower => 0x03
  | .sf => 0x04
  | .cr => 0x05
  | .radioState => 0x06
  | .radioLock => 0x07
  | .detect => 0x08
  | .ready => cmdReady
  | .statRssi => 0x23
  | .statSnr => 0x24
  | .statTemp => 0x29
  | .random => 0x40
  | .platform => cmdPlatform
  | .mcu => 0x49
  | .reset => cmdReset
  | .error => cmdError

/-- The commands, as the arms of the `match`. -/
def commands : List Command :=
  [.data, .multibyte .frequency, .multibyte .bandwidth, .txpower, .sf, .cr, .radioState, .radioLock,
    .multibyte .stAlock, .multibyte .ltAlock, .multibyte .statRx, .multibyte .statTx, .statRssi,
    .statSnr, .multibyte .statChtm, .multibyte .statPhyprm, .multibyte .statCsma,
    .multibyte .statBat, .statTemp, .random, .platform, .mcu, .detect, .multibyte .fwVersion,
    .ready, .multibyte .fbRead, .multibyte .dispRead, .error, .reset]

/-- The arm that a byte selects. -/
def Command.ofByte (byte : UInt8) : Option Command := commands.find? fun c => c.byte == byte

/-! ## Readings -/

/-- `BatteryState`. -/
inductive BatteryState
  | unknown
  | discharging
  | charging
  | charged
  deriving DecidableEq

/-- `HardwareError`. -/
structure HardwareError where
  errorCode : UInt8
  description : String
  deriving DecidableEq

/-- What reading reads and writes of `RNodeInner`, and `bitrate`. Times are in milliseconds. -/
structure Inner where
  online : Bool
  detected : Bool
  rFrequency : Option UInt64
  rBandwidth : Option UInt32
  rTxpower : Option UInt8
  rSf : Option UInt8
  rCr : Option UInt8
  rState : Option UInt8
  rLock : Option UInt8
  rStAlock : Option Float32
  rLtAlock : Option Float32
  rStatRx : Option UInt32
  rStatTx : Option UInt32
  rStatRssi : Option Int
  rStatSnr : Option Float32
  rStatQ : Option Float32
  rRandom : Option UInt8
  rAirtimeShort : Float32
  rAirtimeLong : Float32
  rChannelLoadShort : Float32
  rChannelLoadLong : Float32
  rSymbolTimeMs : Option Float32
  rSymbolRate : Option Float32
  rPreambleSymbols : Option UInt16
  rPreambleTimeMs : Option Float32
  rCsmaSlotTimeMs : Option Float32
  rCsmaDifsMs : Option Float32
  rCsmaCwBand : Option UInt8
  rCsmaCwMin : Option UInt8
  rCsmaCwMax : Option UInt8
  rCurrentRssi : Option Int
  rNoiseFloor : Option Int
  rInterference : Option Float32
  rInterferenceL : Option (Nat × Float32)
  rBatteryState : BatteryState
  rBatteryPercent : UInt8
  rTemperature : Option Int
  cpuTemp : Option Int
  rFramebuffer : Bytes
  rFramebufferReadtime : Nat
  rFramebufferLatency : Nat
  rDisp : Bytes
  rDispReadtime : Nat
  rDispLatency : Nat
  platform : Option UInt8
  mcu : Option UInt8
  majVersion : UInt8
  minVersion : UInt8
  firmwareOk : Bool
  hwErrors : List HardwareError
  lastError : Option HardwareError
  fatalError : Bool
  bitrate : UInt64

/-- The readings of an interface that was just made. -/
def Inner.start : Inner where
  online := false
  detected := false
  rFrequency := none
  rBandwidth := none
  rTxpower := none
  rSf := none
  rCr := none
  rState := none
  rLock := none
  rStAlock := none
  rLtAlock := none
  rStatRx := none
  rStatTx := none
  rStatRssi := none
  rStatSnr := none
  rStatQ := none
  rRandom := none
  rAirtimeShort := 0.0
  rAirtimeLong := 0.0
  rChannelLoadShort := 0.0
  rChannelLoadLong := 0.0
  rSymbolTimeMs := none
  rSymbolRate := none
  rPreambleSymbols := none
  rPreambleTimeMs := none
  rCsmaSlotTimeMs := none
  rCsmaDifsMs := none
  rCsmaCwBand := none
  rCsmaCwMin := none
  rCsmaCwMax := none
  rCurrentRssi := none
  rNoiseFloor := none
  rInterference := none
  rInterferenceL := none
  rBatteryState := .unknown
  rBatteryPercent := 0
  rTemperature := none
  cpuTemp := none
  rFramebuffer := List.replicate 512 0
  rFramebufferReadtime := 0
  rFramebufferLatency := 0
  rDisp := List.replicate 1024 0
  rDispReadtime := 0
  rDispLatency := 0
  platform := none
  mcu := none
  majVersion := 0
  minVersion := 0
  firmwareOk := false
  hwErrors := []
  lastError := none
  fatalError := false
  bitrate := 0

/-- Why a thread panics. -/
inductive Fault
  | overflow
  | index
  deriving DecidableEq

/-- The result of an operation, where it is in the range of its type. -/
def checked (low high value : Int) : Except Fault Int :=
  if low ≤ value ∧ value ≤ high then .ok value else .error .overflow

/-- `buffer[i]`. -/
def byteAt (buffer : Bytes) (i : Nat) : Except Fault UInt8 :=
  match buffer[i]? with
  | some byte => .ok byte
  | none => .error .index

/-- Two bytes as a `u16`. -/
def word16 (b₀ b₁ : UInt8) : UInt16 := (b₀.toUInt16 <<< 8) ||| b₁.toUInt16

/-- Four bytes as a `u32`. -/
def word32 (b₀ b₁ b₂ b₃ : UInt8) : UInt32 :=
  (b₀.toUInt32 <<< 24) ||| (b₁.toUInt32 <<< 16) ||| (b₂.toUInt32 <<< 8) ||| b₃.toUInt32

/-- Four bytes as a `u64`. -/
def word64 (b₀ b₁ b₂ b₃ : UInt8) : UInt64 :=
  (b₀.toUInt64 <<< 24) ||| (b₁.toUInt64 <<< 16) ||| (b₂.toUInt64 <<< 8) ||| b₃.toUInt64

/-- The `u16` at a place of the buffer. -/
def word16At (buffer : Bytes) (i : Nat) : Except Fault UInt16 := do
  return word16 (← byteAt buffer i) (← byteAt buffer (i + 1))

/-- A strength that is reported as an offset: `RSSI_OFFSET` is taken off in `i16`. -/
def strength (byte : UInt8) : Except Fault Int := checked (-32768) 32767 (byte.toNat - 157)

/-- `update_bitrate`. -/
def Inner.updateBitrate (inner : Inner) : Inner :=
  match inner.rSf, inner.rCr, inner.rBandwidth with
  | some rSf, some rCr, some rBandwidth =>
      let sf := rSf.toFloat
      let bitrate :=
        sf * ((4.0 / rCr.toFloat) / (Float.pow 2.0 sf / (rBandwidth.toFloat / 1000.0))) * 1000.0
      { inner with rSymbolRate := some bitrate.toFloat32, bitrate := bitrate.toUInt64 }
  | _, _, _ => inner

/-- The state that a battery reports. -/
def BatteryState.ofByte (byte : UInt8) : BatteryState :=
  if byte = 0x01 then .discharging
  else if byte = 0x02 then .charging
  else if byte = 0x03 then .charged
  else .unknown

/-- Whether a firmware is recent enough: `REQUIRED_FW_VER_MAJ` is 1, `REQUIRED_FW_VER_MIN` 52. -/
def firmwareOkOf (majVersion minVersion : UInt8) : Bool :=
  1 < majVersion || (majVersion == 1 && 52 ≤ minVersion)

/-- What a whole report of several bytes is stored as. -/
def Inner.store (inner : Inner) (buffer : Bytes) (now : Nat) : Multibyte → Except Fault Inner
  | .frequency => do
      let value := word64 (← byteAt buffer 0) (← byteAt buffer 1) (← byteAt buffer 2)
        (← byteAt buffer 3)
      return { inner with rFrequency := some value }.updateBitrate
  | .bandwidth => do
      let value := word32 (← byteAt buffer 0) (← byteAt buffer 1) (← byteAt buffer 2)
        (← byteAt buffer 3)
      return { inner with rBandwidth := some value }.updateBitrate
  | .stAlock => do
      let lock ← word16At buffer 0
      return { inner with rStAlock := some (lock.toFloat32 / 100.0) }
  | .ltAlock => do
      let lock ← word16At buffer 0
      return { inner with rLtAlock := some (lock.toFloat32 / 100.0) }
  | .statRx => do
      let stat := word32 (← byteAt buffer 0) (← byteAt buffer 1) (← byteAt buffer 2)
        (← byteAt buffer 3)
      return { inner with rStatRx := some stat }
  | .statTx => do
      let stat := word32 (← byteAt buffer 0) (← byteAt buffer 1) (← byteAt buffer 2)
        (← byteAt buffer 3)
      return { inner with rStatTx := some stat }
  | .statChtm => do
      let airtimeShort ← word16At buffer 0
      let airtimeLong ← word16At buffer 2
      let chLoadShort ← word16At buffer 4
      let chLoadLong ← word16At buffer 6
      let currentRssi ← strength (← byteAt buffer 8)
      let noiseFloor ← strength (← byteAt buffer 9)
      let interference ← byteAt buffer 10
      let inner := { inner with
        rAirtimeShort := airtimeShort.toFloat32 / 100.0
        rAirtimeLong := airtimeLong.toFloat32 / 100.0
        rChannelLoadShort := chLoadShort.toFloat32 / 100.0
        rChannelLoadLong := chLoadLong.toFloat32 / 100.0
        rCurrentRssi := some currentRssi
        rNoiseFloor := some noiseFloor }
      if interference = 0xFF then return { inner with rInterference := none }
      else
        let value ← strength interference
        return { inner with
          rInterference := some (Float32.ofInt value)
          rInterferenceL := some (now, Float32.ofInt value) }
  | .statPhyprm => do
      let st ← word16At buffer 0
      let sr ← word16At buffer 2
      let prs ← word16At buffer 4
      let prt ← word16At buffer 6
      let cst ← word16At buffer 8
      let dft ← word16At buffer 10
      return { inner with
        rSymbolTimeMs := some (st.toFloat32 / 1000.0)
        rSymbolRate := some sr.toFloat32
        rPreambleSymbols := some prs
        rPreambleTimeMs := some (prt.toFloat32 / 1000.0)
        rCsmaSlotTimeMs := some cst.toFloat32
        rCsmaDifsMs := some dft.toFloat32 }
  | .statCsma => do
      return { inner with
        rCsmaCwBand := some (← byteAt buffer 0)
        rCsmaCwMin := some (← byteAt buffer 1)
        rCsmaCwMax := some (← byteAt buffer 2) }
  | .statBat => do
      return { inner with
        rBatteryState := .ofByte (← byteAt buffer 0)
        rBatteryPercent := min (← byteAt buffer 1) 100 }
  | .fwVersion => do
      let majVersion ← byteAt buffer 0
      let minVersion ← byteAt buffer 1
      return { inner with
        majVersion := majVersion, minVersion := minVersion
        firmwareOk := firmwareOkOf majVersion minVersion }
  | .fbRead => .ok { inner with
      rFramebufferLatency := now - inner.rFramebufferReadtime, rFramebuffer := buffer }
  | .dispRead => .ok { inner with
      rDispLatency := now - inner.rDispReadtime, rDisp := buffer }

/-- The description of an error, unless it is one that is not known. -/
def errorDescription (code : UInt8) : String :=
  if code = 0x01 then "Radio initialisation failure"
  else if code = 0x02 then "Hardware transmit failure"
  else if code = 0x03 then "EEPROM is locked on connected device"
  else if code = 0x04 then "Packet queue full on connected device"
  else if code = 0x05 then "Memory exhausted on connected device"
  else if code = 0x06 then "Modem communication timed out on connected device"
  else "Unknown hardware failure"

/-- The quality of a link, from `Q_SNR_MIN_BASE`, `Q_SNR_STEP` and `Q_SNR_MAX`. -/
def Inner.quality (inner : Inner) (snr : Float32) : Option Float32 :=
  match inner.rSf with
  | none => inner.rStatQ
  | some rSf =>
      let minimum : Float32 := -9.0 - (rSf.toFloat32 - 7.0) * 2.0
      let span : Float32 := 6.0 - minimum
      if span > 0.0 then
        let quality := ((snr - minimum) / span) * 100.0
        let quality := if quality > 100.0 then 100.0 else quality
        let quality := if quality < 0.0 then 0.0 else quality
        some ((quality * 10.0).round / 10.0)
      else inner.rStatQ

/-- What a byte of a report of one byte is stored as. -/
def Inner.note (inner : Inner) (byte : UInt8) : Command → Except Fault Inner
  | .txpower => .ok { inner with rTxpower := some byte }
  | .sf => .ok { inner with rSf := some byte }.updateBitrate
  | .cr => .ok { inner with rCr := some byte }.updateBitrate
  | .radioState => .ok { inner with rState := some byte }
  | .radioLock => .ok { inner with rLock := some byte }
  | .statRssi => do
      let rssi ← strength byte
      return { inner with rStatRssi := some rssi }
  | .statSnr =>
      let snr := Float32.ofInt byte.toInt8.toInt / 4.0
      .ok { inner with rStatSnr := some snr, rStatQ := inner.quality snr }
  | .statTemp => do
      -- the byte is taken for an `i8`, and 120 is taken off in `i8`
      let temp ← checked (-128) 127 (byte.toInt8.toInt - 120)
      if -30 ≤ temp ∧ temp ≤ 90 then
        return { inner with rTemperature := some temp, cpuTemp := some temp }
      else return { inner with rTemperature := none, cpuTemp := none }
  | .random => .ok { inner with rRandom := some byte }
  | .platform => .ok { inner with platform := some byte }
  | .mcu => .ok { inner with mcu := some byte }
  | .detect => .ok { inner with detected := byte == 0x46 }
  | .error =>
      let error : HardwareError := { errorCode := byte, description := errorDescription byte }
      let noted := { inner with
        hwErrors := inner.hwErrors ++ [error], lastError := some error }
      .ok (if byte ∈ minorErrors then noted
        else { noted with fatalError := true, online := false })
  | .reset =>
      .ok (if byte = 0xF8 ∧ inner.platform = some platformEsp32 ∧ inner.online = true then
          { inner with
            lastError := some { errorCode := byte, description := "ESP32 reset" }
            fatalError := true, online := false }
        else inner)
  | .data | .multibyte _ | .ready => .ok inner

/-! ## Reading -/

/-- The variables of the read loop, the readings, and whether the loop still runs. -/
structure Device extends Deframer where
  commandBuffer : Bytes
  rxb : Nat
  inner : Inner
  running : Bool

/-- The loop starts. -/
def Device.start (inner : Inner) (rxb : Nat) : Device :=
  { Deframer.start with commandBuffer := [], rxb := rxb, inner := inner, running := true }

/-- What a byte of a command says, unescaped. -/
def Device.perform (d : Device) (actualByte : UInt8) (now : Nat) :
    Except Fault (List Signal × Device) :=
  match Command.ofByte d.command with
  | none => .ok ([], d)
  | some .data => .ok ([], if d.dataBuffer.length < maxData then
      { d with dataBuffer := d.dataBuffer ++ [actualByte] } else d)
  | some (.multibyte m) =>
      let d := { d with commandBuffer := d.commandBuffer ++ [actualByte] }
      if d.commandBuffer.length = m.length then do
        let inner ← d.inner.store d.commandBuffer now m
        return ([], { d with inner := inner })
      else .ok ([], d)
  | some .ready => .ok ([.processQueue], d)
  | some command => do
      let inner ← d.inner.note actualByte command
      return ([], { d with inner := inner })

/-- `process_command_byte`. -/
def Device.processCommandByte (d : Device) (byte : UInt8) (now : Nat) :
    Except Fault (List Signal × Device) :=
  if byte = fesc ∧ d.command ≠ cmdData then .ok ([], { d with escape := true })
  else if d.escape then { d with escape := false }.perform (unescaped byte) now
  else if byte = fesc then .ok ([], { d with escape := true })
  else d.perform byte now

/-- What the loop finds: a byte, with the time; none, so many milliseconds after the last one; or
that the connection is lost. -/
inductive Input
  | byte (byte : UInt8) (now : Nat)
  | quiet (sinceLast : Nat)
  | lost

/-- One round of `read_loop_impl`. -/
def Device.readLoop (d : Device) : Input → Except Fault (List Signal × Device)
  | .byte byte now =>
      if d.ends byte then
        if d.dataBuffer.isEmpty then
          .ok ([], { d with inFrame := false, dataBuffer := [], commandBuffer := [] })
        else do
          let rxb ← checked 0 18446744073709551615 (d.rxb + d.dataBuffer.length)
          return ([.inbound d.dataBuffer],
            { d with
              inFrame := false, dataBuffer := [], commandBuffer := [], rxb := rxb.toNat
              inner := { d.inner with rStatRssi := none, rStatSnr := none } })
      else if byte == fend then
        .ok ([], { d with
          inFrame := true, command := cmdUnknown, dataBuffer := [], commandBuffer := [] })
      else if d.inFrame then
        if d.dataBuffer.isEmpty && d.command == cmdUnknown then
          .ok ([], { d with command := byte })
        else do
          let (signals, d) ← d.processCommandByte byte now
          return (signals, { d with running := !d.inner.fatalError })
      else .ok ([], d)
  | .quiet sinceLast =>
      .ok ([], if !d.dataBuffer.isEmpty && 100 < sinceLast then
          { d with
            dataBuffer := [], inFrame := false, command := cmdUnknown, escape := false }
        else d)
  | .lost => .ok ([], { d with inner := { d.inner with online := false }, running := false })

/-! ## Frames -/

/-- What was read, cut at each `FEND`. -/
structure Stream where
  ended : List Bytes
  current : Bytes

/-- All the frames. -/
def Stream.frames (stream : Stream) : List Bytes := stream.ended ++ [stream.current]

/-- The stream after this input. -/
def Stream.see (stream : Stream) : Input → Stream
  | .byte byte _ =>
      if byte = fend then { ended := stream.ended ++ [stream.current], current := [] }
      else { stream with current := stream.current ++ [byte] }
  | _ => stream

/-- The bytes of a report, without the escapes. -/
def unescapeFrom : Bool → Bytes → Bytes
  | _, [] => []
  | pending, byte :: bytes =>
      if byte = fesc then unescapeFrom true bytes
      else (if pending then unescaped byte else byte) :: unescapeFrom false bytes

/-- The bytes of a report that begins with no escape pending. -/
def unescape (bytes : Bytes) : Bytes := unescapeFrom false bytes

/-- Whether an escape is pending after these bytes of a report. -/
def pendingAfter : Bool → Bytes → Bool
  | pending, [] => pending
  | _, byte :: bytes => pendingAfter (byte == fesc) bytes

/-- The bytes of a packet, without the escapes. -/
def packetFrom : Bool → Bytes → Bytes
  | _, [] => []
  | true, byte :: bytes => unescaped byte :: packetFrom false bytes
  | false, byte :: bytes =>
      if byte = fesc then packetFrom true bytes else byte :: packetFrom false bytes

/-- Whether an escape is pending after these bytes of a packet. -/
def packetPending : Bool → Bytes → Bool
  | pending, [] => pending
  | true, _ :: bytes => packetPending false bytes
  | false, byte :: bytes => packetPending (byte == fesc) bytes

/-- A read loop, what it has read, and whether it has panicked. -/
structure Session where
  device : Device
  stream : Stream
  fault : Option Fault

/-- The loop starts on an interface. -/
def Session.start (inner : Inner) (rxb : UInt64) : Session :=
  { device := Device.start inner rxb.toNat
    stream := { ended := [], current := [] }
    fault := none }

/-- One round. After the end of the loop nothing is read. -/
def Session.step (s : Session) (input : Input) : Option Session :=
  if s.fault.isSome || !s.device.running then some s
  else
    match s.device.readLoop input with
    | .ok (_, device) => some { s with device := device, stream := s.stream.see input }
    | .error fault => some { s with stream := s.stream.see input, fault := some fault }

/-! ## Parameters -/

/-- What is read from reports of several bytes. -/
inductive Parameter
  | reported (m : Multibyte)
  | symbolRate
  | lastInterference
  deriving DecidableEq

/-- The report that a parameter is read from. -/
def Parameter.source : Parameter → Multibyte
  | .reported m => m
  | .symbolRate => .statPhyprm
  | .lastInterference => .statChtm

/-- The type of a parameter. A report of the channel or of the physical layer has several values. -/
def Parameter.Value : Parameter → Type
  | .reported .frequency => Option UInt64
  | .reported .bandwidth => Option UInt32
  | .reported .stAlock => Option Float32
  | .reported .ltAlock => Option Float32
  | .reported .statRx => Option UInt32
  | .reported .statTx => Option UInt32
  | .reported .statChtm => (Float32 × Float32 × Float32 × Float32) × Option Int × Option Int ×
      Option Float32
  | .reported .statPhyprm => Option Float32 × Option UInt16 × Option Float32 × Option Float32 ×
      Option Float32
  | .reported .statBat => BatteryState × UInt8
  | .reported .statCsma => Option UInt8 × Option UInt8 × Option UInt8
  | .reported .fwVersion => UInt8 × UInt8 × Bool
  | .reported .fbRead => Bytes
  | .reported .dispRead => Bytes
  | .symbolRate => Option Float32
  | .lastInterference => Option Float32

/-- A parameter as it is stored. -/
def Inner.value (inner : Inner) : (p : Parameter) → p.Value
  | .reported .frequency => inner.rFrequency
  | .reported .bandwidth => inner.rBandwidth
  | .reported .stAlock => inner.rStAlock
  | .reported .ltAlock => inner.rLtAlock
  | .reported .statRx => inner.rStatRx
  | .reported .statTx => inner.rStatTx
  | .reported .statChtm =>
      ((inner.rAirtimeShort, inner.rAirtimeLong, inner.rChannelLoadShort, inner.rChannelLoadLong),
        inner.rCurrentRssi, inner.rNoiseFloor, inner.rInterference)
  | .reported .statPhyprm =>
      (inner.rSymbolTimeMs, inner.rPreambleSymbols, inner.rPreambleTimeMs, inner.rCsmaSlotTimeMs,
        inner.rCsmaDifsMs)
  | .reported .statBat => (inner.rBatteryState, inner.rBatteryPercent)
  | .reported .statCsma => (inner.rCsmaCwBand, inner.rCsmaCwMin, inner.rCsmaCwMax)
  | .reported .fwVersion => (inner.majVersion, inner.minVersion, inner.firmwareOk)
  | .reported .fbRead => inner.rFramebuffer
  | .reported .dispRead => inner.rDisp
  | .symbolRate => inner.rSymbolRate
  | .lastInterference => inner.rInterferenceL.map Prod.snd

/-- What a strength is stored as. -/
def strengthOf (byte : UInt8) : Int := byte.toNat - 157

/-- A parameter as the bytes of a report say. -/
def Parameter.decode (bytes : Bytes) : (p : Parameter) → p.Value :=
  let at' (i : Nat) : UInt8 := bytes.getD i 0
  let half (i : Nat) : Float32 := (word16 (at' i) (at' (i + 1))).toFloat32
  let interference : Option Float32 :=
    if at' 10 = 0xFF then none else some (Float32.ofInt (strengthOf (at' 10)))
  fun
  | .reported .frequency => some (word64 (at' 0) (at' 1) (at' 2) (at' 3))
  | .reported .bandwidth => some (word32 (at' 0) (at' 1) (at' 2) (at' 3))
  | .reported .stAlock => some (half 0 / 100.0)
  | .reported .ltAlock => some (half 0 / 100.0)
  | .reported .statRx => some (word32 (at' 0) (at' 1) (at' 2) (at' 3))
  | .reported .statTx => some (word32 (at' 0) (at' 1) (at' 2) (at' 3))
  | .reported .statChtm =>
      ((half 0 / 100.0, half 2 / 100.0, half 4 / 100.0, half 6 / 100.0),
        some (strengthOf (at' 8)), some (strengthOf (at' 9)), interference)
  | .reported .statPhyprm =>
      (some (half 0 / 1000.0), some (word16 (at' 4) (at' 5)), some (half 6 / 1000.0), some (half 8),
        some (half 10))
  | .reported .statBat => (.ofByte (at' 0), min (at' 1) 100)
  | .reported .statCsma => (some (at' 0), some (at' 1), some (at' 2))
  | .reported .fwVersion => (at' 0, at' 1, firmwareOkOf (at' 0) (at' 1))
  | .reported .fbRead => bytes
  | .reported .dispRead => bytes
  | .symbolRate => some (half 2)
  | .lastInterference => interference

/-! ## The law -/

/-- A parameter is as it was, or as the first bytes of a frame of its command say. -/
def Follows (inner : Inner) (s : Session) (p : Parameter) : Prop :=
  s.device.inner.value p = inner.value p ∨
    ∃ payload, p.source.command :: payload ∈ s.stream.frames ∧
      p.source.length ≤ (unescape payload).length ∧
      s.device.inner.value p = p.decode ((unescape payload).take p.source.length)

/-- The stream has not broken the interface. -/
structure Lawful (inner : Inner) (s : Session) : Prop where
  faultless : s.fault = none
  bounded : s.device.dataBuffer.length ≤ maxData
  follows : ∀ p, p ≠ .symbolRate → Follows inner s p
  /-- The bytes of a data frame change no reading but the strength of the packet before. -/
  quiet : ∀ byte now signals d, s.stream.current.head? = some cmdData →
    s.device.readLoop (.byte byte now) = .ok (signals, d) →
    d.inner = { s.device.inner with
      rStatRssi := d.inner.rStatRssi, rStatSnr := d.inner.rStatSnr }
  /-- What is handed to `Transport` are the bytes of one data frame. -/
  handed : ∀ input signals d data, s.device.readLoop input = .ok (signals, d) →
    .inbound data ∈ signals →
    ∃ payload pending, s.stream.current = cmdData :: payload ∧
      data = (packetFrom pending payload).take maxData

/-- What a byte stands for, as the loop stands. -/
def Device.actual (d : Device) (byte : UInt8) : UInt8 := if d.escape then unescaped byte else byte

/-- A byte of a frame is read after the command. -/
def Device.takesIn (d : Device) (byte : UInt8) : Prop :=
  d.inFrame = true ∧ byte ≠ fend ∧ d.command ≠ cmdUnknown

/-- A temperature from 0x80 to 0xF7 is reported. -/
def Overheats (s : Session) (byte : UInt8) : Prop :=
  s.device.takesIn byte ∧ s.device.command = Command.statTemp.byte ∧ byte ≠ fesc ∧
    0x80 ≤ s.device.actual byte ∧ s.device.actual byte ≤ 0xF7

/-- An escape from before the frame is pending at the code of an escape, in the first byte of a
report of several bytes. -/
def Leaks (s : Session) (byte : UInt8) : Prop :=
  s.device.inFrame = true ∧ s.device.escape = true ∧
    (∃ m : Multibyte, s.stream.current = [m.command]) ∧ (byte = tfend ∨ byte = tfesc)

/-- A frame begins with the byte of `CMD_UNKNOWN`. -/
def BeginsUnknown (s : Session) (byte : UInt8) : Prop :=
  s.device.inFrame = true ∧ s.stream.current = [] ∧ byte = cmdUnknown

/-- The count of received bytes is at its end. -/
def CountsTooFar (s : Session) (byte : UInt8) : Prop :=
  s.device.ends byte = true ∧ 18446744073709551615 < s.device.rxb + s.device.dataBuffer.length

/-- The stream does none of this. -/
def Harmless (s : Session) : Input → Prop
  | .byte byte _ => s.device.running = true →
      ¬Overheats s byte ∧ ¬Leaks s byte ∧ ¬BeginsUnknown s byte ∧ ¬CountsTooFar s byte
  | _ => True

/-- After the report `update_bitrate` finds all that it needs. -/
def Multibyte.Completes (m : Multibyte) (inner : Inner) : Prop :=
  m = .frequency ∧ inner.rSf.isSome ∧ inner.rCr.isSome ∧ inner.rBandwidth.isSome ∨
    m = .bandwidth ∧ inner.rSf.isSome ∧ inner.rCr.isSome

/-- The next byte of a report is followed by `update_bitrate`, which finds all that it needs. -/
def Device.Recomputes (d : Device) : Prop :=
  d.command = Command.sf.byte ∧ d.inner.rCr.isSome ∧ d.inner.rBandwidth.isSome ∨
    d.command = Command.cr.byte ∧ d.inner.rSf.isSome ∧ d.inner.rBandwidth.isSome ∨
    ∃ m : Multibyte, d.command = m.command ∧ d.commandBuffer.length + 1 = m.length ∧
      m.Completes d.inner

/-- The bitrate is computed again at this byte. -/
def RecomputesBitrate (s : Session) (byte : UInt8) : Prop :=
  s.device.takesIn byte ∧ byte ≠ fesc ∧ s.device.Recomputes

/-- The symbol rate is left to the reports of the physical layer. -/
def KeepsSymbolRate (s : Session) : Input → Prop
  | .byte byte _ => s.device.running = true → ¬RecomputesBitrate s byte
  | _ => True

/-! ## Reports -/

section Reports

variable {inner inner' : Inner} {buffer : Bytes} {now : Nat} {m : Multibyte} {byte : UInt8}

theorem byteAt_of_lt {i : Nat} (h : i < buffer.length) :
    byteAt buffer i = .ok (buffer.getD i 0) := by
  have hbyte : buffer[i]? = some buffer[i] := List.getElem?_eq_getElem h
  unfold byteAt
  rw [List.getD_eq_getElem?_getD, hbyte]
  rfl

theorem word16At_of_lt {i : Nat} (h : i + 1 < buffer.length) :
    word16At buffer i = .ok (word16 (buffer.getD i 0) (buffer.getD (i + 1) 0)) := by
  unfold word16At
  rw [byteAt_of_lt h, byteAt_of_lt (Nat.lt_of_succ_lt h)]
  rfl

/-- A strength is in the range of an `i16`. -/
theorem strength_eq (byte : UInt8) : strength byte = .ok (strengthOf byte) := by
  have hbyte : byte.toNat < 256 := byte.toNat_lt
  unfold strength checked strengthOf
  rw [if_pos ⟨by omega, by omega⟩]

theorem mem_commands (c : Command) : c ∈ commands := by
  cases c with
  | multibyte m => cases m <;> decide
  | _ => decide

theorem byte_injective : ∀ c ∈ commands, ∀ c' ∈ commands, c.byte = c'.byte → c = c' := by
  decide +kernel

/-- Each byte selects the arm of its command. -/
theorem ofByte_eq_some_iff {c : Command} : Command.ofByte byte = some c ↔ byte = c.byte := by
  unfold Command.ofByte
  constructor
  · intro h
    have hbyte := List.find?_some h
    exact (beq_iff_eq.mp hbyte).symm
  · rintro rfl
    have hsome : (commands.find? fun c' => c'.byte == c.byte).isSome = true := by
      rw [List.find?_isSome]
      exact ⟨c, mem_commands c, beq_self_eq_true c.byte⟩
    obtain ⟨c', hfound⟩ := Option.isSome_iff_exists.mp hsome
    have hbyte := List.find?_some hfound
    rw [hfound, byte_injective c' (mem_commands c') c (mem_commands c) (beq_iff_eq.mp hbyte)]

/-- `update_bitrate` changes the symbol rate alone, when all that it needs is known. -/
theorem value_updateBitrate (inner : Inner) (p : Parameter) :
    inner.updateBitrate.value p = inner.value p ∨
      p = .symbolRate ∧ inner.rSf.isSome ∧ inner.rCr.isSome ∧ inner.rBandwidth.isSome := by
  unfold Inner.updateBitrate
  split
  · rename_i hsf hcr hbandwidth
    cases p with
    | reported m => exact .inl (by cases m <;> rfl)
    | symbolRate => exact .inr ⟨rfl, by simp [hsf], by simp [hcr], by simp [hbandwidth]⟩
    | lastInterference => exact .inl rfl
  · exact .inl rfl

theorem fatalError_updateBitrate (inner : Inner) :
    inner.updateBitrate.fatalError = inner.fatalError := by
  unfold Inner.updateBitrate
  split <;> rfl

/-- Each parameter is left alone or read from this report, or it is the symbol rate. -/
def Stores (m : Multibyte) (buffer : Bytes) (inner inner' : Inner) : Prop :=
  inner'.fatalError = inner.fatalError ∧
    ∀ p, inner'.value p = inner.value p ∨ p.source = m ∧ inner'.value p = p.decode buffer ∨
      p = .symbolRate ∧ m.Completes inner

theorem stores_of_updateBitrate {inner₁ : Inner} (hfatal : inner₁.fatalError = inner.fatalError)
    (h : ∀ p, inner₁.value p = inner.value p ∨ p.source = m ∧ inner₁.value p = p.decode buffer)
    (hcompletes : inner₁.rSf.isSome → inner₁.rCr.isSome → inner₁.rBandwidth.isSome →
      m.Completes inner) : Stores m buffer inner inner₁.updateBitrate := by
  refine ⟨(fatalError_updateBitrate inner₁).trans hfatal, fun p => ?_⟩
  obtain hsame | ⟨rfl, hsf, hcr, hbandwidth⟩ := value_updateBitrate inner₁ p
  · rw [hsame]
    exact (h p).imp_right .inl
  · exact .inr (.inr ⟨rfl, hcompletes hsf hcr hbandwidth⟩)

theorem stores_of_values (hfatal : inner'.fatalError = inner.fatalError)
    (h : ∀ p, inner'.value p = inner.value p ∨ p.source = m ∧ inner'.value p = p.decode buffer) :
    Stores m buffer inner inner' :=
  ⟨hfatal, fun p => (h p).imp_right .inl⟩

/-- The channel's report, whose last byte says whether there was interference. -/
theorem exists_store_statChtm (inner : Inner) (now : Nat)
    (h : buffer.length = Multibyte.statChtm.length) :
    ∃ inner', inner.store buffer now .statChtm = .ok inner' ∧
      Stores .statChtm buffer inner inner' := by
  have hbyte : ∀ i, i < 11 → byteAt buffer i = .ok (buffer.getD i 0) :=
    fun i hi => byteAt_of_lt (h ▸ hi)
  have hword : ∀ i, i + 1 < 11 →
      word16At buffer i = .ok (word16 (buffer.getD i 0) (buffer.getD (i + 1) 0)) :=
    fun i hi => word16At_of_lt (h ▸ hi)
  unfold Inner.store
  rw [hword 0 (by decide), hword 2 (by decide), hword 4 (by decide), hword 6 (by decide),
    hbyte 8 (by decide), hbyte 9 (by decide), hbyte 10 (by decide)]
  dsimp only [bind, Except.bind]
  rw [strength_eq, strength_eq]
  dsimp only
  by_cases hnone : buffer.getD 10 0 = 0xFF
  · rw [if_pos hnone]
    refine ⟨_, rfl, stores_of_values rfl ?_⟩
    rintro (m | _ | _)
    · cases m <;> first | exact .inl rfl | skip
      refine .inr ⟨rfl, ?_⟩
      dsimp only [Parameter.decode]
      rw [if_pos hnone]
      rfl
    all_goals exact .inl rfl
  · rw [if_neg hnone, strength_eq]
    refine ⟨_, rfl, stores_of_values rfl ?_⟩
    rintro (m | _ | _)
    · cases m <;> first | exact .inl rfl | skip
      refine .inr ⟨rfl, ?_⟩
      dsimp only [Parameter.decode]
      rw [if_neg hnone]
      rfl
    · exact .inl rfl
    · refine .inr ⟨rfl, ?_⟩
      dsimp only [Parameter.decode]
      rw [if_neg hnone]
      rfl

/-- A report of the right length is stored. -/
theorem exists_store (inner : Inner) (now : Nat) (h : buffer.length = m.length) :
    ∃ inner', inner.store buffer now m = .ok inner' ∧ Stores m buffer inner inner' := by
  have hbyte : ∀ i, i < m.length → byteAt buffer i = .ok (buffer.getD i 0) :=
    fun i hi => byteAt_of_lt (h ▸ hi)
  have hword : ∀ i, i + 1 < m.length →
      word16At buffer i = .ok (word16 (buffer.getD i 0) (buffer.getD (i + 1) 0)) :=
    fun i hi => word16At_of_lt (h ▸ hi)
  cases m with
  | frequency | bandwidth =>
      unfold Inner.store
      rw [hbyte 0 (by decide), hbyte 1 (by decide), hbyte 2 (by decide), hbyte 3 (by decide)]
      refine ⟨_, rfl, stores_of_updateBitrate rfl ?_ ?_⟩
      · rintro (m | _ | _)
        · cases m <;> first | exact .inl rfl | exact .inr ⟨rfl, rfl⟩
        all_goals exact .inl rfl
      · intro hsf hcr hbandwidth
        first
          | exact .inl ⟨rfl, hsf, hcr, hbandwidth⟩
          | exact .inr ⟨rfl, hsf, hcr⟩
  | statChtm => exact exists_store_statChtm inner now h
  | stAlock | ltAlock | statRx | statTx | statPhyprm | statBat | statCsma | fwVersion | fbRead
  | dispRead =>
      unfold Inner.store
      -- What the arm reads of the report is there, whether it reads bytes or words.
      simp (disch := decide) only [hbyte, hword]
      refine ⟨_, rfl, stores_of_values rfl ?_⟩
      rintro (m | _ | _)
      · cases m <;> first | exact .inl rfl | exact .inr ⟨rfl, rfl⟩
      all_goals first | exact .inl rfl | exact .inr ⟨rfl, rfl⟩

/-- A byte that is too hot for an `i8`. -/
theorem temperature_fits_iff (byte : UInt8) :
    (-128 ≤ byte.toInt8.toInt - 120 ∧ byte.toInt8.toInt - 120 ≤ 127) ↔
      ¬(0x80 ≤ byte ∧ byte ≤ 0xF7) := by
  have hint : byte.toInt8.toInt = if 2 * byte.toNat < 256 then (byte.toNat : Int)
      else (byte.toNat : Int) - 256 := BitVec.toInt_eq_toNat_cond byte.toBitVec
  have hbyte : byte.toNat < 256 := byte.toNat_lt
  rw [hint, UInt8.le_iff_toNat_le, UInt8.le_iff_toNat_le]
  have hlow : (0x80 : UInt8).toNat = 128 := rfl
  have hhigh : (0xF7 : UInt8).toNat = 247 := rfl
  rw [hlow, hhigh]
  split <;> omega

/-- A byte of a report of one byte is noted, unless it is too hot. -/
theorem exists_note (inner : Inner) (c : Command)
    (hcool : c = .statTemp → ¬(0x80 ≤ byte ∧ byte ≤ 0xF7)) :
    ∃ inner', inner.note byte c = .ok inner' ∧ ∀ p, inner'.value p = inner.value p ∨
      p = .symbolRate ∧ (c = .sf ∧ inner.rCr.isSome ∧ inner.rBandwidth.isSome ∨
        c = .cr ∧ inner.rSf.isSome ∧ inner.rBandwidth.isSome) := by
  have hsame : ∀ inner₁ : Inner, (∀ p, inner₁.value p = inner.value p) →
      ∀ p, inner₁.value p = inner.value p ∨
        p = .symbolRate ∧ (c = .sf ∧ inner.rCr.isSome ∧ inner.rBandwidth.isSome ∨
          c = .cr ∧ inner.rSf.isSome ∧ inner.rBandwidth.isSome) :=
    fun inner₁ h p => .inl (h p)
  cases c with
  | sf =>
      refine ⟨_, rfl, fun p => ?_⟩
      obtain hvalue | ⟨rfl, -, hcr, hbandwidth⟩ :=
        value_updateBitrate { inner with rSf := some byte } p
      · refine .inl (hvalue.trans ?_)
        cases p with
        | reported m => cases m <;> rfl
        | _ => rfl
      · exact .inr ⟨rfl, .inl ⟨rfl, hcr, hbandwidth⟩⟩
  | cr =>
      refine ⟨_, rfl, fun p => ?_⟩
      obtain hvalue | ⟨rfl, hsf, -, hbandwidth⟩ :=
        value_updateBitrate { inner with rCr := some byte } p
      · refine .inl (hvalue.trans ?_)
        cases p with
        | reported m => cases m <;> rfl
        | _ => rfl
      · exact .inr ⟨rfl, .inr ⟨rfl, hsf, hbandwidth⟩⟩
  | statRssi =>
      unfold Inner.note
      rw [strength_eq]
      refine ⟨_, rfl, hsame _ ?_⟩
      rintro (m | _ | _) <;> rfl
  | statTemp =>
      unfold Inner.note checked
      rw [if_pos ((temperature_fits_iff byte).mpr (hcool rfl))]
      dsimp only [bind, Except.bind]
      split <;>
      · refine ⟨_, rfl, hsame _ ?_⟩
        rintro (m | _ | _) <;> rfl
  | error =>
      refine ⟨_, rfl, hsame _ ?_⟩
      split <;> rintro (m | _ | _) <;> rfl
  | reset =>
      refine ⟨_, rfl, hsame _ ?_⟩
      split <;> rintro (m | _ | _) <;> rfl
  | _ =>
      refine ⟨_, rfl, hsame _ ?_⟩
      rintro (m | _ | _) <;> rfl

end Reports

/-! ## One byte of a frame -/

/-- What a byte of a report or of a packet has changed. -/
structure Performed (d : Device) (byte : UInt8) (d' : Device) : Prop where
  inFrame : d'.inFrame = d.inFrame
  escape : d'.escape = d.escape
  command : d'.command = d.command
  inData : d.command = cmdData → d'.inner = d.inner ∧
    d'.dataBuffer = if d.dataBuffer.length < maxData then d.dataBuffer ++ [byte] else d.dataBuffer
  inReport : d.command ≠ cmdData → d'.dataBuffer = d.dataBuffer
  gathered : ∀ m : Multibyte, d.command = m.command → d'.commandBuffer = d.commandBuffer ++ [byte]
  values : ∀ p, d'.inner.value p = d.inner.value p ∨
    (p.source.command = d.command ∧ (d.commandBuffer ++ [byte]).length = p.source.length ∧
      d'.inner.value p = p.decode (d.commandBuffer ++ [byte])) ∨
    p = .symbolRate ∧ d.Recomputes

section Bytes

variable {d : Device} {byte : UInt8} {now : Nat}

theorem command_ne_data (m : Multibyte) : m.command ≠ cmdData := by
  cases m <;> decide

/-- A byte is performed without a panic, unless it is too hot, and hands nothing over. -/
theorem exists_performed (d : Device) (byte : UInt8) (now : Nat)
    (hcool : d.command = Command.statTemp.byte → ¬(0x80 ≤ byte ∧ byte ≤ 0xF7)) :
    ∃ signals d', d.perform byte now = .ok (signals, d') ∧ (∀ data, .inbound data ∉ signals) ∧
      Performed d byte d' := by
  unfold Device.perform
  cases hcommand : Command.ofByte d.command with
  | none =>
      have hother : ∀ c : Command, d.command ≠ c.byte := by
        intro c hc
        rw [ofByte_eq_some_iff.mpr hc] at hcommand
        cases hcommand
      exact ⟨_, _, rfl, by simp,
        { inFrame := rfl, escape := rfl, command := rfl
          inData := fun h => absurd h (hother .data)
          inReport := fun _ => rfl
          gathered := fun m h => absurd h (hother (.multibyte m))
          values := fun p => .inl rfl }⟩
  | some c =>
      have hbyte := ofByte_eq_some_iff.mp hcommand
      have hnone : ∀ data, Signal.inbound data ∉ ([] : List Signal) := by simp
      have hcool' : c = .statTemp → ¬(0x80 ≤ byte ∧ byte ≤ 0xF7) := by
        rintro rfl
        exact hcool hbyte
      obtain ⟨inner', hnote, hvalues⟩ := exists_note d.inner c hcool'
      have hnoted : c ≠ .data → (∀ m, c ≠ .multibyte m) →
          Performed d byte { d with inner := inner' } := by
        intro hdata hreport
        exact
          { inFrame := rfl, escape := rfl, command := rfl
            inData := fun h => by
              have hc := hcommand.symm.trans (ofByte_eq_some_iff (c := .data).mpr h)
              exact absurd (Option.some.inj hc) hdata
            inReport := fun _ => rfl
            gathered := fun m h => by
              have hc := hcommand.symm.trans (ofByte_eq_some_iff (c := .multibyte m).mpr h)
              exact absurd (Option.some.inj hc) (hreport m)
            values := fun p => by
              obtain hsame | ⟨hrate, ⟨rfl, hknown⟩ | ⟨rfl, hknown⟩⟩ := hvalues p
              · exact .inl hsame
              · exact .inr (.inr ⟨hrate, .inl ⟨hbyte, hknown⟩⟩)
              · exact .inr (.inr ⟨hrate, .inr (.inl ⟨hbyte, hknown⟩)⟩) }
      cases c with
      | data =>
          refine ⟨_, _, rfl, hnone, ?_⟩
          split <;> rename_i hlength
          · exact
              { inFrame := rfl, escape := rfl, command := rfl
                inData := fun _ => ⟨rfl, (if_pos hlength).symm⟩
                inReport := fun h => absurd hbyte h
                gathered := fun m h => absurd (h.symm.trans hbyte) (command_ne_data m)
                values := fun p => .inl rfl }
          · exact
              { inFrame := rfl, escape := rfl, command := rfl
                inData := fun _ => ⟨rfl, (if_neg hlength).symm⟩
                inReport := fun h => absurd hbyte h
                gathered := fun m h => absurd (h.symm.trans hbyte) (command_ne_data m)
                values := fun p => .inl rfl }
      | multibyte m =>
          have hdata : d.command ≠ cmdData := fun h => command_ne_data m (hbyte.symm.trans h)
          dsimp only
          split
          · rename_i hlength
            obtain ⟨inner', hstore, -, hstores⟩ := exists_store d.inner now hlength
            rw [hstore]
            refine ⟨_, _, rfl, hnone,
              { inFrame := rfl, escape := rfl, command := rfl
                inData := fun h => absurd h hdata
                inReport := fun _ => rfl
                gathered := fun _ _ => rfl
                values := fun p => ?_ }⟩
            obtain hsame | ⟨hsource, hvalue⟩ | ⟨hrate, hcompletes⟩ := hstores p
            · exact .inl hsame
            · exact .inr (.inl ⟨by rw [hsource, hbyte]; rfl, by rw [hsource, hlength], hvalue⟩)
            · have hcount : d.commandBuffer.length + 1 = m.length := by simpa using hlength
              exact .inr (.inr ⟨hrate, .inr (.inr ⟨m, hbyte, hcount, hcompletes⟩)⟩)
          · exact ⟨_, _, rfl, hnone,
              { inFrame := rfl, escape := rfl, command := rfl
                inData := fun h => absurd h hdata
                inReport := fun _ => rfl
                gathered := fun _ _ => rfl
                values := fun p => .inl rfl }⟩
      | ready =>
          obtain rfl : d.inner = inner' := Except.ok.inj hnote
          exact ⟨_, _, rfl, by simp, hnoted (by simp) (by simp)⟩
      | _ =>
          dsimp only
          rw [hnote]
          exact ⟨_, _, rfl, hnone, hnoted (by simp) (by simp)⟩

/-- `process_command_byte` notes an escape or performs the byte. -/
theorem processCommandByte_cases (d : Device) (byte : UInt8) (now : Nat)
    (hcool : d.command = Command.statTemp.byte → byte ≠ fesc →
      ¬(0x80 ≤ d.actual byte ∧ d.actual byte ≤ 0xF7)) :
    (byte = fesc ∧ (d.command = cmdData → d.escape = false) ∧
      d.processCommandByte byte now = .ok ([], { d with escape := true })) ∨
    (byte = fesc → d.command = cmdData ∧ d.escape = true) ∧
      ∃ signals d', d.processCommandByte byte now = .ok (signals, d') ∧
        (∀ data, .inbound data ∉ signals) ∧
        Performed { d with escape := false } (d.actual byte) d' := by
  unfold Device.processCommandByte
  by_cases hreport : byte = fesc ∧ d.command ≠ cmdData
  · rw [if_pos hreport]
    exact .inl ⟨hreport.1, fun h => absurd h hreport.2, rfl⟩
  rw [if_neg hreport]
  have hdata : byte = fesc → d.command = cmdData := fun h => by
    by_contra hother
    exact hreport ⟨h, hother⟩
  have hcool' : d.command = Command.statTemp.byte →
      ¬(0x80 ≤ d.actual byte ∧ d.actual byte ≤ 0xF7) := by
    intro hcommand
    refine hcool hcommand fun h => ?_
    exact absurd (hcommand.symm.trans (hdata h)) (by decide)
  by_cases hescape : d.escape = true
  · rw [if_pos hescape]
    have hactual : d.actual byte = unescaped byte := if_pos hescape
    rw [hactual] at hcool' ⊢
    exact .inr ⟨fun h => ⟨hdata h, hescape⟩,
      exists_performed { d with escape := false } (unescaped byte) now hcool'⟩
  · rw [if_neg hescape]
    have hactual : d.actual byte = byte := if_neg hescape
    rw [hactual] at hcool' ⊢
    have hoff : { d with escape := false } = d := by
      have hfalse : d.escape = false := by simpa using hescape
      rw [← hfalse]
    by_cases hfesc : byte = fesc
    · rw [if_pos hfesc]
      exact .inl ⟨hfesc, fun _ => by simpa using hescape, rfl⟩
    · rw [if_neg hfesc, hoff]
      exact .inr ⟨fun h => absurd h hfesc, exists_performed d byte now hcool'⟩

end Bytes

/-! ## Escapes -/

section Escapes

variable {byte : UInt8} {bytes : Bytes}

theorem unescapeFrom_append (pending : Bool) (bytes : Bytes) (byte : UInt8) :
    unescapeFrom pending (bytes ++ [byte]) = unescapeFrom pending bytes ++
      if byte = fesc then []
      else [if pendingAfter pending bytes then unescaped byte else byte] := by
  induction bytes generalizing pending with
  | nil =>
      simp only [List.nil_append, unescapeFrom, pendingAfter]
      split <;> rfl
  | cons first bytes ih =>
      have hpending : pendingAfter pending (first :: bytes) =
        pendingAfter (first == fesc) bytes := rfl
      rw [hpending, List.cons_append, unescapeFrom, unescapeFrom]
      by_cases hfirst : first = fesc
      · rw [if_pos hfirst, if_pos hfirst, ih, beq_iff_eq.mpr hfirst]
      · rw [if_neg hfirst, if_neg hfirst, ih, beq_eq_false_iff_ne.mpr hfirst]
        rfl

theorem pendingAfter_append (pending : Bool) (bytes : Bytes) (byte : UInt8) :
    pendingAfter pending (bytes ++ [byte]) = (byte == fesc) := by
  induction bytes generalizing pending with
  | nil => rfl
  | cons first bytes ih => exact ih (first == fesc)

/-- More bytes of a report leave the first ones as they are. -/
theorem unescape_prefix (bytes : Bytes) (byte : UInt8) :
    unescape bytes <+: unescape (bytes ++ [byte]) := by
  unfold unescape
  rw [unescapeFrom_append]
  exact List.prefix_append _ _

theorem packetFrom_append (pending : Bool) (bytes : Bytes) (byte : UInt8) :
    packetFrom pending (bytes ++ [byte]) = packetFrom pending bytes ++
      if packetPending pending bytes then [unescaped byte]
      else if byte = fesc then [] else [byte] := by
  induction bytes generalizing pending with
  | nil => cases pending <;> simp [packetFrom, packetPending]
  | cons first bytes ih =>
      cases pending with
      | true => exact congrArg (unescaped first :: ·) (ih false)
      | false =>
          have hpending : packetPending false (first :: bytes) =
            packetPending (first == fesc) bytes := rfl
          rw [hpending, List.cons_append, packetFrom, packetFrom]
          by_cases hfirst : first = fesc
          · rw [if_pos hfirst, if_pos hfirst, ih, beq_iff_eq.mpr hfirst]
          · rw [if_neg hfirst, if_neg hfirst, ih, beq_eq_false_iff_ne.mpr hfirst]
            rfl

theorem packetPending_append (pending : Bool) (bytes : Bytes) (byte : UInt8) :
    packetPending pending (bytes ++ [byte]) =
      (!packetPending pending bytes && byte == fesc) := by
  induction bytes generalizing pending with
  | nil => cases pending <;> simp [packetPending]
  | cons first bytes ih =>
      cases pending with
      | true => exact ih false
      | false => exact ih (first == fesc)

/-- A buffer that takes in as much as fits. -/
theorem take_concat (packet : Bytes) (byte : UInt8) (n : Nat) :
    (if (packet.take n).length < n then packet.take n ++ [byte] else packet.take n) =
      (packet ++ [byte]).take n := by
  by_cases h : packet.length < n
  · have hall : packet.take n = packet := List.take_of_length_le h.le
    rw [hall, if_pos h, List.take_of_length_le]
    rw [List.length_append]
    exact h
  · have hle : n ≤ packet.length := not_lt.mp h
    have hlength : (packet.take n).length = n := List.length_take_of_le hle
    rw [hlength, if_neg (Nat.lt_irrefl n), List.take_append_of_le_length hle]

end Escapes

/-! ## One round of the loop -/

/-- After the command of a frame, the buffers hold what was read of it. -/
structure Inside (d : Device) (payload : Bytes) : Prop where
  packet : d.command = cmdData → ∃ pending,
    d.dataBuffer = (packetFrom pending payload).take maxData ∧
      d.escape = packetPending pending payload
  noPacket : d.command ≠ cmdData → d.dataBuffer = []
  report : ∀ m : Multibyte, d.command = m.command →
    d.commandBuffer = unescape payload ∧ (payload ≠ [] → d.escape = pendingAfter false payload)

/-- The loop is where the stream is. -/
structure Tracks (d : Device) (stream : Stream) : Prop where
  outside : d.inFrame = false → d.dataBuffer = []
  opened : d.inFrame = true → d.command = cmdUnknown →
    stream.current = [] ∧ d.dataBuffer = [] ∧ d.commandBuffer = []
  inside : d.inFrame = true → d.command ≠ cmdUnknown →
    ∃ payload, stream.current = d.command :: payload ∧ Inside d payload

/-- What a round makes of a byte. -/
structure ReadsByte (s : Session) (byte : UInt8) (signals : List Signal) (d : Device)
    (stream : Stream) : Prop where
  tracks : Tracks d stream
  values : ∀ p, d.inner.value p = s.device.inner.value p ∨
    (∃ payload, stream.current = p.source.command :: payload ∧
      (unescape payload).length = p.source.length ∧
      d.inner.value p = p.decode (unescape payload)) ∨
    p = .symbolRate ∧ RecomputesBitrate s byte
  quiet : s.stream.current.head? = some cmdData →
    d.inner = { s.device.inner with
      rStatRssi := d.inner.rStatRssi, rStatSnr := d.inner.rStatSnr }
  handed : ∀ data, .inbound data ∈ signals → ∃ payload pending,
    s.stream.current = cmdData :: payload ∧ data = (packetFrom pending payload).take maxData

section Rounds

variable {d d' : Device} {s : Session} {stream : Stream} {byte : UInt8} {now : Nat}
  {payload : Bytes} {inner : Inner} {p : Parameter}

theorem unescaped_of_ne (h : byte ≠ tfend) (h' : byte ≠ tfesc) : unescaped byte = byte := by
  unfold unescaped
  rw [if_neg h, if_neg h']

/-- An escape is noted. -/
theorem Inside.escape (h : Inside d payload) (hescape : d.command = cmdData → d.escape = false) :
    Inside { d with escape := true } (payload ++ [fesc]) where
  packet := by
    intro hdata
    obtain ⟨pending, hbuffer, hpending⟩ := h.packet hdata
    have hoff : packetPending pending payload = false := hpending.symm.trans (hescape hdata)
    refine ⟨pending, ?_, ?_⟩
    · rw [packetFrom_append, hoff]
      simpa using hbuffer
    · rw [packetPending_append, hoff]
      rfl
  noPacket := h.noPacket
  report := by
    intro m hcommand
    obtain ⟨hbuffer, -⟩ := h.report m hcommand
    refine ⟨?_, fun _ => ?_⟩
    · unfold unescape
      rw [unescapeFrom_append, if_pos rfl, List.append_nil]
      exact hbuffer
    · rw [pendingAfter_append]
      rfl

/-- A byte is performed. -/
theorem Inside.performed (h : Inside d payload)
    (hfesc : byte = fesc → d.command = cmdData ∧ d.escape = true)
    (hleak : ∀ m : Multibyte, d.command = m.command → payload = [] → d.escape = true →
      byte ≠ tfend ∧ byte ≠ tfesc)
    (hperformed : Performed { d with escape := false } (d.actual byte) d') :
    Inside d' (payload ++ [byte]) where
  packet := by
    intro hcommand
    have hdata : d.command = cmdData := hperformed.command.symm.trans hcommand
    obtain ⟨pending, hbuffer, hpending⟩ := h.packet hdata
    obtain ⟨-, hbuffer'⟩ := hperformed.inData hdata
    have hescape' : d'.escape = false := hperformed.escape
    have hbytes : packetFrom pending (payload ++ [byte]) =
        packetFrom pending payload ++ [d.actual byte] := by
      rw [packetFrom_append]
      unfold Device.actual
      rw [hpending]
      split
      · rfl
      · rename_i hoff
        have hne : byte ≠ fesc := fun heq => hoff (hpending ▸ (hfesc heq).2)
        rw [if_neg hne]
    refine ⟨pending, ?_, ?_⟩
    · rw [hbytes, ← take_concat, ← hbuffer]
      exact hbuffer'
    · rw [hescape', packetPending_append, ← hpending]
      by_cases hescape : d.escape = true
      · rw [hescape]
        rfl
      · have hne : byte ≠ fesc := fun heq => hescape (hfesc heq).2
        rw [beq_eq_false_iff_ne.mpr hne, Bool.and_false]
  noPacket := by
    intro hcommand
    have hother : d.command ≠ cmdData := fun hdata => hcommand (hperformed.command.trans hdata)
    exact (hperformed.inReport hother).trans (h.noPacket hother)
  report := by
    intro m hcommand
    have hm : d.command = m.command := hperformed.command.symm.trans hcommand
    have hother : byte ≠ fesc := fun heq =>
      command_ne_data m (hm.symm.trans (hfesc heq).1)
    obtain ⟨hbuffer, hescape⟩ := h.report m hm
    have hactual : (if pendingAfter false payload then unescaped byte else byte) =
        d.actual byte := by
      unfold Device.actual
      by_cases hempty : payload = []
      · subst hempty
        by_cases hpending : d.escape = true
        · obtain ⟨hne, hne'⟩ := hleak m hm rfl hpending
          rw [if_pos hpending, unescaped_of_ne hne hne']
          rfl
        · rw [if_neg hpending]
          rfl
      · rw [hescape hempty]
    refine ⟨?_, fun _ => ?_⟩
    · unfold unescape
      rw [unescapeFrom_append, if_neg hother, hactual]
      exact (hperformed.gathered m hm).trans (congrArg (· ++ [d.actual byte]) hbuffer)
    · rw [pendingAfter_append, beq_eq_false_iff_ne.mpr hother]
      exact hperformed.escape

theorem see_of_ne (hne : byte ≠ fend) (stream : Stream) (now : Nat) :
    stream.see (.byte byte now) = { stream with current := stream.current ++ [byte] } :=
  if_neg hne

section

variable (htracks : Tracks s.device s.stream)

include htracks

/-- A byte inside a frame. -/
theorem exists_inside (hin : s.device.inFrame = true)
    (hne : byte ≠ fend) (hcommand : s.device.command ≠ cmdUnknown) (now : Nat)
    (hhot : ¬Overheats s byte) (hleak : ¬Leaks s byte) :
    ∃ signals d, s.device.processCommandByte byte now = .ok (signals, d) ∧
      ReadsByte s byte signals { d with running := !d.inner.fatalError }
        (s.stream.see (.byte byte now)) := by
  obtain ⟨payload, hcurrent, hinside⟩ := htracks.inside hin hcommand
  have hcool : s.device.command = Command.statTemp.byte → byte ≠ fesc →
      ¬(0x80 ≤ s.device.actual byte ∧ s.device.actual byte ≤ 0xF7) :=
    fun htemp hfesc hrange => hhot ⟨⟨hin, hne, hcommand⟩, htemp, hfesc, hrange⟩
  have hnext : ∀ d' : Device, d'.inFrame = true → d'.command = s.device.command →
      Inside d' (payload ++ [byte]) → Tracks d' (s.stream.see (.byte byte now)) := by
    intro d' hin' hcommand' hinside'
    refine ⟨fun hout => absurd (hin'.symm.trans hout) Bool.noConfusion,
      fun _ hunknown => absurd (hcommand'.symm.trans hunknown) hcommand, fun _ _ => ?_⟩
    refine ⟨payload ++ [byte], ?_, hinside'⟩
    rw [see_of_ne hne, hcurrent, hcommand']
    rfl
  obtain ⟨rfl, hoff, hresult⟩ | ⟨hfesc, signals, d', hresult, hsignals, hperformed⟩ :=
    processCommandByte_cases s.device byte now hcool
  · refine ⟨_, _, hresult, ?_⟩
    have hescaped := hinside.escape hoff
    exact
      { tracks := hnext _ hin rfl ⟨hescaped.packet, hescaped.noPacket, hescaped.report⟩
        values := fun p => .inl rfl
        quiet := fun _ => rfl
        handed := fun data hmem => absurd hmem List.not_mem_nil }
  · refine ⟨signals, d', hresult, ?_⟩
    have hpending : ∀ m : Multibyte, s.device.command = m.command → payload = [] →
        s.device.escape = true → byte ≠ tfend ∧ byte ≠ tfesc := by
      intro m hm hempty hescape
      rw [← not_or]
      intro hcode
      exact hleak ⟨hin, hescape, ⟨m, by rw [hcurrent, hm, hempty]⟩, hcode⟩
    have hafter := hinside.performed hfesc hpending hperformed
    have hcommand' : d'.command = s.device.command := hperformed.command
    refine
      { tracks := hnext _ (hperformed.inFrame.trans hin) hcommand'
          ⟨hafter.packet, hafter.noPacket, hafter.report⟩
        values := fun p => ?_, quiet := fun hhead => ?_
        handed := fun data hmem => absurd hmem (hsignals data) }
    · obtain hsame | ⟨hsource, hlength, hvalue⟩ | ⟨hrate, hrecomputes⟩ := hperformed.values p
      · exact .inl hsame
      · obtain ⟨hbuffer, -⟩ := hafter.report p.source (hcommand'.trans hsource.symm)
        have hgathered : d'.commandBuffer = s.device.commandBuffer ++ [s.device.actual byte] :=
          hperformed.gathered p.source hsource.symm
        have hbytes : s.device.commandBuffer ++ [s.device.actual byte] =
            unescape (payload ++ [byte]) := hgathered.symm.trans hbuffer
        refine .inr (.inl ⟨payload ++ [byte], ?_, ?_, ?_⟩)
        · rw [see_of_ne hne, hcurrent, hsource]
          rfl
        · rw [← hbytes]
          exact hlength
        · rw [← hbytes]
          exact hvalue
      · have hreport : byte ≠ fesc := by
          intro heq
          have hdata := (hfesc heq).1
          obtain ⟨h, -⟩ | ⟨h, -⟩ | ⟨m, h, -⟩ := hrecomputes
          · exact absurd (hdata.symm.trans h) (by decide)
          · exact absurd (hdata.symm.trans h) (by decide)
          · exact command_ne_data m (h.symm.trans hdata)
        exact .inr (.inr ⟨hrate, ⟨hin, hne, hcommand⟩, hreport, hrecomputes⟩)
    · rw [hcurrent] at hhead
      have hdata : s.device.command = cmdData := Option.some.inj hhead
      obtain ⟨hinner, -⟩ := hperformed.inData hdata
      dsimp only at hinner ⊢
      rw [hinner]

/-- The `FEND` of a data frame. -/
theorem exists_ended (hends : s.device.ends byte = true)
    (now : Nat) (hcount : ¬CountsTooFar s byte) :
    ∃ signals d, (if s.device.dataBuffer.isEmpty then
        .ok ([], { s.device with inFrame := false, dataBuffer := [], commandBuffer := [] })
      else do
        let rxb ← checked 0 18446744073709551615 (s.device.rxb + s.device.dataBuffer.length)
        return ([Signal.inbound s.device.dataBuffer],
          { s.device with
            inFrame := false, dataBuffer := [], commandBuffer := [], rxb := rxb.toNat
            inner := { s.device.inner with rStatRssi := none, rStatSnr := none } })) =
        (.ok (signals, d) : Except Fault (List Signal × Device)) ∧
      ReadsByte s byte signals d (s.stream.see (.byte byte now)) := by
  obtain ⟨⟨hin, -⟩, hcommand⟩ : (s.device.inFrame = true ∧ byte = fend) ∧
      s.device.command = cmdData := by
    simpa [Deframer.ends] using hends
  have hknown : s.device.command ≠ cmdUnknown := hcommand ▸ (by decide)
  obtain ⟨payload, hcurrent, hinside⟩ := htracks.inside hin hknown
  obtain ⟨pending, hbuffer, -⟩ := hinside.packet hcommand
  have hclosed : ∀ d' : Device, d'.inFrame = false → d'.dataBuffer = [] →
      Tracks d' (s.stream.see (.byte byte now)) := by
    intro d' hout hempty
    exact ⟨fun _ => hempty, fun h => absurd (h.symm.trans hout) Bool.noConfusion,
      fun h => absurd (h.symm.trans hout) Bool.noConfusion⟩
  split
  · exact ⟨_, _, rfl,
      { tracks := hclosed _ rfl rfl
        values := fun p => .inl rfl
        quiet := fun _ => rfl
        handed := fun data hmem => absurd hmem List.not_mem_nil }⟩
  · have hfits : (0 : Int) ≤ s.device.rxb + s.device.dataBuffer.length ∧
        (s.device.rxb + s.device.dataBuffer.length : Int) ≤ 18446744073709551615 := by
      have hle : ¬18446744073709551615 < s.device.rxb + s.device.dataBuffer.length :=
        fun h => hcount ⟨hends, h⟩
      omega
    unfold checked
    rw [if_pos hfits]
    refine ⟨_, _, rfl,
      { tracks := hclosed _ rfl rfl, values := fun p => .inl ?_, quiet := fun _ => rfl
        handed := fun data hmem => ⟨payload, pending, ?_, ?_⟩ }⟩
    · cases p with
      | reported m => cases m <;> rfl
      | _ => rfl
    · rw [hcurrent, hcommand]
    · obtain rfl : data = s.device.dataBuffer := by simpa using hmem
      exact hbuffer

/-- A byte is read without a panic while the stream is harmless. -/
theorem exists_readsByte (now : Nat)
    (hharmless : ¬Overheats s byte ∧ ¬Leaks s byte ∧ ¬BeginsUnknown s byte ∧ ¬CountsTooFar s byte) :
    ∃ signals d, s.device.readLoop (.byte byte now) = .ok (signals, d) ∧
      ReadsByte s byte signals d (s.stream.see (.byte byte now)) := by
  obtain ⟨hhot, hleak, hunknown, hcount⟩ := hharmless
  unfold Device.readLoop
  dsimp only
  by_cases hends : s.device.ends byte = true
  · rw [if_pos hends]
    exact exists_ended htracks hends now hcount
  rw [if_neg hends]
  by_cases hfend : byte = fend
  · subst hfend
    rw [if_pos (beq_self_eq_true fend)]
    exact ⟨_, _, rfl,
      { tracks := ⟨fun hout => absurd hout.symm Bool.false_ne_true,
          fun _ _ => ⟨by simp [Stream.see], rfl, rfl⟩, fun _ hother => absurd rfl hother⟩
        values := fun p => .inl rfl
        quiet := fun _ => rfl
        handed := fun data hmem => absurd hmem List.not_mem_nil }⟩
  rw [if_neg (by simpa using hfend)]
  by_cases hin : s.device.inFrame = true
  swap
  · rw [if_neg hin]
    have hout : s.device.inFrame = false := by simpa using hin
    exact ⟨_, _, rfl,
      { tracks := ⟨htracks.outside, fun h => absurd h hin, fun h => absurd h hin⟩
        values := fun p => .inl rfl
        quiet := fun _ => rfl
        handed := fun data hmem => absurd hmem List.not_mem_nil }⟩
  rw [if_pos hin]
  by_cases hcommand : s.device.command = cmdUnknown
  · obtain ⟨hcurrent, hdata, hbuffer⟩ := htracks.opened hin hcommand
    have hknown : byte ≠ cmdUnknown := fun h => hunknown ⟨hin, hcurrent, h⟩
    rw [hdata, hcommand, if_pos (by decide)]
    refine ⟨_, _, rfl,
      { tracks := ⟨fun hout => absurd (hin.symm.trans hout) Bool.noConfusion,
          fun _ h => absurd h hknown, fun _ _ => ⟨[], ?_, ?_⟩⟩
        values := fun p => .inl rfl
        quiet := fun _ => rfl
        handed := fun data hmem => absurd hmem List.not_mem_nil }⟩
    · rw [see_of_ne hfend, hcurrent]
      rfl
    · exact
        { packet := fun _ => ⟨s.device.escape, by cases s.device.escape <;> rfl,
            by cases s.device.escape <;> rfl⟩
          noPacket := fun _ => rfl
          report := fun m _ => ⟨hbuffer, fun h => absurd rfl h⟩ }
  · obtain ⟨signals, d, hresult, hreads⟩ := exists_inside htracks hin hfend hcommand now hhot hleak
    have hdata : (s.device.dataBuffer.isEmpty && s.device.command == cmdUnknown) = false := by
      simp [hcommand]
    rw [hdata, if_neg Bool.false_ne_true, hresult]
    exact ⟨_, _, rfl, hreads⟩

end

theorem Tracks.bounded (h : Tracks d stream) : d.dataBuffer.length ≤ maxData := by
  by_cases hin : d.inFrame = true
  swap
  · rw [h.outside (by simpa using hin)]
    exact Nat.zero_le _
  by_cases hcommand : d.command = cmdUnknown
  · rw [(h.opened hin hcommand).2.1]
    exact Nat.zero_le _
  obtain ⟨payload, -, hinside⟩ := h.inside hin hcommand
  by_cases hdata : d.command = cmdData
  · obtain ⟨pending, hbuffer, -⟩ := hinside.packet hdata
    rw [hbuffer]
    exact List.length_take_le _ _
  · rw [hinside.noPacket hdata]
    exact Nat.zero_le _

end Rounds

/-! ## Panics -/

section Panics

variable {s : Session} {byte : UInt8} {now : Nat}

/-- A temperature that is too hot ends the thread. -/
theorem readLoop_overheats (h : Overheats s byte) (now : Nat) :
    s.device.readLoop (.byte byte now) = .error .overflow := by
  obtain ⟨⟨hin, hfend, hknown⟩, hcommand, hfesc, hhot⟩ := h
  have hperform : ∀ d : Device, d.command = Command.statTemp.byte →
      d.perform (s.device.actual byte) now = .error .overflow := by
    intro d hd
    unfold Device.perform
    rw [hd, ofByte_eq_some_iff.mpr rfl]
    dsimp only
    unfold Inner.note checked
    rw [if_neg (fun hfits => (temperature_fits_iff _).mp hfits hhot)]
    rfl
  have hprocess : s.device.processCommandByte byte now = .error .overflow := by
    unfold Device.processCommandByte
    rw [if_neg (fun h => hfesc h.1)]
    by_cases hescape : s.device.escape = true
    · have hactual : s.device.actual byte = unescaped byte := if_pos hescape
      rw [if_pos hescape, ← hactual]
      exact hperform _ hcommand
    · have hactual : s.device.actual byte = byte := if_neg hescape
      rw [if_neg hescape, if_neg hfesc]
      exact hactual ▸ hperform _ hcommand
  unfold Device.readLoop
  dsimp only
  have hends : s.device.ends byte = false := by simp [Deframer.ends, hfend]
  rw [hends, if_neg Bool.false_ne_true, if_neg (by simpa using hfend), if_pos hin,
    if_neg (by simp [hknown]), hprocess]
  rfl

/-- So does a count that is too far. -/
theorem readLoop_countsTooFar (h : CountsTooFar s byte)
    (hbounded : s.device.rxb ≤ 18446744073709551615) (now : Nat) :
    s.device.readLoop (.byte byte now) = .error .overflow := by
  obtain ⟨hends, hfar⟩ := h
  have hdata : s.device.dataBuffer.isEmpty = false := by
    cases hbuffer : s.device.dataBuffer with
    | nil =>
        rw [hbuffer] at hfar
        exact absurd hfar (not_lt.mpr hbounded)
    | cons first rest => rfl
  unfold Device.readLoop
  dsimp only
  rw [if_pos hends, hdata, if_neg Bool.false_ne_true]
  unfold checked
  rw [if_neg (by omega)]
  rfl

/-- Nothing else does. -/
theorem exists_readLoop (hhot : ¬Overheats s byte) (hcount : ¬CountsTooFar s byte) (now : Nat) :
    ∃ signals d, s.device.readLoop (.byte byte now) = .ok (signals, d) ∧
      (s.device.ends byte = false → ∀ data, .inbound data ∉ signals) := by
  unfold Device.readLoop
  dsimp only
  have hnone : ∀ data, Signal.inbound data ∉ ([] : List Signal) := by simp
  by_cases hends : s.device.ends byte = true
  · rw [if_pos hends]
    split
    · exact ⟨_, _, rfl, fun _ => hnone⟩
    · have hle : ¬18446744073709551615 < s.device.rxb + s.device.dataBuffer.length :=
        fun h => hcount ⟨hends, h⟩
      unfold checked
      rw [if_pos (by omega)]
      exact ⟨_, _, rfl, fun h => absurd (hends.symm.trans h) Bool.noConfusion⟩
  rw [if_neg hends]
  split
  · exact ⟨_, _, rfl, fun _ => hnone⟩
  rename_i hfend
  split
  swap
  · exact ⟨_, _, rfl, fun _ => hnone⟩
  rename_i hin
  split
  · exact ⟨_, _, rfl, fun _ => hnone⟩
  rename_i hopening
  have hcool : s.device.command = Command.statTemp.byte → byte ≠ fesc →
      ¬(0x80 ≤ s.device.actual byte ∧ s.device.actual byte ≤ 0xF7) := by
    intro htemp hfesc hrange
    refine hhot ⟨⟨hin, by simpa using hfend, ?_⟩, htemp, hfesc, hrange⟩
    rw [htemp]
    decide
  obtain ⟨-, -, hresult⟩ | ⟨-, signals, d, hresult, hsignals, -⟩ :=
    processCommandByte_cases s.device byte now hcool
  · rw [hresult]
    exact ⟨_, _, rfl, fun _ => hnone⟩
  · rw [hresult]
    exact ⟨_, _, rfl, fun _ => hsignals⟩

/-- A byte panics exactly when it is a temperature that is too hot or the count is too far. -/
theorem readLoop_panics_iff (hbounded : s.device.rxb ≤ 18446744073709551615) (now : Nat) :
    s.device.readLoop (.byte byte now) = .error .overflow ↔
      Overheats s byte ∨ CountsTooFar s byte := by
  constructor
  · intro hpanics
    by_contra hneither
    rw [not_or] at hneither
    obtain ⟨signals, d, hresult, -⟩ := exists_readLoop hneither.1 hneither.2 now
    rw [hresult] at hpanics
    cases hpanics
  · rintro (hhot | hcount)
    · exact readLoop_overheats hhot now
    · exact readLoop_countsTooFar hcount hbounded now

end Panics

/-! ## Runs -/

section Kept

variable {inner : Inner} {s s' : Session} {input : Input} {signals : List Signal} {d : Device}
  {p : Parameter}

/-- A frame that was read stays, or it is the last one and goes on. -/
theorem exists_frame_see {frame : Bytes} {stream : Stream} (input : Input)
    (h : frame ∈ stream.frames) :
    frame ∈ (stream.see input).frames ∨ ∃ byte, frame ++ [byte] ∈ (stream.see input).frames := by
  cases input with
  | byte byte now =>
      by_cases hfend : byte = fend
      · refine .inl ?_
        have hsee : stream.see (.byte byte now) =
          { ended := stream.ended ++ [stream.current], current := [] } := if_pos hfend
        rw [hsee]
        exact List.mem_append_left _ h
      · rw [see_of_ne hfend]
        obtain hended | hcurrent := List.mem_append.mp h
        · exact .inl (List.mem_append_left _ hended)
        · obtain rfl := List.mem_singleton.mp hcurrent
          exact .inr ⟨byte, List.mem_append_right _ (List.mem_singleton_self _)⟩
  | _ => exact .inl h

/-- A parameter that is left alone still follows what was read. -/
theorem Follows.see (h : Follows inner s p) (hvalue : d.inner.value p = s.device.inner.value p)
    (input : Input) :
    Follows inner { s with device := d, stream := s.stream.see input } p := by
  obtain hsame | ⟨payload, hframe, hlength, hdecode⟩ := h
  · exact .inl (hvalue.trans hsame)
  obtain hkept | ⟨byte, hgrown⟩ := exists_frame_see input hframe
  · exact .inr ⟨payload, hkept, hlength, hvalue.trans hdecode⟩
  obtain ⟨rest, hrest⟩ := unescape_prefix payload byte
  refine .inr ⟨payload ++ [byte], hgrown, ?_, ?_⟩
  · rw [← hrest, List.length_append]
    omega
  · rw [← hrest, List.take_append_of_le_length hlength]
    exact hvalue.trans hdecode

/-- The invariant of a harmless stream. -/
structure Kept (inner : Inner) (s : Session) : Prop where
  faultless : s.fault = none
  tracks : Tracks s.device s.stream
  follows : ∀ p, p ≠ .symbolRate → Follows inner s p

theorem kept_start (inner : Inner) (rxb : UInt64) : Kept inner (Session.start inner rxb) where
  faultless := rfl
  tracks := ⟨fun _ => rfl, fun h => absurd h Bool.false_ne_true,
    fun h => absurd h Bool.false_ne_true⟩
  follows := fun _ _ => .inl rfl

/-- What a round of a harmless stream keeps. -/
theorem step_of_harmless (h : Kept inner s) (hok : Harmless s input)
    (hstep : s.step input = some s') :
    s'.fault = none ∧ Tracks s'.device s'.stream ∧
      ∀ p, (p = .symbolRate → KeepsSymbolRate s input) → Follows inner s p →
        Follows inner s' p := by
  unfold Session.step at hstep
  by_cases hstopped : (s.fault.isSome || !s.device.running) = true
  · rw [if_pos hstopped] at hstep
    obtain rfl := Option.some.inj hstep
    exact ⟨h.faultless, h.tracks, fun _ _ hp => hp⟩
  rw [if_neg hstopped] at hstep
  have hrunning : s.device.running = true := by
    simp only [Bool.or_eq_true, not_or, Bool.not_eq_true', Bool.not_eq_false] at hstopped
    exact hstopped.2
  cases input with
  | byte byte now =>
      obtain ⟨signals, d, hresult, hreads⟩ := exists_readsByte h.tracks now (hok hrunning)
      rw [hresult] at hstep
      obtain rfl := Option.some.inj hstep
      refine ⟨h.faultless, hreads.tracks, fun p hrate hp => ?_⟩
      obtain hsame | ⟨payload, hcurrent, hlength, hvalue⟩ | ⟨rfl, hrecomputes⟩ := hreads.values p
      · exact hp.see hsame _
      · refine .inr ⟨payload, ?_, hlength.ge, ?_⟩
        · exact List.mem_append_right _ (by rw [hcurrent]; exact List.mem_singleton_self _)
        · rw [List.take_of_length_le hlength.le]
          exact hvalue
      · exact absurd hrecomputes (hrate rfl hrunning)
  | quiet sinceLast =>
      obtain rfl := Option.some.inj hstep
      dsimp only
      split
      · refine ⟨h.faultless, ⟨fun _ => rfl, ?_, ?_⟩, fun p _ hp => hp.see rfl (.quiet sinceLast)⟩
        all_goals exact fun hin => absurd hin Bool.false_ne_true
      · exact ⟨h.faultless, h.tracks, fun p _ hp => hp.see rfl (.quiet sinceLast)⟩
  | lost =>
      obtain rfl := Option.some.inj hstep
      refine ⟨h.faultless, ⟨h.tracks.outside, h.tracks.opened, fun hin hcommand => ?_⟩,
        fun p _ hp => hp.see ?_ .lost⟩
      · obtain ⟨payload, hcurrent, hinside⟩ := h.tracks.inside hin hcommand
        exact ⟨payload, hcurrent, hinside.packet, hinside.noPacket, hinside.report⟩
      · cases p with
        | reported m => cases m <;> rfl
        | _ => rfl

theorem Kept.step (h : Kept inner s) (hok : Harmless s input) (hstep : s.step input = some s') :
    Kept inner s' := by
  obtain ⟨hfault, htracks, hfollows⟩ := step_of_harmless h hok hstep
  exact ⟨hfault, htracks, fun p hp => hfollows p (fun hrate => absurd hrate hp) (h.follows p hp)⟩

/-- What is handed over is the packet of the frame. -/
theorem Tracks.handed (h : Tracks s.device s.stream) {data : Bytes}
    (hresult : s.device.readLoop input = .ok (signals, d)) (hmem : .inbound data ∈ signals) :
    ∃ payload pending, s.stream.current = cmdData :: payload ∧
      data = (packetFrom pending payload).take maxData := by
  cases input with
  | byte byte now =>
      by_cases hends : s.device.ends byte = true
      · obtain ⟨⟨hin, -⟩, hcommand⟩ : (s.device.inFrame = true ∧ byte = fend) ∧
            s.device.command = cmdData := by
          simpa [Deframer.ends] using hends
        obtain ⟨payload, hcurrent, hinside⟩ := h.inside hin (hcommand ▸ (by decide))
        obtain ⟨pending, hbuffer, -⟩ := hinside.packet hcommand
        refine ⟨payload, pending, by rw [hcurrent, hcommand], ?_⟩
        rw [← hbuffer]
        unfold Device.readLoop checked at hresult
        dsimp only at hresult
        rw [if_pos hends] at hresult
        by_cases hempty : s.device.dataBuffer.isEmpty = true
        · rw [if_pos hempty] at hresult
          cases hresult
          exact absurd hmem List.not_mem_nil
        · rw [if_neg hempty] at hresult
          by_cases hfits : (0 : Int) ≤ s.device.rxb + s.device.dataBuffer.length ∧
              (s.device.rxb + s.device.dataBuffer.length : Int) ≤ 18446744073709551615
          · rw [if_pos hfits] at hresult
            cases hresult
            simpa using hmem
          · rw [if_neg hfits] at hresult
            cases hresult
      · have hends' : s.device.ends byte = false := by simpa using hends
        have hhot : ¬Overheats s byte := by
          intro hhot
          rw [readLoop_overheats hhot now] at hresult
          cases hresult
        obtain ⟨signals', d', hresult', hnone⟩ :=
          exists_readLoop hhot (fun hcount => hends hcount.1) now
        rw [hresult'] at hresult
        cases hresult
        exact absurd hmem (hnone hends' data)
  | _ =>
      cases hresult
      exact absurd hmem List.not_mem_nil

/-- A byte of a data frame changes no reading but the strength of the packet before. -/
theorem Tracks.quiet (h : Tracks s.device s.stream) {byte : UInt8} {now : Nat}
    (hhead : s.stream.current.head? = some cmdData)
    (hresult : s.device.readLoop (.byte byte now) = .ok (signals, d)) :
    d.inner = { s.device.inner with
      rStatRssi := d.inner.rStatRssi, rStatSnr := d.inner.rStatSnr } := by
  have hcurrent : s.stream.current ≠ [] := by
    intro hempty
    rw [hempty] at hhead
    cases hhead
  have hleak : ¬Leaks s byte := by
    rintro ⟨-, -, ⟨m, hm⟩, -⟩
    rw [hm] at hhead
    exact command_ne_data m (Option.some.inj hhead)
  have hunknown : ¬BeginsUnknown s byte := fun hbegins => hcurrent hbegins.2.1
  have hhot : ¬Overheats s byte := by
    intro hhot
    rw [readLoop_overheats hhot now] at hresult
    cases hresult
  by_cases hcount : CountsTooFar s byte
  · -- the count is not in range, so the loop has found nothing to hand over
    unfold Device.readLoop checked at hresult
    dsimp only at hresult
    rw [if_pos hcount.1] at hresult
    split at hresult
    · cases hresult
      rfl
    · rw [if_neg (by have hfar := hcount.2; omega)] at hresult
      cases hresult
  · obtain ⟨signals', d', hresult', hreads⟩ :=
      exists_readsByte h now ⟨hhot, hleak, hunknown, hcount⟩
    rw [hresult'] at hresult
    cases hresult
    exact hreads.quiet hhead

theorem Kept.lawful (h : Kept inner s) : Lawful inner s where
  faultless := h.faultless
  bounded := h.tracks.bounded
  follows := h.follows
  quiet := fun _ _ _ _ hhead hresult => h.tracks.quiet hhead hresult
  handed := fun _ _ _ _ hresult hmem => h.tracks.handed hresult hmem

end Kept

/-- While the device reports no temperature from 0x80 to 0xF7, no escape is pending where a report
of several bytes begins with the code of one, no frame begins with `CMD_UNKNOWN` and the count of
received bytes is not at its end, nothing panics, no packet is longer than 508 bytes, data stays
out of the readings and the readings out of `Transport`, and each parameter is read from the first
bytes of one frame of its own command; the symbol rate too, while the bitrate is not computed
again. -/
theorem readings_follow (inner : Inner) (rxb : UInt64) (inputs : List Input)
    (hharmless : Runs.Meets Session.step Harmless (Session.start inner rxb) inputs) :
    Runs.Always Session.step (Lawful inner) (Session.start inner rxb) inputs ∧
      (Runs.Meets Session.step KeepsSymbolRate (Session.start inner rxb) inputs →
        Runs.Always Session.step (fun s => Follows inner s .symbolRate)
          (Session.start inner rxb) inputs) := by
  constructor
  · have hkept := Runs.always_of_meets (P := Kept inner)
      (fun _ _ _ h hok hstep => h.step hok hstep) (kept_start inner rxb) hharmless
    exact fun done s hdone hrun => (hkept done s hdone hrun).lawful
  · intro hrate
    have hkept := Runs.always_of_meets (P := fun s => Kept inner s ∧ Follows inner s .symbolRate)
      (fun s input s' h hok hstep => ⟨h.1.step hok.1 hstep,
        (step_of_harmless h.1 hok.1 hstep).2.2 .symbolRate (fun _ => hok.2) h.2⟩)
      ⟨kept_start inner rxb, .inl rfl⟩ (Runs.meets_and hharmless hrate)
    exact fun done s hdone hrun => (hkept done s hdone hrun).2

/-! ## Two streams -/

section Samples

/-- A byte that is outside an escape, no temperature, not that of `CMD_UNKNOWN` and no end of a
packet does no harm. -/
theorem harmless_of_plain {s : Session} {byte : UInt8} {now : Nat}
    (h : s.device.escape = false ∧ s.device.command ≠ Command.statTemp.byte ∧ byte ≠ cmdUnknown ∧
      s.device.ends byte = false) : Harmless s (.byte byte now) := by
  obtain ⟨hescape, hcommand, hunknown, hends⟩ := h
  refine fun _ => ⟨fun hhot => hcommand hhot.2.1, fun hleak => ?_,
    fun hbegins => hunknown hbegins.2.2, fun hcount => ?_⟩
  · exact Bool.false_ne_true (hescape.symm.trans hleak.2.1)
  · exact Bool.false_ne_true (hends.symm.trans hcount.1)

/-- The report of 868 MHz. -/
def sampleReport : List Input :=
  [.byte 0xC0 0, .byte 0x01 0, .byte 0x33 0, .byte 0xBC 0, .byte 0xA1 0, .byte 0x00 0]

/-- The report of a temperature of 8 degrees. -/
def sampleTemperature : List Input := [.byte 0xC0 0, .byte 0x29 0, .byte 0x80 0]

/-- The frequency is read. -/
theorem readings_follow_frequency :
    ∃ s, Runs.exec Session.step (Session.start .start 0) sampleReport = some s ∧
      s.device.inner.rFrequency = some 868000000 ∧ Lawful .start s := by
  have hmeets : Runs.Meets Session.step Harmless (Session.start .start 0) sampleReport := by
    intro s₁ h₁
    cases h₁
    refine ⟨harmless_of_plain (by decide), fun s₂ h₂ => ?_⟩
    cases h₂
    refine ⟨harmless_of_plain (by decide), fun s₃ h₃ => ?_⟩
    cases h₃
    refine ⟨harmless_of_plain (by decide), fun s₄ h₄ => ?_⟩
    cases h₄
    refine ⟨harmless_of_plain (by decide), fun s₅ h₅ => ?_⟩
    cases h₅
    refine ⟨harmless_of_plain (by decide), fun s₆ h₆ => ?_⟩
    cases h₆
    exact ⟨harmless_of_plain (by decide), True.intro⟩
  refine ⟨_, rfl, rfl, ?_⟩
  exact (readings_follow .start 0 sampleReport hmeets).1 _ _ List.prefix_rfl rfl

/-- A report of 8 degrees ends the thread. -/
theorem readings_follow_false :
    ¬∀ (inner : Inner) (rxb : UInt64) (inputs : List Input),
      Runs.Always Session.step (Lawful inner) (Session.start inner rxb) inputs := by
  intro h
  have hlawful := h .start 0 sampleTemperature _ _ List.prefix_rfl rfl
  exact absurd hlawful.faultless (by decide)

end Samples

end Reticulum.Interfaces.RNode
