import Reticulum.Channel.Receive
import Reticulum.Lib.Runs

/-!
# Streams over a channel

A `RawChannelWriter` cuts what it is given into `StreamDataMessage`s, and the
`RawChannelReader` of the same stream id puts the bytes together again
(`src/buffer.rs`). Every writer and every reader of a channel shares it, and
the messages carry the stream id in 14 bits of their header.

## Implementation notes

The compressor is a parameter: the code relies on decompression giving back
what was compressed. The outlet's `mdu` is that of an established link and does
not change. Whether the channel is ready for a message is an argument of
`send`, which ends where it hands the envelope to the outlet: what it keeps for
retransmission is not read here, and its wait for its own lock comes later. The
channel delivers every message once and in order, so the envelopes in flight
are a queue.
-/

namespace Reticulum.Channel

/-- `compress_bytes` and `decompress_bytes`, which may fail. -/
class Bz2 where
  compressBytes : Bytes → Option Bytes
  decompressBytes : Bytes → Option Bytes
  decompress_compress : ∀ {data compressed},
    compressBytes data = some compressed → decompressBytes compressed = some data

structure StreamDataMessage where
  streamId : UInt16
  data : Bytes
  eof : Bool
  compressed : Bool
  deriving DecidableEq, Repr

variable (m : StreamDataMessage)

namespace StreamDataMessage

def streamIdMax : UInt16 := 0x3fff

def overhead : Nat := 2 + 6

def streamData : Nat := 0xff00

def default : StreamDataMessage :=
  { streamId := 0, data := [], eof := false, compressed := false }

/-- The header of a message: the stream id with the two flags above it. -/
def headerVal (m : StreamDataMessage) : UInt16 :=
  let headerVal := m.streamId &&& streamIdMax
  let headerVal := if m.eof then headerVal ||| 0x8000 else headerVal
  if m.compressed then headerVal ||| 0x4000 else headerVal

def pack (m : StreamDataMessage) : Bytes :=
  Bytes.ofU16 m.headerVal.toNat ++ m.data

/-- `StreamDataMessage::unpack`. A payload that does not decompress is kept as
it is. -/
def unpack [Bz2] (m : StreamDataMessage) : Bytes → StreamDataMessage
  | high :: low :: data =>
      let header := UInt16.ofNat (Bytes.toU16 high low)
      let compressed := header &&& 0x4000 != 0
      { streamId := header &&& 0x3fff
        data := if compressed then (Bz2.decompressBytes data).getD data else data
        eof := header &&& 0x8000 != 0
        compressed := compressed }
  | _ => m

instance [Bz2] : MessageBase StreamDataMessage where
  msgtype _ := streamData
  msgtype_lt _ := by decide
  pack := pack
  unpack := unpack

/-- The bytes a message carries for its stream. -/
def carried [Bz2] (m : StreamDataMessage) : Bytes :=
  if m.compressed then (Bz2.decompressBytes m.data).getD m.data else m.data

theorem or_and_distrib (a b c : UInt16) : (a ||| b) &&& c = a &&& c ||| b &&& c := by
  apply UInt16.toBitVec_inj.mp
  simp only [UInt16.toBitVec_and, UInt16.toBitVec_or]
  exact BitVec.and_or_distrib_right

theorem headerVal_and_streamId : m.headerVal &&& 0x3fff = m.streamId &&& streamIdMax := by
  have h₀ : (m.streamId &&& 0x3fff) &&& 0x3fff = m.streamId &&& 0x3fff := by
    rw [UInt16.and_assoc]
    rfl
  have h₁ : (0x8000 : UInt16) &&& 0x3fff = 0 := by decide
  have h₂ : (0x4000 : UInt16) &&& 0x3fff = 0 := by decide
  simp only [headerVal, streamIdMax]
  split <;> split <;> simp only [or_and_distrib, h₀, h₁, h₂, UInt16.or_zero]

theorem headerVal_and_eof : (m.headerVal &&& 0x8000 != 0) = m.eof := by
  have h₀ : (m.streamId &&& 0x3fff) &&& 0x8000 = 0 := by
    rw [UInt16.and_assoc]
    exact UInt16.and_zero
  have h₁ : (0x8000 : UInt16) &&& 0x8000 = 0x8000 := by decide
  have h₂ : (0x4000 : UInt16) &&& 0x8000 = 0 := by decide
  simp only [headerVal, streamIdMax]
  cases m.eof <;> cases m.compressed <;>
    simp [or_and_distrib, h₀, h₁, h₂]

theorem headerVal_and_compressed : (m.headerVal &&& 0x4000 != 0) = m.compressed := by
  have h₀ : (m.streamId &&& 0x3fff) &&& 0x4000 = 0 := by
    rw [UInt16.and_assoc]
    exact UInt16.and_zero
  have h₁ : (0x8000 : UInt16) &&& 0x4000 = 0 := by decide
  have h₂ : (0x4000 : UInt16) &&& 0x4000 = 0x4000 := by decide
  simp only [headerVal, streamIdMax]
  cases m.eof <;> cases m.compressed <;>
    simp [or_and_distrib, h₀, h₁, h₂]

/-- What the other side reads: the low 14 bits of the stream id, the bytes
carried and the two flags. -/
theorem unpack_pack [Bz2] (object m : StreamDataMessage) :
    object.unpack m.pack = { m with
      streamId := m.streamId &&& streamIdMax
      data := m.carried } := by
  have hheader : UInt16.ofNat (Bytes.toU16 (UInt8.ofNat (m.headerVal.toNat / 256))
      (UInt8.ofNat m.headerVal.toNat)) = m.headerVal := by
    rw [Bytes.toU16_ofNat m.headerVal.toNat_lt, UInt16.ofNat_toNat]
  simp only [pack, Bytes.ofU16, List.cons_append, List.nil_append, unpack, hheader,
    headerVal_and_streamId, headerVal_and_eof, headerVal_and_compressed, carried]

@[simp] theorem length_pack (m : StreamDataMessage) : m.pack.length = 2 + m.data.length := by
  simp [pack]

/-- Every stream message can be packed, into 8 bytes more than its payload. -/
theorem exists_pack [Bz2] (sequence : Nat) :
    ∃ raw, Envelope.pack (some m) sequence = .ok raw ∧ raw.length = 8 + m.data.length := by
  refine ⟨_, rfl, ?_⟩
  simp only [MessageBase.pack, List.length_append, Bytes.length_ofU16, length_pack]
  omega

end StreamDataMessage

/-- `Channel::mdu` over an outlet with this `mdu`. -/
def mdu (outletMdu : Nat) : Nat := min (outletMdu - 6) 0xFFFF

/-- The part of a channel that sending a message reads and changes, with the
envelopes it handed to the outlet. -/
structure Sender where
  outletMdu : Nat
  nextSequence : Nat
  envelopes : List Bytes
  deriving DecidableEq, Repr

/-- `Channel::send` up to handing the packed envelope to the outlet. The
sequence number is taken before the envelope is packed and measured. -/
def send {Msg : Type*} [MessageBase Msg] (c : Sender) (ready : Bool) (m : Msg) :
    Except ChannelException Bytes × Sender :=
  if ready = false then (.error ⟨.linkNotReady, "Link is not ready"⟩, c)
  else
    let c' := { c with nextSequence := (c.nextSequence + 1) % seqModulus }
    match Envelope.pack (some m) c.nextSequence with
    | .error err => (.error err, c')
    | .ok raw =>
        if raw.length > c.outletMdu then
          (.error ⟨.tooBig, "Packed message too big for packet: " ++ toString raw.length ++
            " > " ++ toString c.outletMdu⟩, c')
        else (.ok raw, { c' with envelopes := c'.envelopes ++ [raw] })

structure RawChannelWriter where
  streamId : UInt16
  eof : Bool
  mdu : Nat
  deriving DecidableEq, Repr

variable (w : RawChannelWriter)

namespace RawChannelWriter

def maxChunkLen : Nat := 1024 * 16

def compressionTries : Nat := 4

/-- `RawChannelWriter::new`. -/
def new (streamId : UInt16) (outletMdu : Nat) : RawChannelWriter :=
  { streamId := streamId, eof := false
    mdu := Channel.mdu outletMdu - StreamDataMessage.overhead }

/-- The writer's `mdu` is what the outlet leaves beyond 14 bytes, up to a cap. -/
theorem mdu_new_le (streamId : UInt16) (outletMdu : Nat) :
    (new streamId outletMdu).mdu ≤ outletMdu - 14 := by
  simp only [new, Channel.mdu, StreamDataMessage.overhead]
  omega

theorem mdu_new_ne_zero_iff (streamId : UInt16) (outletMdu : Nat) :
    (new streamId outletMdu).mdu ≠ 0 ↔ 14 < outletMdu := by
  simp only [new, Channel.mdu, StreamDataMessage.overhead]
  omega

variable [Bz2]

/-- One round of the compression loop: the compressed segment and its length,
when it fits and is shorter than the segment. -/
def compressTry (w : RawChannelWriter) (buf : Bytes) (compTry : Nat) : Option (Bytes × Nat) :=
  let segmentLen := min buf.length maxChunkLen / compTry
  match Bz2.compressBytes (buf.take segmentLen) with
  | some compressed =>
      if compressed.length < w.mdu ∧ compressed.length < segmentLen then
        some (compressed, segmentLen)
      else none
  | none => none

/-- The payload of a write, how many bytes of the buffer it stands for, and
whether it is compressed. The tries are numbered from 1. -/
def segment (w : RawChannelWriter) (buf : Bytes) : Bytes × Nat × Bool :=
  let found :=
    if min buf.length maxChunkLen > 32 then
      (List.range' 1 (compressionTries - 1)).findSome? (w.compressTry buf)
    else none
  match found with
  | some (compressed, segmentLen) => (compressed, segmentLen, true)
  | none =>
      let capped := min buf.length w.mdu
      (buf.take capped, capped, false)

/-- The message of a write. -/
def message (w : RawChannelWriter) (buf : Bytes) : StreamDataMessage :=
  { streamId := w.streamId
    data := (w.segment buf).1
    eof := w.eof
    compressed := (w.segment buf).2.2 }

/-- `RawChannelWriter::write`: the number of bytes accepted, the envelope if
one was sent, and the channel. -/
def write (w : RawChannelWriter) (c : Sender) (ready : Bool) (buf : Bytes) :
    Nat × Option Bytes × Sender :=
  match send c ready (w.message buf) with
  | (.error _, c') => (0, none, c')
  | (.ok raw, c') => ((w.segment buf).2.1, some raw, c')

/-- A compressed segment fits, is shorter than what it stands for, and
decompresses to it. -/
theorem compressTry_eq_some {w : RawChannelWriter} {buf : Bytes} {compTry : Nat}
    {found : Bytes × Nat} (h : w.compressTry buf compTry = some found) :
    found.1.length < w.mdu ∧ found.1.length < found.2 ∧ found.2 ≤ buf.length ∧
      Bz2.decompressBytes found.1 = some (buf.take found.2) := by
  simp only [compressTry] at h
  split at h
  · rename_i compressed hcompressed
    split at h
    · rename_i hfits
      obtain rfl := Option.some.inj h
      refine ⟨hfits.1, hfits.2, ?_, Bz2.decompress_compress hcompressed⟩
      exact (Nat.div_le_self _ _).trans (Nat.min_le_left _ _)
    · cases h
  · cases h

/-- A write is cut into an uncompressed part of at most `mdu` bytes, or a
compressed segment. -/
theorem segment_cases (buf : Bytes) :
    w.segment buf = (buf.take (min buf.length w.mdu), min buf.length w.mdu, false) ∨
      ∃ found : Bytes × Nat, w.segment buf = (found.1, found.2, true) ∧
        found.1.length < w.mdu ∧ found.1.length < found.2 ∧ found.2 ≤ buf.length ∧
        Bz2.decompressBytes found.1 = some (buf.take found.2) := by
  simp only [segment]
  split
  · rename_i compressed segmentLen hfound
    refine .inr ⟨(compressed, segmentLen), rfl, ?_⟩
    split at hfound
    · obtain ⟨compTry, -, htry⟩ := List.exists_of_findSome?_eq_some hfound
      exact compressTry_eq_some htry
    · cases hfound
  · exact .inl rfl

/-- The message of a write carries the bytes that the write counts. -/
theorem carried_message (buf : Bytes) : (w.message buf).carried = buf.take (w.segment buf).2.1 := by
  obtain h | ⟨found, h, -, -, -, hdecompress⟩ := w.segment_cases buf
  · simp [message, StreamDataMessage.carried, h]
  · simp [message, StreamDataMessage.carried, h, hdecompress]

theorem length_payload_le (buf : Bytes) : (w.segment buf).1.length ≤ w.mdu := by
  obtain h | ⟨found, h, hfits, -⟩ := w.segment_cases buf
  · rw [h, List.length_take]
    omega
  · rw [h]
    exact hfits.le

/-- A write counts no byte exactly when there is none or the `mdu` is zero. -/
theorem processed_eq_zero_iff (buf : Bytes) : (w.segment buf).2.1 = 0 ↔ buf = [] ∨ w.mdu = 0 := by
  rw [← List.length_eq_zero_iff]
  obtain h | ⟨found, h, hfits, hshort, hle, -⟩ := w.segment_cases buf
  · simp only [h]
    omega
  · simp only [h]
    omega

/-- A write sends an envelope that the outlet has room for, or accepts nothing. -/
theorem write_cases (c : Sender) (ready : Bool) (buf : Bytes) (hc : c.nextSequence < seqModulus) :
    (∃ raw, Envelope.pack (some (w.message buf)) c.nextSequence = .ok raw ∧
        ready = true ∧ raw.length ≤ c.outletMdu ∧
        w.write c ready buf = ((w.segment buf).2.1, some raw, { c with
          nextSequence := (c.nextSequence + 1) % seqModulus
          envelopes := c.envelopes ++ [raw] })) ∨
      (ready = true → c.outletMdu < 8 + w.mdu) ∧ ∃ next, next < seqModulus ∧
        w.write c ready buf = (0, none, { c with nextSequence := next }) := by
  obtain ⟨raw, hpack, hlen⟩ := (w.message buf).exists_pack c.nextSequence
  cases ready with
  | false => exact .inr ⟨by simp, c.nextSequence, hc, rfl⟩
  | true =>
      have hpayload := w.length_payload_le buf
      by_cases hfits : raw.length ≤ c.outletMdu
      · refine .inl ⟨raw, hpack, rfl, hfits, ?_⟩
        simp [write, send, hpack, Nat.not_lt.mpr hfits]
      · refine .inr ⟨fun _ => ?_, (c.nextSequence + 1) % seqModulus,
          Nat.mod_lt _ (by decide), ?_⟩
        · simp only [message] at hlen
          omega
        · simp [write, send, hpack, Nat.lt_of_not_le hfits]

end RawChannelWriter

/-- `RawChannelReader`: the bytes its handler has put together and not read
yet, and whether the end of the stream was announced. -/
structure RawChannelReader where
  buffer : Bytes
  eof : Bool
  deriving DecidableEq, Repr

namespace RawChannelReader

/-- `RawChannelReader::new`. -/
def new : RawChannelReader := { buffer := [], eof := false }

/-- What the handler does with a message of its stream. -/
def handle (r : RawChannelReader) (m : StreamDataMessage) : RawChannelReader :=
  { buffer := r.buffer ++ m.data, eof := r.eof || m.eof }

/-- `RawChannelReader::read` into a buffer of this length: the bytes read. -/
def read (r : RawChannelReader) (length : Nat) : Bytes × RawChannelReader :=
  let toRead := min length r.buffer.length
  (r.buffer.take toRead, { r with buffer := r.buffer.drop toRead })

end RawChannelReader

/-- An envelope on its way, with the writer it came from and the bytes that
the write accepted for it. -/
structure InFlight where
  writer : UInt16
  data : Bytes
  raw : Bytes
  deriving DecidableEq, Repr

/-- The writers and readers of one channel. `taken` is what `read` returned so
far, `accepted` what the writes counted, and `origins` the writers whose bytes
a reader was given. -/
structure Streams where
  sender : Sender
  writers : UInt16 → Option RawChannelWriter
  callbacks : List UInt16
  readers : UInt16 → RawChannelReader
  inFlight : List InFlight
  accepted : UInt16 → Bytes
  taken : UInt16 → Bytes
  origins : UInt16 → List UInt16

/-- `write`, `close` and `read` of the writer or reader of a stream, and the
delivery of the oldest envelope in flight. A write finds the channel ready for
a message or not. -/
inductive StreamEvent
  | write (streamId : UInt16) (ready : Bool) (buf : Bytes)
  | close (streamId : UInt16) (ready : Bool)
  | deliver
  | read (streamId : UInt16) (length : Nat)
  deriving DecidableEq, Repr

namespace Streams

/-- A channel over an outlet with this `mdu`, with a writer for each id of the
first list and a reader for each id of the second, in the order in which their
handlers were added. -/
def new (outletMdu : Nat) (writers readers : List UInt16) : Streams :=
  { sender := { outletMdu := outletMdu, nextSequence := 0, envelopes := [] }
    writers := fun s => if s ∈ writers then some (RawChannelWriter.new s outletMdu) else none
    callbacks := readers
    readers := fun _ => RawChannelReader.new
    inFlight := []
    accepted := fun _ => []
    taken := fun _ => []
    origins := fun _ => [] }

/-- The message types of the receiving side: a reader registers its own. -/
def factories (p : Streams) : Factories StreamDataMessage := fun msgtype =>
  if msgtype = StreamDataMessage.streamData ∧ p.callbacks ≠ [] then
    some StreamDataMessage.default
  else none

/-- Every byte that the handler of a stream put into its reader. -/
def collected (p : Streams) (s : UInt16) : Bytes := p.taken s ++ (p.readers s).buffer

variable [Bz2]

/-- A write on this writer. -/
def put (p : Streams) (w : RawChannelWriter) (ready : Bool) (buf : Bytes) : Streams :=
  let (processed, envelope, sender) := w.write p.sender ready buf
  { p with
    sender := sender
    accepted := Function.update p.accepted w.streamId
      (p.accepted w.streamId ++ buf.take processed)
    inFlight := p.inFlight ++
      envelope.toList.map fun raw => ⟨w.streamId, buf.take processed, raw⟩ }

/-- The handlers are asked in order, and the one whose stream the message
belongs to takes it. -/
def hand (p : Streams) (e : InFlight) : Streams :=
  match (Envelope.ofRaw e.raw).unpack p.factories with
  | .error _ => p
  | .ok envelope =>
      match envelope.message with
      | none => p
      | some m =>
          match p.callbacks.find? fun s => m.streamId == s with
          | none => p
          | some s => { p with
              readers := Function.update p.readers s ((p.readers s).handle m)
              origins := Function.update p.origins s
                (p.origins s ++ if m.data = [] then [] else [e.writer]) }

/-- One event. There is nothing to write on, read from or deliver when the
writer, the reader or the envelope does not exist. -/
def step (p : Streams) : StreamEvent → Option Streams
  | .write s ready buf => (p.writers s).map fun w => p.put w ready buf
  | .close s ready => (p.writers s).map fun w =>
      let w' := { w with eof := true }
      { p with writers := Function.update p.writers s (some w') }.put w' ready []
  | .deliver =>
      match p.inFlight with
      | [] => none
      | e :: rest => some ({ p with inFlight := rest }.hand e)
  | .read s length =>
      if s ∈ p.callbacks then
        let (bytes, reader) := (p.readers s).read length
        some { p with
          readers := Function.update p.readers s reader
          taken := Function.update p.taken s (p.taken s ++ bytes) }
      else none

/-- The channel after everything in flight was delivered. -/
def settled (p : Streams) : Streams :=
  p.inFlight.foldl hand { p with inFlight := [] }

end Streams

end Reticulum.Channel
