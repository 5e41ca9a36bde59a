import Reticulum.Lib.Bytes

/-!
# Channel envelopes

The wire form of one channel message (`src/channel.rs`): the message type,
the sequence number and the payload length as 16-bit big-endian fields, then
the payload.

## Implementation notes

An envelope keeps the fields that packing, unpacking and the two rings read.
Its timestamp, id, outlet and packet belong to the sending side.
-/

namespace Reticulum.Channel

/-- `CEType`: the kinds of channel error. -/
inductive CEType
  | noMsgType
  | invalidMsgType
  | notRegistered
  | linkNotReady
  | alreadySent
  | tooBig
  deriving DecidableEq, Repr

/-- `ChannelException`: a kind and the text logged with it. -/
structure ChannelException where
  kind : CEType
  message : String
  deriving DecidableEq, Repr

/-- The trait `MessageBase`: a 16-bit type, a payload, and reading a payload
into a fresh object of that type. -/
class MessageBase (Msg : Type*) where
  msgtype : Msg → Nat
  msgtype_lt : ∀ m, msgtype m < 65536
  pack : Msg → Bytes
  unpack : Msg → Bytes → Msg

/-- `message_factories`: the fresh object for each registered message type. -/
abbrev Factories (Msg : Type*) := Nat → Option Msg

structure Envelope (Msg : Type*) where
  sequence : Nat
  raw : Bytes
  message : Option Msg
  unpacked : Bool
  deriving DecidableEq, Repr

variable {Msg : Type*} [MessageBase Msg]

/-- Four hexadecimal digits, as the format directive for a message type. -/
def hex4 (n : Nat) : String :=
  let digits := Nat.toDigits 16 n
  String.ofList (List.replicate (4 - digits.length) '0' ++ digits)

/-- `Envelope::new` for the receiving side: raw bytes and no message. -/
def Envelope.ofRaw (raw : Bytes) : Envelope Msg :=
  { sequence := 0, raw := raw, message := none, unpacked := false }

def Envelope.unpack (envelope : Envelope Msg) (factories : Factories Msg) :
    Except ChannelException (Envelope Msg) :=
  match envelope.raw with
  | t₁ :: t₀ :: s₁ :: s₀ :: l₁ :: l₀ :: raw =>
      let msgtype := Bytes.toU16 t₁ t₀
      let length := Bytes.toU16 l₁ l₀
      if raw.length < length then
        .error ⟨.invalidMsgType, "Envelope payload length mismatch"⟩
      else
        match factories msgtype with
        | none => .error ⟨.notRegistered,
            "Unable to find constructor for Channel MSGTYPE 0x" ++ hex4 msgtype⟩
        | some ctor => .ok { envelope with
            sequence := Bytes.toU16 s₁ s₀
            message := some (MessageBase.unpack ctor (raw.take length))
            unpacked := true }
  | _ => .error ⟨.invalidMsgType, "Envelope raw too small"⟩

/-- `Envelope::pack` of a message under a sequence number: the bytes, or the
error for a message without a type. The length field holds 16 bits. -/
def Envelope.pack (message : Option Msg) (sequence : Nat) :
    Except ChannelException Bytes :=
  match message with
  | none => .error ⟨.noMsgType, "Envelope has no message to pack"⟩
  | some message =>
      let msgtype := MessageBase.msgtype message
      let data := MessageBase.pack message
      if msgtype = 0 then
        .error ⟨.noMsgType, "Message has invalid MSGTYPE"⟩
      else
        .ok (Bytes.ofU16 msgtype ++ Bytes.ofU16 sequence ++
          Bytes.ofU16 (data.length % 65536) ++ data)

/-- What the receiver makes of a message: the object its type's constructor
reads from the payload bytes that the length field covers. -/
def received (factories : Factories Msg) (m : Msg) : Option Msg :=
  (factories (MessageBase.msgtype m)).map fun ctor =>
    MessageBase.unpack ctor
      ((MessageBase.pack m).take ((MessageBase.pack m).length % 65536))

/-- Unpacking packed bytes gives back the sequence number and the message,
when the receiver knows its type. -/
theorem unpack_pack {factories : Factories Msg} {m : Msg} {sequence : Nat} {raw : Bytes}
    (hs : sequence < 65536) (h : Envelope.pack (some m) sequence = .ok raw) :
    ((Envelope.ofRaw raw : Envelope Msg).unpack factories).toOption =
      (received factories m).map fun object =>
        { sequence := sequence, raw := raw, message := some object, unpacked := true } := by
  simp only [Envelope.pack] at h
  split at h
  · cases h
  · obtain rfl := Except.ok.inj h
    have ht := Bytes.toU16_ofNat (MessageBase.msgtype_lt m)
    have hq := Bytes.toU16_ofNat hs
    have hl := Bytes.toU16_ofNat
      (Nat.mod_lt (MessageBase.pack m).length (show 65536 > 0 by decide))
    have hle := Nat.mod_le (MessageBase.pack m).length 65536
    simp only [Envelope.ofRaw, Envelope.unpack, Bytes.ofU16, List.cons_append,
      List.nil_append, ht, hq, hl, Nat.not_lt.mpr hle, if_false, received]
    cases factories (MessageBase.msgtype m) with
    | none => rfl
    | some ctor => rfl

end Reticulum.Channel
