import Reticulum.Link.Basic

/-!
# Packets on the wire

`Packet::new`, `pack` and `unpack` of `src/packet.rs`. A frame is a flag byte,
the hops, one or two addresses of sixteen bytes, a context byte and the data.
The flag byte holds the header type, the context flag, the transport type, the
type of the destination and the packet type.

## Implementation notes

`Packet` here has the fields that packing, unpacking and routing read; receipts,
ratchets, attached interfaces and link statistics are left out. `encrypt` of a
destination is a parameter of it. `pack` and `unpack` return the packet they
leave behind, `unpack` only where it returns true.
-/

namespace Reticulum.Wire

inductive DestinationType
  | single
  | group
  | plain
  | link
  deriving DecidableEq, Repr

/-- `dest_type as u8`. -/
def DestinationType.toUInt8 : DestinationType → UInt8
  | .single => 0
  | .group => 1
  | .plain => 2
  | .link => 3

/-- The destination type of two bits. -/
def DestinationType.ofUInt8 (bits : UInt8) : Option DestinationType :=
  if bits = 0 then some .single
  else if bits = 1 then some .group
  else if bits = 2 then some .plain
  else if bits = 3 then some .link
  else none

/-- What packing reads of a destination. `mtu` is the one of its link. -/
structure Destination where
  hash : Bytes
  destType : DestinationType
  mtu : Option Nat
  encrypt : Bytes → Except String Bytes

/-- `HEADER_1`. -/
def header1 : UInt8 := 0

/-- `HEADER_2`. -/
def header2 : UInt8 := 1

/-- `DATA`. -/
def data : UInt8 := 0

/-- `ANNOUNCE`. -/
def announce : UInt8 := 1

/-- `LINKREQUEST`. -/
def linkRequest : UInt8 := 2

/-- `PROOF`. -/
def proof : UInt8 := 3

/-- `packet::LRPROOF`. -/
def lrproof : UInt8 := 0xFF

/-- `packet::CACHE_REQUEST`. -/
def cacheRequest : UInt8 := 0x08

/-- `transport::PATHFINDER_M`. -/
def pathfinderM : UInt8 := 128

/-- `TRUNCATED_HASHLENGTH / 8`. -/
def dstLen : Nat := 16

/-- The header type of a flag byte. -/
def headerTypeOf (flags : UInt8) : UInt8 := (flags &&& 0x40) >>> 6

/-- `Packet`. -/
structure Packet where
  hops : UInt8
  headerType : UInt8
  packetType : UInt8
  transportType : UInt8
  context : UInt8
  contextFlag : UInt8
  destination : Option Destination
  transportId : Option Bytes
  data : Bytes
  flags : UInt8
  raw : Bytes
  packed : Bool
  mtu : Nat
  packetHash : Option Bytes
  ciphertext : Option Bytes
  destinationHash : Option Bytes
  destinationType : Option DestinationType
  receivingInterface : Option String

namespace Packet

/-- The flag byte of five fields. -/
def packFlags (headerType contextFlag transportType : UInt8) (destType : DestinationType)
    (packetType : UInt8) : UInt8 :=
  (headerType <<< 6) ||| (contextFlag <<< 5) ||| (transportType <<< 4) |||
    (destType.toUInt8 <<< 2) ||| packetType

/-- `get_packed_flags`. -/
def getPackedFlags (p : Packet) : UInt8 :=
  if p.context = lrproof then
    packFlags p.headerType p.contextFlag p.transportType .link p.packetType
  else
    packFlags p.headerType p.contextFlag p.transportType
      ((p.destination.map Destination.destType).getD .plain) p.packetType

/-- `Packet::new` with a destination. -/
def new (destination : Destination) (data : Bytes)
    (packetType context transportType headerType : UInt8) (transportId : Option Bytes)
    (contextFlag : UInt8) : Packet :=
  let p : Packet :=
    { hops := 0, headerType := headerType, packetType := packetType
      transportType := transportType, context := context, contextFlag := contextFlag
      destination := some destination, transportId := transportId, data := data, flags := 0
      raw := [], packed := false
      mtu :=
        if destination.destType = .link then destination.mtu.getD Link.defaultMtu
        else Link.defaultMtu
      packetHash := none, ciphertext := none, destinationHash := none
      destinationType := some destination.destType, receivingInterface := none }
  { p with flags := p.getPackedFlags }

/-- The packet that `Transport::inbound` makes of a frame: `Packet::new` without
a destination, holding `raw`. -/
def holding (raw : Bytes) (receivingInterface : Option String) : Packet :=
  { hops := 0, headerType := header1, packetType := 0, transportType := 0, context := 0
    contextFlag := 0, destination := none, transportId := none, data := [], flags := 0, raw := raw
    packed := true, mtu := Link.defaultMtu, packetHash := none, ciphertext := none
    destinationHash := none, destinationType := none, receivingInterface := receivingInterface }

/-- `get_hashable_part`. -/
def getHashablePart (p : Packet) : Bytes :=
  match p.raw with
  | [] => []
  | flags :: _ =>
      (flags &&& 0x0F) ::
        if p.headerType = header2 then p.raw.drop (dstLen + 2) else p.raw.drop 2

/-- `get_hash`. -/
def getHash (c : Crypto) (p : Packet) : Bytes := (c.fullHash p.getHashablePart).1

/-- `get_truncated_hash`. -/
def getTruncatedHash (c : Crypto) (p : Packet) : Bytes := (c.truncatedHash p.getHashablePart).1

/-- `update_hash`. -/
def updateHash (c : Crypto) (p : Packet) : Packet := { p with packetHash := some (p.getHash c) }

/-- The contexts whose data `pack` does not encrypt. -/
def isPlaintextContext (context : UInt8) : Bool :=
  context = Reticulum.Packet.resource ∨ context = Reticulum.Packet.keepalive ∨
    context = Reticulum.Packet.linkIdentify ∨ context = cacheRequest

/-- The addresses and the ciphertext that `pack` writes. -/
def packBody (p : Packet) (destination : Destination) : Except String (Bytes × Option Bytes) :=
  if p.context = lrproof then .ok (destination.hash, some p.data)
  else if p.headerType = header1 then
    if p.packetType = announce ∨ p.packetType = linkRequest ∨ p.packetType = proof ∨
        isPlaintextContext p.context then
      .ok (destination.hash, some p.data)
    else (destination.encrypt p.data).map fun ciphertext => (destination.hash, some ciphertext)
  else if p.headerType = header2 then
    match p.transportId with
    | none => .error "Packet with header type 2 must have a transport ID"
    | some transportId => .ok (transportId ++ destination.hash, some p.data)
  else .ok ([], p.ciphertext)

/-- `pack`. -/
def pack (c : Crypto) (p : Packet) : Except String Packet :=
  match p.destination with
  | none => .error "Packet has no destination"
  | some destination =>
      (p.packBody destination).bind fun (addresses, ciphertext) =>
        let raw := [p.flags, p.hops] ++ addresses ++ [p.context] ++ ciphertext.getD []
        if p.mtu < raw.length then
          .error ("Packet size of " ++ toString raw.length ++ " exceeds MTU of " ++
            toString p.mtu ++ " bytes")
        else
          .ok (updateHash c { p with
            destinationHash := some destination.hash, ciphertext := ciphertext, raw := raw
            packed := true })

/-- The end of `unpack`: the destination hash is at `offset`, the context and
the data follow. -/
def unpackBody (c : Crypto) (p : Packet) (transportId : Option Bytes) (offset : Nat) : Option Packet :=
  if p.raw.length < offset + dstLen + 1 then none
  else
    let p := { p with
      transportId := transportId
      destinationHash := some ((p.raw.drop offset).take dstLen)
      context := p.raw.getD (offset + dstLen) 0
      data := p.raw.drop (offset + dstLen + 1) }
    if p.data = [] then none else some (updateHash c { p with packed := false })

/-- The fields of the flag byte, and the hops. -/
def readFlags (p : Packet) (flags hops : UInt8) : Packet :=
  { p with
    flags := flags, hops := hops
    headerType := headerTypeOf flags
    contextFlag := (flags &&& 0x20) >>> 5
    transportType := (flags &&& 0x10) >>> 4
    packetType := flags &&& 0x03
    destinationType := DestinationType.ofUInt8 ((flags &&& 0x0C) >>> 2) }

/-- `unpack`. -/
def unpack (c : Crypto) (p : Packet) : Option Packet :=
  match p.raw with
  | flags :: hops :: rest =>
      if pathfinderM ≤ hops then none
      else if headerTypeOf flags = header2 then
        unpackBody c (p.readFlags flags hops) (some (rest.take dstLen)) (2 + dstLen)
      else unpackBody c (p.readFlags flags hops) none 2
  | _ => none

end Packet

end Reticulum.Wire
