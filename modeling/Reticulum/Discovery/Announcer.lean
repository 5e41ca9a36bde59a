import Reticulum.Discovery.Host
import Reticulum.Lib.Assoc
import Reticulum.Lib.Bytes

/-!
# Announcing a discoverable interface

The values of MessagePack, what an announce of an interface says, and the proof-of-work stamp
it carries.

## Implementation notes

Hashing, key derivation and MessagePack are third-party code. A `HashMap<u8, Vec<u8>>` is
packed as a map from integers to arrays of integers, in an order of its own. Floats are their
bits. The search for a stamp is random and may be given up; a stamp it returns has 32 bytes.
The log is left out.
-/

namespace Reticulum.Discovery

/-! ## MessagePack -/

/-- `rmpv::Value`, without extensions. -/
inductive Value
  | nil
  | boolean (b : Bool)
  | integer (n : Int)
  | f32 (bits : UInt32)
  | f64 (bits : UInt64)
  | string (text : Option String)
  | binary (bytes : Bytes)
  | array (items : List Value)
  | map (entries : List (Value × Value))
  | ext (type : Int) (bytes : Bytes)

namespace Value

/-- The text of a string; a string of the wire need not be UTF-8. -/
def asStr : Value → Option String
  | string text => text
  | _ => none

def asU64 : Value → Option Nat
  | integer n => if 0 ≤ n then some n.toNat else none
  | _ => none

def asBool : Value → Option Bool
  | boolean b => some b
  | _ => none

/-- `Value::as_map`. -/
def asMap : Value → Option (List (Value × Value))
  | map entries => some entries
  | _ => none

end Value

/-- The value of an integer key; the last one wins. -/
def mapGet (m : Value) (key : UInt8) : Option Value := do
  let entries ← m.asMap
  (entries.reverse.find? fun e => e.1.asU64 == some key.toNat).map Prod.snd

/-- A byte string as `rmp_serde` packs a `Vec<u8>`. -/
def byteArray (bytes : Bytes) : Value := .array (bytes.map fun b => .integer b.toNat)

/-- What a packed `HashMap<u8, Vec<u8>>` holds. -/
def byteMap (entries : List (UInt8 × Bytes)) : Value :=
  .map (entries.map fun e => (.integer e.1.toNat, byteArray e.2))

/-! ## Third-party code -/

/-- The length of a stamp. -/
def stampSize : Nat := 32

/-- A stamp. -/
abbrev Stamp := Bytes.Block stampSize

/-- SHA-256, HKDF, MessagePack, the formatting and widening of floats, and the search for a
stamp. -/
structure Libraries where
  fullHash : Bytes → Bytes
  hkdf : (salt material : Bytes) → Bytes
  writeUint : Nat → Bytes
  encode : List (UInt8 × Bytes) → Option Bytes
  decode : Bytes → Except String Value
  showF64 : UInt64 → String
  widen : UInt32 → UInt64
  search : (cost : Nat) → (workblock : Bytes) → Option Stamp

namespace Libraries

variable (lib : Libraries)

/-- Packing and unpacking a map of byte strings gives it back, in some order. -/
def Inverts : Prop :=
  ∀ info packed, lib.encode info = some packed →
    ∃ entries : List (UInt8 × Bytes), entries.Perm info ∧ lib.decode packed = .ok (byteMap entries)

/-! ## Stamps -/

def workblockExpandRounds : Nat := 20

/-- One part of the workblock for each round. -/
def stampWorkblock (material : Bytes) (expandRounds : Nat) : Bytes :=
  (List.range expandRounds).flatMap fun n =>
    lib.hkdf (lib.fullHash (material ++ lib.writeUint n)) material

end Libraries

/-- The leading zero bits of a byte string. -/
def leadingZeros : Bytes → Nat
  | [] => 0
  | b :: rest => if b = 0 then 8 + leadingZeros rest else 7 - b.toNat.log2

namespace Libraries

variable (lib : Libraries)

/-- `stamp_value`: the leading zero bits. -/
def stampValue (workblock stamp : Bytes) : Nat := leadingZeros (lib.fullHash (workblock ++ stamp))

/-- `stamp_valid`. -/
def stampValid (stamp : Bytes) (requiredValue : Nat) (workblock : Bytes) : Bool :=
  stamp.length == stampSize && requiredValue ≤ lib.stampValue workblock stamp

/-- `generate_stamp`. -/
def generateStamp (material : Bytes) (stampCost expandRounds : Nat) : Option Stamp :=
  lib.search stampCost (lib.stampWorkblock material expandRounds)

end Libraries

/-! ## The announce data -/

def keyName : UInt8 := 0xFF

def keyTransportId : UInt8 := 0xFE

def keyInterfaceType : UInt8 := 0x00

def keyTransport : UInt8 := 0x01

def keyReachableOn : UInt8 := 0x02

def keyLatitude : UInt8 := 0x03

def keyLongitude : UInt8 := 0x04

def keyHeight : UInt8 := 0x05

def keyPort : UInt8 := 0x06

def keyIfacNetname : UInt8 := 0x07

def keyIfacNetkey : UInt8 := 0x08

def keyFrequency : UInt8 := 0x09

def keyBandwidth : UInt8 := 0x0A

def keySpreadingFactor : UInt8 := 0x0B

def keyCodingRate : UInt8 := 0x0C

def keyModulation : UInt8 := 0x0D

def keyChannel : UInt8 := 0x0E

def keyOpAddr : UInt8 := 0xF0

/-- `DISCOVERABLE_INTERFACE_TYPES`. -/
def discoverableInterfaceTypes : List String :=
  ["BackboneInterface", "TCPServerInterface", "TCPClientInterface", "RNodeInterface",
    "WeaveInterface", "I2PInterface", "KISSInterface"]

/-- The fields of an interface that its announce is made of. -/
structure InterfaceStub where
  name : String
  discoveryPublishIfac : Bool
  reachableOn : Option String
  discoveryName : Option String
  discoveryEncrypt : Bool
  discoveryStampValue : Option Nat
  discoveryLatitude : Option UInt64
  discoveryLongitude : Option UInt64
  discoveryHeight : Option UInt64
  discoveryFrequency : Option UInt64
  discoveryBandwidth : Option UInt32
  discoveryModulation : Option String
  ifacNetname : Option String
  ifacNetkey : Option String

/-- What Transport says of this node. -/
structure Host where
  transportEnabled : Bool
  identityHash : Option Bytes

/-- The part stands somewhere in the text. -/
def hasPart (part : List Char) : List Char → Bool
  | [] => part.isEmpty
  | c :: rest => part.isPrefixOf (c :: rest) || hasPart part rest

/-- `str::contains`. -/
def contains (text part : String) : Bool := hasPart part.toList text.toList

/-- The type that a name stands for. -/
def getInterfaceType (interfaceName : String) : String :=
  if contains interfaceName "TCP" || contains interfaceName "tcp" then
    if contains interfaceName "Server" || contains interfaceName "server" then
      "TCPServerInterface"
    else "TCPClientInterface"
  else if contains interfaceName "UDP" || contains interfaceName "udp" then "UDPInterface"
  else "UnknownInterface"

/-- `str::as_bytes`: UTF-8. -/
def asBytes (text : String) : Bytes := text.toUTF8.data.toList

/-- A number in so many bytes, the lowest first. -/
def leBytes (count n : Nat) : Bytes := (List.range count).map fun i => UInt8.ofNat (n / 256 ^ i)

namespace InterfaceStub

/-- Whether the configured address may be announced. -/
def reachable (stub : InterfaceStub) : Bool :=
  match stub.reachableOn with
  | none => true
  | some address => isIpAddress (sanitize address) || isHostname (sanitize address)

/-- One entry, when there is something to say. -/
def entry {A : Type} (key : UInt8) (value : Option A) (bytes : A → Bytes) :
    List (UInt8 × Bytes) :=
  (value.map fun a => (key, bytes a)).toList

/-- The `info` dictionary, in the order in which it is filled. -/
def info (lib : Libraries) (host : Host) (stub : InterfaceStub) : List (UInt8 × Bytes) :=
  let interfaceType := getInterfaceType stub.name
  let text := fun s => asBytes (sanitize s)
  let float := fun bits => asBytes (lib.showF64 bits)
  [(keyInterfaceType, asBytes interfaceType),
      (keyTransport, [if host.transportEnabled then 1 else 0])] ++
    entry keyTransportId host.identityHash id ++
    entry keyName stub.discoveryName text ++
    entry keyLatitude stub.discoveryLatitude float ++
    entry keyLongitude stub.discoveryLongitude float ++
    entry keyHeight stub.discoveryHeight float ++
    (if interfaceType = "TCPServerInterface" then entry keyReachableOn stub.reachableOn text
      else []) ++
    entry keyFrequency stub.discoveryFrequency (fun n => leBytes 8 n.toNat) ++
    entry keyBandwidth stub.discoveryBandwidth (fun n => leBytes 4 n.toNat) ++
    entry keyModulation stub.discoveryModulation text ++
    (if stub.discoveryPublishIfac then
      entry keyIfacNetname stub.ifacNetname text ++ entry keyIfacNetkey stub.ifacNetkey text
      else [])

end InterfaceStub

def defaultStampValue : Nat := 16

/-- `get_interface_announce_data`, with the stamp cache before and after. The flags are zero
even where encryption is asked for. -/
def getInterfaceAnnounceData (lib : Libraries) (host : Host) (stub : InterfaceStub)
    (stampCache : List (Bytes × Stamp)) : Option (Bytes × List (Bytes × Stamp)) :=
  if !discoverableInterfaceTypes.contains (getInterfaceType stub.name) then none
  else if !stub.reachable then none
  else do
    let packed ← lib.encode (stub.info lib host)
    let infohash := lib.fullHash packed
    match Assoc.get stampCache infohash with
    | some stamp => some (0 :: (packed ++ stamp.1), stampCache)
    | none => do
        let stampValue := stub.discoveryStampValue.getD defaultStampValue
        let stamp ← lib.generateStamp infohash stampValue Libraries.workblockExpandRounds
        some (0 :: (packed ++ stamp.1), Assoc.put stampCache infohash stamp)

/-- Announce data is a zero, the packed dictionary and a stamp. -/
theorem announceData_eq {lib : Libraries} {host : Host} {stub : InterfaceStub}
    {stampCache stampCache' : List (Bytes × Stamp)} {data : Bytes}
    (h : getInterfaceAnnounceData lib host stub stampCache = some (data, stampCache')) :
    ∃ packed, lib.encode (stub.info lib host) = some packed ∧
      ∃ stamp : Stamp, data = 0 :: (packed ++ stamp.1) := by
  unfold getInterfaceAnnounceData at h
  split at h
  · cases h
  split at h
  · cases h
  obtain ⟨packed, hpacked, h⟩ := Option.bind_eq_some_iff.mp h
  refine ⟨packed, hpacked, ?_⟩
  dsimp only at h
  split at h
  · rename_i stamp _
    exact ⟨stamp, (Prod.mk.inj (Option.some.inj h)).1.symm⟩
  · obtain ⟨stamp, -, h⟩ := Option.bind_eq_some_iff.mp h
    exact ⟨stamp, (Prod.mk.inj (Option.some.inj h)).1.symm⟩

end Reticulum.Discovery
