import Reticulum.Lib.Bytes
import Reticulum.Lib.Runs

/-!
# The Bluetooth wire format

Greetings, fragments and the reassembly of packets (`prns-ble/src/wire.rs`), from the
side that dials. A packet is cut into fragments that carry their number and how many
there are; a reassembler puts consecutive fragments together.

## Implementation notes

`next_seq` is a 16-bit number that wraps, as it does where overflow is not checked.
`Reassembler.Wraps` says when it does.
-/

namespace Reticulum.Ble

/-- `HW_MTU`. -/
def hwMtu : Nat := 500

/-- `FRAGMENT_HEADER_LEN`. -/
def fragmentHeaderLen : Nat := 5

/-- `IDENTITY_LEN`. -/
def identityLen : Nat := 16

/-- `ROLE_COMPANY_ID`. -/
def roleCompanyId : UInt16 := 0xFFFF

/-- `ROLE_VERSION`. -/
def roleVersion : UInt8 := 0x03

/-- `ROLE_PERIPHERAL_ONLY`. -/
def rolePeripheralOnly : UInt8 := 0x01

/-- `is_peripheral_only`. -/
def isPeripheralOnly (companyId : UInt16) (data : Bytes) : Bool :=
  companyId == roleCompanyId && data[0]?.any (fun version => roleVersion ≤ version) &&
    data[1]?.any (fun flags => flags &&& rolePeripheralOnly != 0)

/-! ## Greetings -/

/-- `Endpoint`. -/
structure Endpoint where
  stack : UInt8
  host : UInt8
  deriving DecidableEq

/-- `Endpoint::new`. -/
def Endpoint.new (stack host : UInt8) : Option Endpoint :=
  let known : Bool :=
    if stack = 1 then host ≤ 2 else if 2 ≤ stack ∧ stack ≤ 6 then host = 0 else false
  if known then some { stack := stack, host := host } else none

/-- `Greeting`. -/
structure Greeting where
  identity : Bytes.Block 16
  endpoint : Endpoint
  psm : UInt8
  linkMtu : Nat
  rssi : Option Int8
  deriving DecidableEq

/-- `CloseReason`. -/
inductive CloseReason
  | selfConnection
  | duplicateLink
  | incompatible
  deriving DecidableEq

/-- `Control`. -/
inductive Control
  | hello (greeting : Greeting)
  | welcome (greeting : Greeting)
  | close (reason : CloseReason)
  deriving DecidableEq

/-- `RSSI_UNKNOWN`. -/
def rssiUnknown : UInt8 := 0x80

/-- `encode_greeting`. -/
def encodeGreeting (tag : UInt8) (greeting : Greeting) : Bytes :=
  [tag] ++ greeting.identity.1 ++ [greeting.endpoint.stack, greeting.endpoint.host, greeting.psm] ++
    Bytes.ofU16 greeting.linkMtu ++
    [match greeting.rssi with
      | some dbm => if dbm ≠ Int8.minValue then dbm.toUInt8 else rssiUnknown
      | none => rssiUnknown]

/-- `Control::encode`. -/
def Control.encode : Control → Bytes
  | .hello greeting => encodeGreeting 0x01 greeting
  | .welcome greeting => encodeGreeting 0x02 greeting
  | .close .selfConnection => [0x03, 0x01]
  | .close .duplicateLink => [0x03, 0x02]
  | .close .incompatible => [0x03, 0x03]

/-- `decode_greeting`. -/
def decodeGreeting (body : Bytes) : Option Greeting :=
  if h : (body.take identityLen).length = 16 then
    match body.drop identityLen with
    | stack :: host :: psm :: high :: low :: rest =>
        (Endpoint.new stack host).bind fun endpoint =>
          if psm ≠ 0 ∧ psm < 0x80 then none
          else some
            { identity := ⟨body.take identityLen, h⟩
              endpoint := endpoint
              psm := psm
              linkMtu := Bytes.toU16 high low
              rssi := (rest[0]?.map UInt8.toInt8).filter fun dbm => dbm ≠ Int8.minValue }
    | _ => none
  else none

/-- `Control::decode`. -/
def Control.decode : Bytes → Option Control
  | [] => none
  | tag :: body =>
      if tag = 0x01 then (decodeGreeting body).map .hello
      else if tag = 0x02 then (decodeGreeting body).map .welcome
      else if tag = 0x03 then
        match body with
        | [] => none
        | reason :: _ =>
            if reason = 0x01 then some (.close .selfConnection)
            else if reason = 0x02 then some (.close .duplicateLink)
            else if reason = 0x03 then some (.close .incompatible)
            else none
      else none

/-! ## Fragments -/

/-- `FRAGMENT_START`. -/
def fragmentStart : UInt8 := 0x01

/-- `FRAGMENT_CONTINUE`. -/
def fragmentContinue : UInt8 := 0x02

/-- `FRAGMENT_END`. -/
def fragmentEnd : UInt8 := 0x03

/-- The piece of a packet from `index * cap` on. -/
def chunk (packet : Bytes) (cap index : Nat) : Bytes :=
  (packet.take (min ((index + 1) * cap) packet.length)).drop (min (index * cap) packet.length)

/-- The fragment with a number, of so many with pieces of at most `cap` bytes. -/
def fragment (packet : Bytes) (cap total index : Nat) : Bytes :=
  let kind :=
    if index = 0 then fragmentStart
    else if index + 1 = total then fragmentEnd
    else fragmentContinue
  kind :: (Bytes.ofU16 index ++ Bytes.ofU16 total ++ chunk packet cap index)

/-- How many bytes of a packet go into a fragment. -/
def fragmentCap (fragmentSize : Nat) : Nat := max (fragmentSize - fragmentHeaderLen) 1

/-- How many fragments a packet is cut into. -/
def fragmentTotal (packet : Bytes) (cap : Nat) : Nat := max ((packet.length + cap - 1) / cap) 1

/-- `fragments`. -/
def fragments (packet : Bytes) (fragmentSize : Nat) : List Bytes :=
  let cap := fragmentCap fragmentSize
  let total := fragmentTotal packet cap
  (List.range total).map (fragment packet cap total)

/-- `Fragment`. -/
structure Fragment where
  seq : Nat
  total : Nat
  data : Bytes
  deriving DecidableEq

/-- `decode_fragment`. -/
def decodeFragment : Bytes → Option Fragment
  | kind :: seqHigh :: seqLow :: totalHigh :: totalLow :: data =>
      if kind = fragmentStart ∨ kind = fragmentContinue ∨ kind = fragmentEnd then
        some { seq := Bytes.toU16 seqHigh seqLow, total := Bytes.toU16 totalHigh totalLow, data := data }
      else none
  | _ => none

/-- `Reassembler`. -/
structure Reassembler where
  buf : Bytes
  nextSeq : Nat
  total : Nat
  active : Bool
  deriving DecidableEq

namespace Reassembler

/-- `Reassembler::default`. -/
def empty : Reassembler := { buf := [], nextSeq := 0, total := 0, active := false }

/-- A fragment with number zero starts a packet. -/
def started (r : Reassembler) (fragment : Fragment) : Reassembler :=
  if fragment.seq = 0 then { buf := [], nextSeq := 0, total := fragment.total, active := true } else r

/-- `Reassembler::absorb`. -/
def absorb (r : Reassembler) (fragment : Fragment) : Except String (Option Bytes) × Reassembler :=
  let r := r.started fragment
  if !r.active then (.error "fragment without a start", r)
  else if fragment.seq ≠ r.nextSeq ∨ fragment.total ≠ r.total then
    (.error "fragment out of sequence", { r with active := false })
  else if hwMtu < r.buf.length + fragment.data.length then
    (.error "packet larger than the hardware MTU", { r with active := false })
  else
    let r := { r with buf := r.buf ++ fragment.data, nextSeq := (r.nextSeq + 1) % 65536 }
    if r.nextSeq = r.total then (.ok (some r.buf), { r with active := false, buf := [] })
    else (.ok none, r)

end Reassembler

end Reticulum.Ble
