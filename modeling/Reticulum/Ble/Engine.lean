import Reticulum.Ble.Wire
import Reticulum.Lib.Assoc
import Mathlib.Data.Rat.Defs

/-!
# The Bluetooth engine

The dialer as a state machine (`prns-ble/src/engine.rs`): every event of the host
returns the effects that it causes. A link dials, shakes hands and settles, and is
gone after that.

## Implementation notes

The map of the links is the list of its entries, of which no function here depends on
the order except through which of two links comes first. Instants are in nanoseconds.
-/

namespace Reticulum.Ble

/-- A second. -/
def second : Nat := 1000000000

def handshakeCeiling : Nat := 10 * second

def dialCeiling : Nat := 15 * second

def dialRetry : Nat := 16 * second

def dialFailedRetry : Nat := 5 * second

def maxNodes : Nat := 1

def maxQueuedPackets : Nat := 96

def maxFragment : Nat := 512

inductive Characteristic
  | control
  | data
  deriving DecidableEq

inductive LinkState
  | handshaking
  | settled
  | closed
  | dialing
  deriving DecidableEq

inductive Level
  | error
  | warning
  | notice
  | debug
  deriving DecidableEq

inductive Effect
  | scan (on : Bool)
  | write (link : Nat) (characteristic : Characteristic) (bytes : Bytes)
  | disconnect (link : Nat)
  | state (link : Nat) (state : LinkState) (peer : Option (Bytes.Block 16))
      (interface : Option String)
  | register (name : String) (link : Nat)
  | handOver (name : String) (link : Nat)
  | deregister (name : String)
  | inbound (name : String) (packet : Bytes)
  | checkLate (label : String) (sentAtUnix : ℚ)
  | log (level : Level) (message : String)
  deriving DecidableEq

inductive Phase
  | dialing (dialedAtUnix : ℚ) (deadline : Nat)
  | handshaking (helloSentAtUnix : ℚ) (deadline : Nat)
  | settled (peer : Bytes.Block 16) (interface : String)
  deriving DecidableEq

structure InFlight where
  sentAtUnix : ℚ
  handshake : Bool
  deriving DecidableEq

structure Link where
  address : String
  fragmentSize : Nat
  phase : Phase
  tx : List (List Bytes)
  inFlight : Option InFlight
  reassembler : Reassembler
  badFragments : Nat
  deriving DecidableEq

structure Engine where
  identity : Bytes.Block 16
  endpoint : Endpoint
  links : List (Nat × Link)
  nextLink : Nat
  retryAfter : String → Option Nat
  scanning : Bool

/-- One digit of `hex`. -/
def hexDigit (n : Nat) : Char := if n < 10 then Char.ofNat (48 + n) else Char.ofNat (87 + n)

def hex (bytes : Bytes) : String :=
  String.ofList (bytes.flatMap fun b => [hexDigit (b.toNat / 16), hexDigit (b.toNat % 16)])

def interfaceName (peer : Bytes.Block 16) : String := "PrnsBLE[" ++ hex peer.1 ++ "]"

/-- How a reason is shown. -/
def CloseReason.show : CloseReason → String
  | .selfConnection => "SelfConnection"
  | .duplicateLink => "DuplicateLink"
  | .incompatible => "Incompatible"

/-- How the name of a link is shown in a line of the log. -/
def linkText (link : Nat) (rest : String) : String := "link " ++ toString link ++ ": " ++ rest

/-- The fragment that is written next, and what remains of the queue. -/
def takeFragment : List (List Bytes) → Option Bytes × List (List Bytes)
  | [] => (none, [])
  | [] :: tx => takeFragment tx
  | (fragment :: packet) :: tx =>
      (some fragment, if packet.isEmpty then tx else packet :: tx)

def nextWrite (link : Nat) (state : Link) (nowUnix : ℚ) : Option Effect × Link :=
  if state.inFlight.isSome then (none, state)
  else
    match takeFragment state.tx with
    | (none, tx) => (none, { state with tx := tx })
    | (some fragment, tx) =>
        (some (.write link .data fragment),
          { state with
            tx := tx
            inFlight := some { sentAtUnix := nowUnix, handshake := false } })

namespace Engine

def new (identity : Bytes.Block 16) (endpoint : Endpoint) : Engine :=
  { identity := identity, endpoint := endpoint, links := [], nextLink := 1
    retryAfter := fun _ => none, scanning := true }

section

variable (e : Engine) (link : Nat)

def scanEffect : List Effect × Engine :=
  let wanted : Bool := e.links.length < maxNodes
  if wanted = e.scanning then ([], e) else ([.scan wanted], { e with scanning := wanted })

/-- What closing a link says of its phase. -/
def closedPhase : Phase → List Effect × Option (Bytes.Block 16) × Option String
  | .settled peer interface => ([.deregister interface], some peer, some interface)
  | _ => ([], none, none)

def close (why : String) (disconnect : Bool) : List Effect × Engine :=
  match Assoc.get e.links link with
  | none => ([], e)
  | some state =>
      let (deregister, peer, interface) := closedPhase state.phase
      let (scan, e) := scanEffect { e with links := Assoc.retain (· ≠ link) e.links }
      (deregister ++ (if disconnect then [.disconnect link] else []) ++
        [.state link .closed peer interface, .log .notice (linkText link ("closed, " ++ why))] ++
          scan, e)

def failDial (now : Nat) (why : String) : List Effect × Engine :=
  let e := match Assoc.get e.links link with
    | some state =>
        { e with
          retryAfter := Function.update e.retryAfter state.address (some (now + dialFailedRetry)) }
    | none => e
  e.close link why false

def sighted (address : String) (companyId : UInt16) (data : Bytes) (now : Nat)
    (nowUnix : ℚ) : Option Nat × List Effect × Engine :=
  if !isPeripheralOnly companyId data then (none, [], e)
  else if maxNodes ≤ e.links.length ∨ (e.links.any fun l => l.2.address == address) ∨
      ((e.retryAfter address).any fun after => now < after) then (none, [], e)
  else
    let retryAfter := fun other => (e.retryAfter other).filter fun after => now < after
    let link := e.nextLink
    let state : Link :=
      { address := address, fragmentSize := 0
        phase := .dialing nowUnix (now + dialCeiling)
        tx := [], inFlight := none, reassembler := .empty, badFragments := 0 }
    let (scan, e) := scanEffect { e with
      retryAfter := Function.update retryAfter address (some (now + dialRetry))
      nextLink := link + 1
      links := Assoc.put e.links link state }
    (some link, [.state link .dialing none none,
      .log .notice (linkText link ("dialling RTNode " ++ address))] ++ scan, e)

def linkReady (maxWriteLen : Nat) (now : Nat) (nowUnix : ℚ) :
    Except String (List Effect) × Engine :=
  match Assoc.get e.links link with
  | none => (.error ("link " ++ toString link ++ " is not being dialled"), e)
  | some state =>
      match state.phase with
      | .dialing dialedAtUnix _ =>
          let fragmentSize := min maxWriteLen maxFragment
          if fragmentSize ≤ fragmentHeaderLen then
            let (effects, e) := e.failDial link now
              ("a write of " ++ toString maxWriteLen ++ " bytes cannot carry a fragment")
            (.ok (effects ++ [.disconnect link]), e)
          else
            let hello := Control.encode (.hello
              { identity := e.identity, endpoint := e.endpoint, psm := 0, linkMtu := hwMtu
                rssi := none })
            (.ok [.checkLate "prns_ble.dial" dialedAtUnix, .state link .handshaking none none,
              .write link .control hello,
              .log .notice (linkText link ("Hello sent, fragments up to " ++
                toString fragmentSize ++ " bytes"))],
              { e with
                links := Assoc.put e.links link
                  { state with
                    fragmentSize := fragmentSize
                    phase := .handshaking nowUnix (now + handshakeCeiling)
                    inFlight := some { sentAtUnix := nowUnix, handshake := true } } })
      | _ => (.error ("link " ++ toString link ++ " is already past dialling"), e)

/-- The link on which a peer was settled before. -/
def previous (peer : Bytes.Block 16) : Option Nat :=
  (e.links.find? fun entry => match entry.2.phase with
    | .settled other _ => entry.1 != link && other == peer
    | _ => false).map Prod.fst

/-- A peer that settles gets an interface, or takes it over from its previous link. -/
def takeOver (name : String) (peer : Bytes.Block 16) :
    List Effect × Engine :=
  match e.previous link peer with
  | some old =>
      ([Effect.handOver name link, Effect.disconnect old,
        Effect.state old .closed (some peer) (some name)],
        { e with links := Assoc.retain (· ≠ old) e.links })
  | none => ([Effect.register name link], e)

/-- The link is settled, and its address may be dialled again. -/
def settleLink (name : String) (peer : Bytes.Block 16) : Engine :=
  match Assoc.get e.links link with
  | some state =>
      { e with
        retryAfter := Function.update e.retryAfter state.address none
        links := Assoc.put e.links link { state with phase := .settled peer name } }
  | none => e

def settle (greeting : Greeting) (helloSentAtUnix : ℚ) :
    List Effect × Engine :=
  if greeting.identity = e.identity then
    e.close link "the peer has this side's own identity" true
  else
    let name := interfaceName greeting.identity
    let taken := e.takeOver link name greeting.identity
    let scan := (taken.2.settleLink link name greeting.identity).scanEffect
    ([.checkLate "prns_ble.handshake" helloSentAtUnix] ++ taken.1 ++
      [.state link .settled (some greeting.identity) (some name),
        .log .notice (linkText link ("settled with peer " ++ hex greeting.identity.1 ++
          " (endpoint " ++ toString greeting.endpoint.stack ++ "/" ++
          toString greeting.endpoint.host ++ "), interface " ++ name ++
          if (e.previous link greeting.identity).isSome then
            ", taken over from its previous link"
          else ""))] ++ scan.1, scan.2)

/-- A message on the control characteristic of a link. -/
def controlReceived (state : Link) (bytes : Bytes) :
    List Effect × Engine :=
  match Control.decode bytes with
  | some (.welcome greeting) =>
      match state.phase with
      | .handshaking helloSentAtUnix _ => e.settle link greeting helloSentAtUnix
      | .dialing _ _ => e.close link "a Welcome before the Hello" true
      | .settled _ _ => ([.log .warning (linkText link "second Welcome ignored")], e)
  | some (.close reason) =>
      e.close link ("the peer closed it (" ++ reason.show ++ ")") true
  | some (.hello _) => e.close link "the peer sent a Hello; this side only dials" true
  | none => e.close link ("undecodable control message " ++ hex bytes) true

/-- A fragment on the data characteristic of a link. -/
def dataReceived (state : Link) (bytes : Bytes) :
    List Effect × Engine :=
  match state.phase with
  | .settled _ interface =>
      let (result, reassembler) := match decodeFragment bytes with
        | some fragment => state.reassembler.absorb fragment
        | none => (.error "undecodable fragment", state.reassembler)
      let state := { state with reassembler := reassembler }
      match result with
      | .ok (some packet) =>
          ([.inbound interface packet], { e with links := Assoc.put e.links link state })
      | .ok none => ([], { e with links := Assoc.put e.links link state })
      | .error why =>
          let state := { state with badFragments := state.badFragments + 1 }
          ([.log .warning (linkText link (why ++ " (" ++ toString state.badFragments ++ " so far)"))],
            { e with links := Assoc.put e.links link state })
  | _ => ([.log .warning (linkText link "data before Welcome ignored")], e)

def linkReceived (characteristic : Characteristic) (bytes : Bytes) :
    List Effect × Engine :=
  match Assoc.get e.links link with
  | none =>
      ([.log .debug (linkText link (toString bytes.length ++ " bytes after close, ignored"))], e)
  | some state =>
      match characteristic with
      | .control => e.controlReceived link state bytes
      | .data => e.dataReceived link state bytes

def linkWriteDone (ok : Bool) (nowUnix : ℚ) : List Effect × Engine :=
  match Assoc.get e.links link with
  | none => ([], e)
  | some state =>
      match state.inFlight with
      | none =>
          ([.log .warning (linkText link "write completion with no write outstanding")], e)
      | some done =>
          let state := { state with inFlight := none }
          let e := { e with links := Assoc.put e.links link state }
          if !ok then
            e.close link (if done.handshake then "the Hello write failed" else "a write failed") true
          else
            let (write, state) := nextWrite link state nowUnix
            ((if done.handshake then [] else [.checkLate "prns_ble.write" done.sentAtUnix]) ++
              write.toList, { e with links := Assoc.put e.links link state })

def sendPacket (packet : Bytes) (nowUnix : ℚ) :
    Bool × List Effect × Engine :=
  match Assoc.get e.links link with
  | none => (false, [.log .debug (linkText link "packet for a closed link dropped")], e)
  | some state =>
      match state.phase with
      | .settled _ _ =>
          if hwMtu < packet.length then
            (false, [.log .error (linkText link (toString packet.length ++
              " byte packet exceeds the " ++ toString hwMtu ++ " byte MTU"))], e)
          else if maxQueuedPackets ≤ state.tx.length then
            (false, [.log .warning (linkText link (toString maxQueuedPackets ++
              " packets queued, " ++ toString packet.length ++ " byte packet dropped"))], e)
          else
            let state := { state with tx := state.tx ++ [fragments packet state.fragmentSize] }
            let (write, state) := nextWrite link state nowUnix
            (true, write.toList, { e with links := Assoc.put e.links link state })
      | _ => (false, [.log .warning (linkText link "packet before Welcome dropped")], e)

/-- `link_closed`. -/
def linkClosed (now : Nat) : List Effect × Engine :=
  match Assoc.get e.links link with
  | none => ([], e)
  | some state =>
      match state.phase with
      | .dialing _ _ => e.failDial link now "the dial failed"
      | _ => e.close link "disconnected" false

/-- Whether a dial or a handshake has passed its ceiling, and whether it is a dial. -/
def expired (now : Nat) : Phase → Option Bool
  | .dialing _ deadline => if deadline ≤ now then some true else none
  | .handshaking _ deadline => if deadline ≤ now then some false else none
  | .settled _ _ => none

/-- One link that `expire` ends. -/
def expireLink (now : Nat) (link : Nat) (dialing : Bool) : List Effect × Engine :=
  if dialing then
    let (effects, e) := e.failDial link now
      ("not connected within " ++ toString (dialCeiling / second) ++ " s")
    (effects ++ [.disconnect link], e)
  else e.close link ("no Welcome within " ++ toString (handshakeCeiling / second) ++ " s") true

/-- `expire`. -/
def expire (now : Nat) : List Effect × Engine :=
  (e.links.filterMap fun entry =>
    (expired now entry.2.phase).map fun dialing => (entry.1, dialing)).foldl
    (fun result entry =>
      let ended := result.2.expireLink now entry.1 entry.2
      (result.1 ++ ended.1, ended.2)) ([], e)

/-- Whether an effect is about scanning. -/
def isScan : Effect → Bool
  | .scan _ => true
  | _ => false

/-- `close_all`. -/
def closeAll : List Effect × Engine :=
  let (effects, e) := (e.links.map Prod.fst).foldl
    (fun result link =>
      let closed := result.2.close link "Bluetooth stopped" true
      (result.1 ++ closed.1, closed.2)) ([], e)
  (effects.filter fun effect => !isScan effect, e)

end

end Engine

end Reticulum.Ble
