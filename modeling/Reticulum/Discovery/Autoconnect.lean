import Reticulum.Lib.Threads
import Reticulum.Discovery.Handler

/-!
# Auto-connecting discovered interfaces

`InterfaceDiscovery` dials the interfaces that it hears announced, up to a number of them, watches
over those that it connected, and takes them off Transport again. A dial runs outside the lock of
`autoconnects`: it reserves its endpoint and a name in one section, and settles in another.

## Implementation notes

Every section under the lock, every call into Transport and every access to a flag is one task;
`Task` names what a call does next together with what it has in hand. The calls that a pass of the
monitor makes run on its own thread. A client is known by a number. An answer from outside says
how a dial or a thread start goes, whether a client is online or busy, what the clock shows, which entries
are listed, and which of the configured clients could be torn down. Who registered a name is kept
with the registration, and `removals`, `gone` and `stopReturned` are a record.
-/

namespace Reticulum.Discovery.Autoconnect

open Threads

/-! ## Addresses that are not dialled -/

def hexDigitValue (c : Char) : Nat :=
  if c.isDigit then c.toNat - '0'.toNat
  else if 'a' ≤ c && c ≤ 'f' then c.toNat - 'a'.toNat + 10
  else c.toNat - 'A'.toNat + 10

/-- The first byte of an IPv6 address. The group before a double colon at the start is zero. -/
def firstOctet (chars : List Char) : Nat :=
  ((chars.takeWhile fun c => c != ':').foldl (fun n c => 16 * n + hexDigitValue c) 0) / 256

/-- An address in Yggdrasil's 200::/7. -/
def isYggIpv6 (address : String) : Bool :=
  let front := (splitOnce '%' address.toList).elim address.toList Prod.fst
  isIpAddress address && isIpv6 front && (firstOctet front &&& 0xFE == 0x02)

def isOnionAddress (address : String) : Bool :=
  ".onion".toList.isSuffixOf (address.toList.map Char.toLower)

def isInvalidIpAddress (address : String) : Bool :=
  ["127.0.0.1", "0.0.0.0"].contains address

example : ["201::1", "0300::", "1::2", "2ff::%a"].map isYggIpv6 = [true, true, false, true] := by
  decide

/-! ## Transport -/

/-- Who registered a name. -/
inductive Owner
  | discovered (interface : Nat)
  | other
  deriving DecidableEq

/-- A registered interface. -/
structure Stub where
  name : String
  address : Option String := none
  port : Option Nat := none
  online : Bool := false
  bootstrapOnly : Bool := false
  owner : Owner := .other

/-! ## State -/

/-- One auto-connected interface. -/
structure Autoconnected where
  name : String
  endpointHash : Bytes
  interface : Nat
  downSince : Option Int := none

/-- A dial with what it reserved. -/
structure Dial where
  name : String
  address : String
  port : Nat
  endpointHash : Bytes

/-- A configured interface that is only there until enough discovered ones are online. -/
structure BootstrapConfig where
  name : String
  address : Option String := none
  port : Option Nat := none

/-- The limit, the hash function, the monitor's threshold and the bootstrap interfaces. -/
structure Setting where
  maxAutoconnected : Nat
  fullHash : String → Bytes
  detachThreshold : Int
  bootstrapConfigs : List BootstrapConfig

/-- What the threads share under the locks of the monitor and of `Transport`. -/
structure Core where
  monitored : List Autoconnected := []
  dialling : List (Bytes × String) := []
  stopped : Bool := false
  monitoringAutoconnects : Bool := false
  initialAutoconnectRan : Bool := false
  interfaces : List Stub := []
  localClientInterfaces : List String := []
  outboundHandlers : List (String × Owner) := []
  clients : Nat := 0
  removals : List (Autoconnected × Owner) := []
  gone : List Nat := []
  stopReturned : Bool := false

namespace Core

variable (c : Core)

/-- An interface has this address, and this port if there is one. -/
def hasInterfaceEndpoint (address : String) (port : Option Nat) : Bool :=
  c.interfaces.any fun iface =>
    iface.address == some address && port.all fun p => iface.port == some p

/-- Some interface has this name. -/
def interfaceRegistered (name : String) : Bool :=
  c.interfaces.any (fun iface => iface.name == name) || c.localClientInterfaces.contains name

/-- A handler that had the name is replaced. -/
def registerOutboundHandler (name : String) (owner : Owner) : Core :=
  { c with outboundHandlers := Assoc.put c.outboundHandlers name owner }

def unregisterOutboundHandler (name : String) : Core :=
  { c with outboundHandlers := Assoc.retain (fun n => n != name) c.outboundHandlers }

/-- A name that is registered stays as it is. -/
def registerInterfaceStubConfig (stub : Stub) : Core :=
  if c.interfaces.any fun iface => iface.name == stub.name then c
  else { c with interfaces := c.interfaces ++ [stub] }

/-- Whoever registered it, the name is gone. -/
def deregisterInterfaceStub (name : String) : Core :=
  { c with
    interfaces := c.interfaces.filter fun iface => iface.name != name
    localClientInterfaces := c.localClientInterfaces.filter fun n => n != name }

/-- All stubs of the name change. -/
def setInterfaceOnline (name : String) (online : Bool) : Core :=
  { c with
    interfaces := c.interfaces.map fun iface =>
      if iface.name == name then { iface with online } else iface }

def onlineInterfaceNames : List String :=
  (c.interfaces.filter Stub.online).map Stub.name

def bootstrapInterfaces : List String :=
  (c.interfaces.filter Stub.bootstrapOnly).map Stub.name

/-- Whose registrations removing a name's handler, or its stub, takes away. -/
def handlerOwners (name : String) : List Owner :=
  (c.outboundHandlers.filter fun e => e.1 == name).map Prod.snd

/-- The same for the stubs and the local clients of a name. -/
def stubOwners (name : String) : List Owner :=
  (c.interfaces.filter fun iface => iface.name == name).map Stub.owner ++
    (c.localClientInterfaces.filter fun n => n == name).map fun _ => .other

end Core

/-! ## Names and endpoints -/

/-- An address and a port, as they are written. -/
def endpoint (address : String) (port : Nat) : String := address ++ ":" ++ toString port

/-- The hash that tells endpoints apart. -/
def endpointHash (st : Setting) (info : InterfaceInfo) : Bytes :=
  st.fullHash (info.reachableOn.getD "" ++ info.port.elim "" fun port => ":" ++ toString port)

/-- An auto-connected interface on this endpoint, one being dialled, or any interface whose target
is the announced address and port. -/
def existsIn (c : Core) (info : InterfaceInfo) (hash : Bytes) : Bool :=
  (c.monitored.any fun entry => entry.endpointHash == hash) ||
    (c.dialling.any fun dialling => dialling.1 == hash) ||
    info.reachableOn.any fun address => c.hasInterfaceEndpoint address info.port

/-- An interface has this name, or is about to. -/
def nameTaken (c : Core) (name : String) : Bool :=
  c.interfaceRegistered name || (c.monitored.any fun entry => entry.name == name) ||
    c.dialling.any fun dialling => dialling.2 == name

/-- A name with its endpoint added. -/
def withEndpoint (name address : String) (port : Nat) : String :=
  name ++ " [" ++ endpoint address port ++ "]"

/-- `unique_interface_name`. -/
def uniqueInterfaceName (c : Core) (name address : String) (port : Nat) : String :=
  if nameTaken c name then withEndpoint name address port else name

/-- Those connected and those being dialled. -/
def autoconnectCount (c : Core) : Nat := c.monitored.length + c.dialling.length

/-! ## The monitor's plan -/

/-- What a pass of the monitor saw of one auto-connected interface. -/
inductive Watch
  | online
  | reconnected
  | disconnected
  | down
  | detach
  deriving DecidableEq

/-- One pass of the monitor, decided before anything is done about it. -/
structure MonitorPass where
  watches : List Watch
  online : Nat
  teardownBootstrap : Bool
  restoreBootstrap : Bool
  connectCandidate : Bool
  deriving DecidableEq

/-- What the monitor makes of one interface, from whether it is online and since when it is not. -/
def watch (now detachThreshold : Int) : Bool × Option Int → Watch
  | (true, some _) => .reconnected
  | (true, none) => .online
  | (false, none) => .disconnected
  | (false, some down) => if detachThreshold ≤ now - down then .detach else .down

/-- What a monitor pass decides from what it saw. -/
def planMonitorPass (seen : List (Bool × Option Int)) (now detachThreshold : Int)
    (maxAutoconnected autoconnected bootstrapInterfaces : Nat) (initialAutoconnectRan : Bool) :
    MonitorPass :=
  let online := (seen.filter Prod.fst).length
  let freeSlots := maxAutoconnected - autoconnected
  let reservedSlots := maxAutoconnected / 4
  { watches := seen.map (watch now detachThreshold)
    online := online
    teardownBootstrap := maxAutoconnected ≤ online
    restoreBootstrap := online == 0 && bootstrapInterfaces == 0
    connectCandidate := initialAutoconnectRan && reservedSlots < freeSlots }

example : (planMonitorPass [(true, none), (true, some 970), (false, none), (false, some 989),
    (false, some 988)] 1000 12 2 5 0 true).watches =
    [.online, .reconnected, .disconnected, .down, .detach] := by decide

example : (planMonitorPass [] 100 12 4 3 0 true).connectCandidate = false ∧
    (planMonitorPass [] 100 12 4 2 0 true).connectCandidate = true := by decide

/-- What the pass writes into an entry. -/
def Autoconnected.watched (now : Int) (entry : Autoconnected) : Watch → Autoconnected
  | .reconnected => { entry with downSince := none }
  | .disconnected => { entry with downSince := some now }
  | _ => entry

/-! ## Tasks -/

/-- On whose behalf an interface is taken off Transport: an auto-connect that found the discovery
stopped, a teardown, or `stop`, with the interfaces that it has still to take off. -/
inductive Remover
  | tryAutoconnect
  | teardown
  | stop (rest : List Autoconnected)

/-- What a thread still has to do. -/
inductive Task
  | connectDiscovered
  | connectNext (infos : List InterfaceInfo)
  | tryAutoconnect (info : InterfaceInfo)
  | reserve (info : InterfaceInfo)
  | connect (dial : Dial)
  | registerHandler (dial : Dial) (interface : Nat)
  | registerStub (dial : Dial) (interface : Nat)
  | settle (dial : Dial) (connected : Option Nat)
  | monitorInterface
  | startMonitor
  | monitorFailed
  | monitorJob
  | monitorWake
  | passOnline
  | passBootstrap (online : List String)
  | passPlan (online bootstrap : List String)
  | restore (config : BootstrapConfig)
  | restoreHandler (config : BootstrapConfig)
  | restoreStub (config : BootstrapConfig)
  | candidate (info : InterfaceInfo)
  | teardownBootstrap (names : List String)
  | bootstrapHandler (name : String)
  | bootstrapStub (name : String)
  | teardownInterface (name : String)
  | removeHandler (remover : Remover) (entry : Autoconnected)
  | removeStub (remover : Remover) (entry : Autoconnected)
  | setStopped
  | clearMonitoring
  | takeMonitored
  | stopNext (entries : List Autoconnected)
  | setOnline (name : String) (online : Bool)

/-- What comes from outside while a task runs. -/
structure Answer where
  succeeds : Bool := true
  registers : Bool := true
  online : Bool := false
  busy : Bool := false
  now : Int := 0
  listed : List InterfaceInfo := []
  selected : Option InterfaceInfo := none
  tornDown : List String := []

abbrev Outcome := Threads.Outcome Core Task

def autoconnectTypes : List String := ["BackboneInterface", "TCPServerInterface"]

variable (st : Setting)

/-- The first section of `try_autoconnect`. -/
def reserve (info : InterfaceInfo) (c : Core) : Outcome :=
  let hash := endpointHash st info
  if st.maxAutoconnected ≤ autoconnectCount c then { core := c }
  else if !autoconnectTypes.contains info.interfaceType then { core := c }
  else if existsIn c info hash then { core := c }
  else
    match info.reachableOn with
    | none => { core := c }
    | some address =>
        if isYggIpv6 address || isOnionAddress address then { core := c }
        else if isIpAddress address && isInvalidIpAddress address then { core := c }
        else if info.interfaceType != "BackboneInterface" then { core := c }
        else
          match info.port with
          | none => { core := c }
          | some port =>
              let name := uniqueInterfaceName c info.name address port
              { core := { c with dialling := c.dialling ++ [(hash, name)] }
                next := [.connect { name, address, port, endpointHash := hash }] }

/-- The second section. Where the discovery has stopped, the new interface is taken off again. -/
def settle (dial : Dial) (connected : Option Nat) (c : Core) : Outcome :=
  let dialling := c.dialling.filter fun d => d.1 != dial.endpointHash
  match connected with
  | none => { core := { c with dialling } }
  | some interface =>
      let entry : Autoconnected := { name := dial.name, endpointHash := dial.endpointHash, interface }
      if c.stopped then { core := { c with dialling }, next := [.removeHandler .tryAutoconnect entry] }
      else
        { core := { c with dialling, monitored := c.monitored ++ [entry] }
          next := [.monitorInterface] }

/-- The section of a pass of the monitor, and what the pass goes on to do. -/
def passPlan (online bootstrap : List String) (answer : Answer) (c : Core) : Outcome :=
  let seen := c.monitored.map fun entry => (online.contains entry.name, entry.downSince)
  let pass := planMonitorPass seen answer.now st.detachThreshold st.maxAutoconnected
    (autoconnectCount c) bootstrap.length c.initialAutoconnectRan
  let watched := c.monitored.zip pass.watches
  let detached := (watched.filter fun w => w.2 == .detach).map fun w => w.1.name
  { core := { c with monitored := watched.map fun w => w.1.watched answer.now w.2 }
    next :=
      (if pass.restoreBootstrap then st.bootstrapConfigs.map .restore else []) ++
      (if pass.connectCandidate then answer.selected.toList.map .candidate else []) ++
      detached.map .teardownInterface ++
      (if pass.teardownBootstrap then [.teardownBootstrap bootstrap] else []) }

/-- The section of `teardown_interface`. A busy client stays. -/
def teardownInterface (name : String) (busy : Bool) (c : Core) : Outcome :=
  match c.monitored.find? fun entry => entry.name == name with
  | none => { core := c }
  | some entry =>
      if busy then { core := c }
      else
        { core := { c with monitored := c.monitored.eraseP fun entry => entry.name == name }
          next := [.removeHandler .teardown entry] }

/-- `unregister_outbound_handler` for an interface that is taken off. -/
def removeHandler (remover : Remover) (entry : Autoconnected) (c : Core) : Outcome :=
  { core :=
      { c.unregisterOutboundHandler entry.name with
        removals := c.removals ++ (c.handlerOwners entry.name).map fun owner => (entry, owner) }
    next := [.removeStub remover entry] }

/-- `deregister_interface_stub` for an interface that is taken off. -/
def removeStub (remover : Remover) (entry : Autoconnected) (c : Core) : Outcome :=
  { core :=
      { c.deregisterInterfaceStub entry.name with
        removals := c.removals ++ (c.stubOwners entry.name).map fun owner => (entry, owner)
        gone := c.gone ++ [entry.interface] }
    next := match remover with
      | .stop rest => [.stopNext rest]
      | _ => [] }

/-- One task, up to the next lock. -/
def exec : Task → Answer → Core → Outcome
  | .connectDiscovered, answer, c =>
      { core := c, next := if 0 < st.maxAutoconnected then [.connectNext answer.listed] else [] }
  | .connectNext infos, _, c =>
      match infos with
      | [] => { core := { c with initialAutoconnectRan := true } }
      | info :: rest =>
          if st.maxAutoconnected ≤ autoconnectCount c then { core := c, next := [.connectNext []] }
          else { core := c, next := [.tryAutoconnect info, .connectNext rest] }
  | .tryAutoconnect info, _, c =>
      { core := c, next := if c.stopped || st.maxAutoconnected == 0 then [] else [.reserve info] }
  | .reserve info, _, c => reserve st info c
  | .connect dial, answer, c =>
      if answer.succeeds then
        { core := { c with clients := c.clients + 1 }, next := [.registerHandler dial c.clients] }
      else { core := c, next := [.settle dial none] }
  | .registerHandler dial interface, _, c =>
      { core := c.registerOutboundHandler dial.name (.discovered interface)
        next := [.registerStub dial interface] }
  | .registerStub dial interface, answer, c =>
      { core := c.registerInterfaceStubConfig
          { name := dial.name, address := some dial.address, port := some dial.port,
            online := answer.online, owner := .discovered interface }
        next := [.settle dial (some interface)] }
  | .settle dial connected, _, c => settle dial connected c
  | .monitorInterface, _, c => { core := c, next := if c.stopped then [] else [.startMonitor] }
  | .startMonitor, answer, c =>
      if c.monitoringAutoconnects then { core := c }
      else if answer.succeeds then
        { core := { c with monitoringAutoconnects := true }, started := [[.monitorJob]] }
      else { core := { c with monitoringAutoconnects := true }, next := [.monitorFailed] }
  | .monitorFailed, _, c => { core := { c with monitoringAutoconnects := false } }
  | .monitorJob, _, c => { core := c, next := if c.monitoringAutoconnects then [.monitorWake] else [] }
  | .monitorWake, _, c =>
      { core := c, next := if c.monitoringAutoconnects then [.passOnline, .monitorJob] else [] }
  | .passOnline, _, c => { core := c, next := [.passBootstrap c.onlineInterfaceNames] }
  | .passBootstrap online, _, c => { core := c, next := [.passPlan online c.bootstrapInterfaces] }
  | .passPlan online bootstrap, answer, c => passPlan st online bootstrap answer c
  | .restore config, answer, c =>
      { core := c
        -- An interface of a type that registers nothing of its own is not registered either.
        next := if answer.registers then
            if answer.succeeds then [.restoreHandler config, .restoreStub config]
            else [.restoreStub config]
          else [] }
  | .restoreHandler config, _, c => { core := c.registerOutboundHandler config.name .other }
  | .restoreStub config, answer, c =>
      { core := c.registerInterfaceStubConfig
          { name := config.name, address := config.address, port := config.port,
            online := answer.online, bootstrapOnly := true } }
  | .candidate info, _, c =>
      { core := c
        next := if existsIn c info (endpointHash st info) then [] else [.tryAutoconnect info] }
  | .teardownBootstrap names, answer, c =>
      { core := c
        next := (names.filter fun name => answer.tornDown.contains name).flatMap fun name =>
          [.bootstrapHandler name, .bootstrapStub name] }
  | .bootstrapHandler name, _, c => { core := c.unregisterOutboundHandler name }
  | .bootstrapStub name, _, c => { core := c.deregisterInterfaceStub name }
  | .teardownInterface name, answer, c => teardownInterface name answer.busy c
  | .removeHandler remover entry, _, c => removeHandler remover entry c
  | .removeStub remover entry, _, c => removeStub remover entry c
  | .setStopped, _, c => { core := { c with stopped := true }, next := [.clearMonitoring] }
  | .clearMonitoring, _, c =>
      { core := { c with monitoringAutoconnects := false }, next := [.takeMonitored] }
  | .takeMonitored, _, c =>
      { core := { c with monitored := [] }, next := [.stopNext c.monitored] }
  | .stopNext entries, _, c =>
      match entries with
      | [] => { core := { c with stopReturned := true } }
      | entry :: rest => { core := c, next := [.removeHandler (.stop rest) entry] }
  | .setOnline name online, _, c => { core := c.setInterfaceOnline name online }

/-- The calls. The passes of the monitor run on the thread that the first connected interface
starts. -/
inductive Call
  | connectDiscovered
  | autoconnect (info : InterfaceInfo)
  | teardownInterface (name : String)
  | stop
  | setInterfaceOnline (name : String) (online : Bool)

/-- The first task of a call. -/
def start : Call → List Task
  | .connectDiscovered => [.connectDiscovered]
  | .autoconnect info => [.tryAutoconnect info]
  | .teardownInterface name => [.teardownInterface name]
  | .stop => [.setStopped]
  | .setInterfaceOnline name online => [.setOnline name online]

/-- The threads of auto-connection. -/
def system : System Core Task Answer Call := ⟨start, exec st⟩

end Reticulum.Discovery.Autoconnect
