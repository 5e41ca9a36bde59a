import Reticulum.Lib.Assoc
import Reticulum.Lib.Threads

/-!
# Peers of an AutoInterface

A peer that is heard gets an entry in `peers`, a spawned interface, an outbound handler and a stub
in Transport, one after the other; a peer that timed out loses them in another order, and `detach`
removes them all.

## Implementation notes

Every section under a lock, every call into Transport and every access to a flag is one task; the
sections that tear a spawned interface down under their lock are one task with its calls. Sockets,
listeners and carrier checks are left out, since no peer depends on them, and so is what other
interfaces registered: a name of theirs is no peer's. A stub and a handler are kept with the
address that they were registered for. `listed` and `detachReturned` are a record.
-/

namespace Reticulum.Interfaces.AutoPeers

open Threads

structure PeerInfo where
  ifname : String
  lastHeard : Int
  lastOutbound : Int

/-- A spawned interface. -/
structure AutoInterfacePeer where
  name : String
  addr : String
  ifname : String
  online : Bool := true

structure Setting where
  peeringTimeout : Int
  reversePeeringInterval : Int

structure Core where
  peers : List (String × PeerInfo) := []
  spawnedInterfaces : List (String × AutoInterfacePeer) := []
  linkLocalAddresses : List String := []
  adoptedInterfaces : List (String × String) := []
  multicastEchoes : List (String × Int) := []
  initialEchoes : List (String × Int) := []
  online : Bool := true
  detached : Bool := false
  stubs : List (String × String) := []
  outboundHandlers : List (String × String) := []
  listed : Bool := false
  detachReturned : Bool := false

def peerName (ifname addr : String) : String := "AutoInterfacePeer[" ++ ifname ++ "/" ++ addr ++ "]"

namespace Core

variable (c : Core)

def registerOutboundHandler (name addr : String) : Core :=
  { c with outboundHandlers := Assoc.put c.outboundHandlers name addr }

/-- A name that is registered stays as it is. -/
def registerAutoInterfacePeer (name addr : String) : Core :=
  if name ∈ c.stubs.map Prod.fst then c else { c with stubs := c.stubs ++ [(name, addr)] }

/-- `detach` and `teardown` of a spawned interface. -/
def teardown (peer : AutoInterfacePeer) : Core :=
  { c with
    stubs := Assoc.retain (fun n => n != peer.name) c.stubs
    outboundHandlers := Assoc.retain (fun n => n != peer.name) c.outboundHandlers }

/-- A spawned interface is taken out and torn down. -/
def dropSpawned (addr : String) : Core :=
  match Assoc.get c.spawnedInterfaces addr with
  | none => c
  | some peer =>
      { c.teardown peer with
        spawnedInterfaces := Assoc.retain (fun a => a != addr) c.spawnedInterfaces }

def spawn (addr ifname : String) : Core :=
  { c with
    spawnedInterfaces := Assoc.put c.spawnedInterfaces addr
      { name := peerName ifname addr, addr, ifname } }

/-- A peer that is known was heard. -/
def hear (addr : String) (now : Int) : Core :=
  match Assoc.get c.peers addr with
  | none => c
  | some info => { c with peers := Assoc.put c.peers addr { info with lastHeard := now } }

end Core

/-- On whose behalf a peer is removed: one that timed out, or by `detach`, with the peers that it
has still to remove. -/
inductive Remover
  | one
  | detach (rest : List String)

inductive Task
  | addPeer (addr ifname : String)
  | ownAddress (addr ifname : String)
  | echoInterface (addr : String)
  | recordEcho (ifname : String)
  | recordInitial (ifname : String) (now : Int)
  | addHeard (addr ifname : String)
  | clearSpawned (addr ifname : String)
  | spawn (addr ifname : String)
  | registerHandler (addr ifname : String)
  | registerStub (addr ifname : String)
  | removePeer (remover : Remover) (addr : String)
  | removeSpawned (remover : Remover) (addr : String)
  | peerJobs
  | timedOut (now : Int)
  | reversePeering (now : Int)
  | addressChanges
  | adopt (ifname addr : String)
  | replaceLocal (old new : String)
  | processIncoming (addr : String)
  | detach
  | goOffline
  | listPeers
  | detachNext (addrs : List String)

/-- The clock, the link-local addresses of the adopted interfaces as they are now, and whether a
packet was already heard. -/
structure Answer where
  now : Int := 0
  duplicate : Bool := false
  linkLocals : List (String × String) := []

abbrev Outcome := Threads.Outcome Core Task

variable (st : Setting)

def exec : Task → Answer → Core → Outcome
  | .addPeer addr ifname, _, c =>
      { core := c, next := if c.detached then [] else [.ownAddress addr ifname] }
  | .ownAddress addr ifname, _, c =>
      { core := c
        next := if c.linkLocalAddresses.contains addr then [.echoInterface addr]
          else [.addHeard addr ifname] }
  | .echoInterface addr, _, c =>
      { core := c
        next := (c.adoptedInterfaces.find? fun e => e.2 == addr).toList.map fun e =>
          .recordEcho e.1 }
  | .recordEcho ifname, answer, c =>
      { core := { c with multicastEchoes := Assoc.put c.multicastEchoes ifname answer.now }
        next := [.recordInitial ifname answer.now] }
  | .recordInitial ifname now, _, c =>
      if (Assoc.get c.initialEchoes ifname).isSome then { core := c }
      else { core := { c with initialEchoes := Assoc.put c.initialEchoes ifname now } }
  | .addHeard addr ifname, answer, c =>
      if (Assoc.get c.peers addr).isSome then { core := c.hear addr answer.now }
      else
        { core :=
            { c with
              peers := Assoc.put c.peers addr
                { ifname, lastHeard := answer.now, lastOutbound := answer.now } }
          next := [.clearSpawned addr ifname] }
  | .clearSpawned addr ifname, _, c => { core := c.dropSpawned addr, next := [.spawn addr ifname] }
  | .spawn addr ifname, _, c => { core := c.spawn addr ifname, next := [.registerHandler addr ifname] }
  | .registerHandler addr ifname, _, c =>
      { core := c.registerOutboundHandler (peerName ifname addr) addr
        next := [.registerStub addr ifname] }
  | .registerStub addr ifname, _, c =>
      { core := c.registerAutoInterfacePeer (peerName ifname addr) addr }
  | .removePeer remover addr, _, c =>
      { core := { c with peers := Assoc.retain (fun a => a != addr) c.peers }
        next := [.removeSpawned remover addr] }
  | .removeSpawned remover addr, _, c =>
      { core := c.dropSpawned addr
        next := match remover with
          | .one => []
          | .detach rest => [.detachNext rest] }
  | .peerJobs, answer, c => { core := c, next := if c.detached then [] else [.timedOut answer.now] }
  | .timedOut now, _, c =>
      { core := c
        next := (c.peers.filter fun e => e.2.lastHeard + st.peeringTimeout < now).map
            (fun e => .removePeer .one e.1) ++ [.reversePeering now] }
  | .reversePeering now, _, c =>
      { core :=
          { c with
            peers := c.peers.map fun e =>
              if e.2.lastOutbound + st.reversePeeringInterval < now then
                (e.1, { e.2 with lastOutbound := now })
              else e }
        next := [.addressChanges] }
  | .addressChanges, answer, c =>
      { core := c
        next := c.adoptedInterfaces.flatMap fun e =>
          match Assoc.get answer.linkLocals e.1 with
          | none => []
          | some addr => if addr == e.2 then [] else [.adopt e.1 addr, .replaceLocal e.2 addr] }
  | .adopt ifname addr, _, c =>
      { core := { c with adoptedInterfaces := Assoc.put c.adoptedInterfaces ifname addr } }
  | .replaceLocal old new, _, c =>
      let kept := c.linkLocalAddresses.filter fun a => a != old
      { core :=
          { c with linkLocalAddresses := if kept.contains new then kept else kept ++ [new] } }
  | .processIncoming addr, answer, c =>
      if c.online && (Assoc.get c.spawnedInterfaces addr).any AutoInterfacePeer.online &&
          !answer.duplicate then
        { core := c.hear addr answer.now }
      else { core := c }
  | .detach, _, c =>
      if c.detached then { core := { c with detachReturned := true } }
      else { core := { c with detached := true }, next := [.goOffline] }
  | .goOffline, _, c => { core := { c with online := false }, next := [.listPeers] }
  | .listPeers, _, c =>
      { core := { c with listed := true }, next := [.detachNext (c.peers.map Prod.fst)] }
  | .detachNext addrs, _, c =>
      match addrs with
      | [] => { core := { c with detachReturned := true } }
      | addr :: rest => { core := c, next := [.removePeer (.detach rest) addr] }

inductive Call
  | addPeer (addr ifname : String)
  | removePeer (addr : String)
  | peerJobs
  | processIncoming (addr : String)
  | detach

def start : Call → List Task
  | .addPeer addr ifname => [.addPeer addr ifname]
  | .removePeer addr => [.removePeer .one addr]
  | .peerJobs => [.peerJobs]
  | .processIncoming addr => [.processIncoming addr]
  | .detach => [.detach]

def system : System Core Task Answer Call := ⟨start, exec st⟩

end Reticulum.Interfaces.AutoPeers
