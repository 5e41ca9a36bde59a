import Reticulum.Transport.PathTable

/-!
# A node with what it dispatches

The calls that a node gets, in any order: frames that come in, path requests,
announces and packets of its own, and the passes of `jobs`. What a call hands to the
interfaces is kept beside the state, with where it came from.

## Implementation notes

What the application and the links make of a packet that is delivered is a call of
its own, as is the replay of a cached packet. The interfaces of a packet without a
route are given with the call.
-/

namespace Reticulum.Transport

/-- What is handed to an interface. -/
inductive Dispatch
  /-- a frame that was received, in whatever form; without an interface it goes to all -/
  | passedOn (interface : Option String) (raw : Bytes)
  /-- an announce of a destination of this node -/
  | announce (answer : OwnAnswer)
  /-- a path request of this node -/
  | request (request : Request)
  /-- a packet that this node created -/
  | packet (interface : String) (raw : Bytes)

/-- This node made it. -/
def Dispatch.isOwn : Dispatch → Bool
  | .passedOn _ _ => false
  | _ => true

/-- Frames that are passed on. -/
def relayed (frames : List (String × Bytes)) : List Dispatch :=
  frames.map fun frame => .passedOn (some frame.1) frame.2

/-- What a handler of a control packet sends. -/
def Answer.dispatched (answer : Answer) : List Dispatch :=
  relayed answer.frames ++ answer.requests.map .request ++ answer.announces.map .announce

/-- What a pass sends, with its tables walked in this order. -/
def JobsOutput.dispatched (output : JobsOutput) (order : List Bytes) : List Dispatch :=
  (order.filterMap output.rebroadcasts).map
      (fun sent => .passedOn sent.attachedInterface sent.raw) ++
    relayed output.frames ++
    order.filterMap fun hash => (output.requests hash).map fun attached =>
      .request { destinationHash := hash, tag := none, attachedInterface := attached }

/-- A node with all that it has dispatched. -/
structure Station where
  state : Instance
  dispatched : List Dispatch

/-- What happens to a node. -/
inductive StationEvent
  | receive (call : Call) (raw : Bytes) (receivingInterface : String)
  | requestPath (reading : Reading) (request : Request)
  | announce (answer : OwnAnswer)
  | send (reading : Reading) (packet : Wire.Packet) (destinationHash : Bytes)
      (broadcast : List String)
  | jobs (pass : Pass) (order : List Bytes)

/-- The node goes on with a new state, and has dispatched more. -/
def Station.goesOn (s : Station) (state : Instance) (dispatched : List Dispatch) : Station where
  state := state
  dispatched := s.dispatched ++ dispatched

/-- A frame comes in. -/
def Station.receive (c : Crypto) (s : Station) (call : Call) (raw : Bytes)
    (receivingInterface : String) : Station :=
  let result := Transport.receive c s.state call raw (some receivingInterface)
  s.goesOn result.1 (relayed result.2.1.outbound ++ result.2.2.dispatched)

/-- A packet of this node is sent. One whose destination has no route is broadcast. -/
def Station.send (s : Station) (r : Reading) (p : Wire.Packet) (destinationHash : Bytes)
    (broadcast : List String) : Station :=
  if s.state.pathTable.contains destinationHash then
    let result := outbound s.state.toTransportState r p destinationHash
    s.goesOn { s.state with toTransportState := result.1 }
      (result.2.1.map (fun frame => .packet frame.1 frame.2) ++ result.2.2.map fun request =>
        .request { destinationHash := request.1, tag := none, attachedInterface := request.2 })
  else s.goesOn s.state (broadcast.map fun name => .packet name p.raw)

/-- One call. -/
def Station.step (c : Crypto) (s : Station) : StationEvent → Option Station
  | .receive call raw receivingInterface => some (s.receive c call raw receivingInterface)
  | .requestPath reading request =>
      let result := requestPath s.state reading request
      some (s.goesOn result.1 (result.2.map .request))
  | .announce answer => some (s.goesOn s.state [.announce answer])
  | .send reading packet destinationHash broadcast =>
      some (s.send reading packet destinationHash broadcast)
  | .jobs pass order =>
      let result := jobs s.state pass
      some (s.goesOn result.1 (result.2.dispatched order))

/-- A node that has dispatched nothing yet. -/
def Station.start (state : Instance) : Station := { state := state, dispatched := [] }

/-- All that was dispatched is of this node. -/
def Station.Original (s : Station) : Prop := ∀ d ∈ s.dispatched, d.isOwn = true

end Reticulum.Transport
