import Reticulum.Transport.Instance

/-!
# Tunnels

`Transport::tunnel_synthesize_handler`, `handle_tunnel` and
`restore_tunnel_paths` (`src/transport.rs`), and the packet that
`synthesize_tunnel` builds.

## Implementation notes

The paths of a tunnel are a hash map, so they are walked in an order that the
caller gives.
-/

namespace Reticulum.Transport

/-- `HASHLENGTH / 8`. -/
def hashLen : Nat := 32

/-- The length of the data of a tunnel synthesis. -/
def synthesisLen : Nat := keyLen + hashLen + Wire.dstLen + signatureLen

/-- The id of the tunnel of an identity over an interface. -/
def tunnelIdOf (c : Crypto) (publicKey interfaceHash : Bytes) : Bytes :=
  (c.fullHash (publicKey ++ interfaceHash)).1

/-- What `synthesize_tunnel` signs. -/
def synthesisSigned (publicKey interfaceHash randomHash : Bytes) : Bytes :=
  publicKey ++ interfaceHash ++ randomHash

/-- The data of the packet that `synthesize_tunnel` builds. -/
def synthesisData (publicKey interfaceHash randomHash signature : Bytes) : Bytes :=
  synthesisSigned publicKey interfaceHash randomHash ++ signature

/-- The routes of a destination after a recorded path is put back: not when it has
expired, and not when an unexpired route with fewer hops is known. -/
def restorePath (routes : List PathEntry) (recorded : TunnelPath) (interface : String)
    (now : ℚ) : Option (List PathEntry) :=
  let live := (routes.filter fun e => now < e.expires).map (·.hops)
  if recorded.expires < now ∨ live.any (· < recorded.hops) then none
  else some (admitRoute routes
    { timestamp := now
      nextHop := recorded.nextHop
      hops := recorded.hops
      expires := recorded.expires
      receivingInterface := some interface
      packetHash := recorded.packetHash })

/-- One round of `restore_tunnel_paths`: the state, and the destinations dropped so far. -/
def restoreTunnelPath (interface : String) (recorded : Table TunnelPath) (now : ℚ)
    (acc : TransportState × List Bytes) (destinationHash : Bytes) :
    TransportState × List Bytes :=
  let (s, deprecated) := acc
  match recorded destinationHash with
  | none => acc
  | some path =>
      match restorePath ((s.pathTable destinationHash).getD []) path interface now with
      | none => (s, deprecated ++ [destinationHash])
      | some routes => ({ s with
          pathTable := s.pathTable.insert destinationHash routes
          pathTableDirty := true }, deprecated)

def restoreTunnelPaths (s : TransportState) (interface : String) (recorded : Table TunnelPath)
    (now : ℚ) (order : List Bytes) : TransportState × List Bytes :=
  order.foldl (restoreTunnelPath interface recorded now) (s, [])

/-- `interface.tunnel_id = tunnel_id`. -/
def setTunnelId (interfaces : List InterfaceStub) (name : String) (tunnelId : Bytes) :
    List InterfaceStub :=
  match interfaces.findIdx? fun i => i.name == name with
  | none => interfaces
  | some k => interfaces.modify k fun i => { i with tunnelId := some tunnelId }

/-- `Transport::handle_tunnel`: a tunnel that is known gets its paths back on the
interface, another one is created. -/
def handleTunnel (s : TransportState) (r : Reading) (tunnelId : Bytes) (interface : String)
    (order : List Bytes) : TransportState :=
  let s := { s with interfaces := setTunnelId s.interfaces interface tunnelId }
  match s.tunnels tunnelId with
  | some tunnel =>
      let (s, deprecated) := restoreTunnelPaths s interface tunnel.paths r.now order
      { s with
        tunnels := s.tunnels.insert tunnelId { tunnel with
          interface := some interface
          expires := r.now + destinationTimeout
          paths := deprecated.foldl Table.remove tunnel.paths } }
  | none => { s with
      tunnels := s.tunnels.insert tunnelId
        { tunnelId := tunnelId
          interface := some interface
          paths := fun _ => none
          expires := r.now + destinationTimeout } }

/-- The tunnel and the interface that `tunnel_synthesize_handler` calls `handle_tunnel`
with. The signature at the end of the data is not looked at. -/
def synthesizedTunnel (c : Crypto) (p : Wire.Packet) : Option (Bytes × String) :=
  if p.data.length ≠ synthesisLen then none
  else p.receivingInterface.map fun name =>
    (tunnelIdOf c (p.data.take keyLen) (slice p.data keyLen hashLen), name)

def tunnelSynthesizeHandler (c : Crypto) (n : Instance) (call : Call) (p : Wire.Packet) : Instance :=
  match synthesizedTunnel c p with
  | none => n
  | some (tunnelId, interface) => { n with
      toTransportState := handleTunnel n.toTransportState call.reading tunnelId interface
        call.tunnelPaths }

/-! ## What a tunnel changes -/

theorem restoreTunnelPaths_eq (s : TransportState) (interface : String)
    (recorded : Table TunnelPath) (now : ℚ) (order : List Bytes) :
    ∃ pathTable dirty, (restoreTunnelPaths s interface recorded now order).1 =
      { s with pathTable := pathTable, pathTableDirty := dirty } := by
  have hfold : ∀ acc : TransportState × List Bytes, ∃ pathTable dirty,
      (order.foldl (restoreTunnelPath interface recorded now) acc).1 =
        { acc.1 with pathTable := pathTable, pathTableDirty := dirty } := by
    induction order with
    | nil => exact fun _ => ⟨_, _, rfl⟩
    | cons hash order ih =>
        intro acc
        obtain ⟨pathTable, dirty, heq⟩ := ih (restoreTunnelPath interface recorded now acc hash)
        refine ⟨pathTable, dirty, heq.trans ?_⟩
        unfold restoreTunnelPath
        dsimp only
        split
        · rfl
        · split <;> rfl
  exact hfold (s, [])

/-- A tunnel changes routes, tunnels, and the tunnel of an interface. -/
theorem handleTunnel_eq (s : TransportState) (r : Reading) (tunnelId : Bytes) (interface : String)
    (order : List Bytes) :
    ∃ interfaces pathTable dirty tunnels, handleTunnel s r tunnelId interface order =
      { s with
        interfaces := interfaces, pathTable := pathTable, pathTableDirty := dirty
        tunnels := tunnels } := by
  unfold handleTunnel
  dsimp only
  split
  · rename_i tunnel _
    obtain ⟨pathTable, dirty, heq⟩ := restoreTunnelPaths_eq
      { s with interfaces := setTunnelId s.interfaces interface tunnelId } interface tunnel.paths
      r.now order
    rw [heq]
    exact ⟨_, _, _, _, rfl⟩
  · exact ⟨_, _, _, _, rfl⟩

end Reticulum.Transport
