import Reticulum.Lib.Walk
import Reticulum.Transport.PathTable

/-!
# The tunnel table on disk

`save_tunnel_table` and `load_tunnel_table` (`src/transport.rs`). A tunnel and a route
that it has recorded are vectors of tagged values; saving reads each place of the
vector for one tag, and loading builds the vector again. A file that was saved is
loaded as the table of tunnels that it was saved from (`loadTunnelFile_saved`).

## Implementation notes

The tunnels and their paths are hash maps, so they are written in an order that the
caller gives. The encoding is a parameter; a write succeeds.
-/

namespace Reticulum.Transport

inductive PathEntryValue
  | timestamp (time : ℚ)
  | nextHop (hash : Bytes)
  | hops (count : UInt8)
  | expires (time : ℚ)
  | randomBlobs (blobs : List Bytes)
  | receivingInterface (name : Option String)
  | packetHash (hash : Bytes)
  deriving DecidableEq

inductive TunnelEntryValue
  | tunnelId (id : Bytes)
  | interface (name : Option String)
  | paths (paths : List (Bytes × List PathEntryValue))
  | expires (time : ℚ)

def idxPtTimestamp : Nat := 0

def idxPtNextHop : Nat := 1

def idxPtHops : Nat := 2

def idxPtExpires : Nat := 3

def idxPtRandblobs : Nat := 4

def idxPtPacket : Nat := 6

def idxTtTunnelId : Nat := 0

def idxTtIf : Nat := 1

def idxTtPaths : Nat := 2

def idxTtExpires : Nat := 3

/-- The vector of a recorded route, as `record_tunnel_path` and `load_tunnel_table`
build it. -/
def TunnelPath.values (path : TunnelPath) : List PathEntryValue :=
  [.timestamp path.timestamp, .nextHop path.nextHop, .hops path.hops, .expires path.expires,
    .randomBlobs path.randomBlobs, .receivingInterface path.receivingInterface,
    .packetHash path.packetHash]

/-- The vector of a tunnel, as `handle_tunnel` and `load_tunnel_table` build it. -/
def Tunnel.values (tunnel : Tunnel) (order : List Bytes) : List TunnelEntryValue :=
  [.tunnelId tunnel.tunnelId, .interface tunnel.interface,
    .paths (order.filterMap fun hash => (tunnel.paths hash).map fun path => (hash, path.values)),
    .expires tunnel.expires]

/-! ## Saving -/

structure SerializedPathEntry where
  destinationHash : Bytes
  timestamp : ℚ
  receivedFrom : Bytes
  hops : UInt8
  expires : ℚ
  randomBlobs : List Bytes
  interfaceHash : Bytes
  packetHash : Bytes
  deriving DecidableEq

structure SerializedTunnelEntry where
  tunnelId : Bytes
  interfaceHash : Option Bytes
  paths : List SerializedPathEntry
  expires : ℚ
  deriving DecidableEq

/-- What is saved of a recorded route: nothing where one of its first four values is
missing. -/
def serializePath (destinationHash : Bytes) (entry : List PathEntryValue) :
    Option SerializedPathEntry :=
  match entry[idxPtTimestamp]?, entry[idxPtNextHop]?, entry[idxPtHops]?, entry[idxPtExpires]? with
  | some (.timestamp timestamp), some (.nextHop receivedFrom), some (.hops hops),
      some (.expires expires) =>
      some
        { destinationHash := destinationHash
          timestamp := timestamp
          receivedFrom := receivedFrom
          hops := hops
          expires := expires
          randomBlobs :=
            match entry[idxPtRandblobs]? with
            | some (.randomBlobs blobs) => blobs
            | _ => []
          interfaceHash := []
          packetHash :=
            match entry[idxPtPacket]? with
            | some (.packetHash hash) => hash
            | _ => [] }
  | _, _, _, _ => none

/-- What is saved of a tunnel. -/
def serializeTunnel (entry : List TunnelEntryValue) : Option SerializedTunnelEntry :=
  match entry[idxTtTunnelId]?, entry[idxTtExpires]? with
  | some (.tunnelId id), some (.expires expires) =>
      some
        { tunnelId := id
          interfaceHash :=
            match entry[idxTtIf]? with
            | some (.interface (some name)) => some name.toUTF8.data.toList
            | _ => none
          paths :=
            match entry[idxTtPaths]? with
            | some (.paths paths) => paths.filterMap fun e => serializePath e.1 e.2
            | _ => []
          expires := expires }
  | _, _ => none

/-- The order in which hash maps are walked: the tunnels, and the paths of each. -/
structure WalkOrder where
  tunnels : List Bytes
  paths : Bytes → List Bytes

/-- The order has every tunnel and every path of each tunnel, once. -/
structure WalkOrder.Covers (order : WalkOrder) (tunnels : Table Tunnel) : Prop where
  ofTunnels : Walk.Enumerates order.tunnels tunnels
  ofPaths : ∀ id tunnel, tunnels id = some tunnel → Walk.Enumerates (order.paths id) tunnel.paths

/-- The entries that `save_tunnel_table` writes. -/
def tunnelEntries (tunnels : Table Tunnel) (order : WalkOrder) : List SerializedTunnelEntry :=
  order.tunnels.filterMap fun id =>
    (tunnels id).bind fun tunnel => serializeTunnel (tunnel.values (order.paths id))

/-- The encoding of the tunnel table. -/
structure TunnelCodec where
  toVec : List SerializedTunnelEntry → Bytes
  fromSlice : Bytes → Option (List SerializedTunnelEntry)

/-- `Transport::save_tunnel_table`: the file that it leaves. -/
def saveTunnelFile (codec : TunnelCodec) (s : TransportState) (order : WalkOrder)
    (file : Option Bytes) : Option Bytes :=
  if s.isConnectedToSharedInstance then file
  else some (codec.toVec (tunnelEntries s.tunnels order))

/-! ## Loading -/

/-- One path of a loaded tunnel. -/
def loadPath (now : ℚ) (paths : Table TunnelPath) (p : SerializedPathEntry) : Table TunnelPath :=
  if p.expires < now then paths
  else paths.insert p.destinationHash
    { timestamp := p.timestamp
      nextHop := p.receivedFrom
      hops := p.hops
      expires := p.expires
      randomBlobs := p.randomBlobs
      receivingInterface := none
      packetHash := p.packetHash }

/-- One tunnel of the file. -/
def loadEntry (now : ℚ) (tunnels : Table Tunnel) (entry : SerializedTunnelEntry) : Table Tunnel :=
  if entry.expires < now then tunnels
  else tunnels.insert entry.tunnelId
    { tunnelId := entry.tunnelId
      interface := none
      paths := entry.paths.foldl (loadPath now) fun _ => none
      expires := entry.expires }

/-- `Transport::load_tunnel_table`, which `start` calls unless the node is connected to a
shared instance. -/
def loadTunnelFile (codec : TunnelCodec) (s : TransportState) (file : Option Bytes) (now : ℚ) :
    TransportState :=
  if s.isConnectedToSharedInstance then s
  else
    match file.bind codec.fromSlice with
    | none => s
    | some entries => { s with tunnels := entries.foldl (loadEntry now) s.tunnels }

/-! ## What was saved is loaded -/

/-- What is saved of a recorded route. -/
def TunnelPath.serialized (path : TunnelPath) (destinationHash : Bytes) : SerializedPathEntry :=
  { destinationHash := destinationHash
    timestamp := path.timestamp
    receivedFrom := path.nextHop
    hops := path.hops
    expires := path.expires
    randomBlobs := path.randomBlobs
    interfaceHash := []
    packetHash := path.packetHash }

theorem serializePath_values (destinationHash : Bytes) (path : TunnelPath) :
    serializePath destinationHash path.values = some (path.serialized destinationHash) := rfl

theorem serializeTunnel_values (tunnel : Tunnel) (order : List Bytes) :
    serializeTunnel (tunnel.values order) = some
      { tunnelId := tunnel.tunnelId
        interfaceHash := tunnel.interface.map fun name => name.toUTF8.data.toList
        paths := order.filterMap fun hash => (tunnel.paths hash).map fun path => path.serialized hash
        expires := tunnel.expires } := by
  have hpaths : (order.filterMap fun hash => (tunnel.paths hash).map fun path =>
      (hash, path.values)).filterMap (fun e => serializePath e.1 e.2) =
        order.filterMap fun hash => (tunnel.paths hash).map fun path => path.serialized hash := by
    rw [List.filterMap_filterMap]
    congr 1
    funext hash
    cases tunnel.paths hash with
    | none => rfl
    | some path => exact serializePath_values hash path
  unfold serializeTunnel Tunnel.values
  simp only [idxTtTunnelId, idxTtExpires, idxTtIf, idxTtPaths, List.getElem?_cons_zero,
    List.getElem?_cons_succ]
  rw [hpaths]
  cases tunnel.interface <;> rfl

/-- The paths that come back from the file. -/
theorem foldl_loadPath {paths : Table TunnelPath} {order : List Bytes} (now : ℚ)
    (horder : Walk.Enumerates order paths) :
    (order.filterMap fun hash => (paths hash).map fun path => path.serialized hash).foldl
        (loadPath now) (fun _ => none) =
      fun hash => ((paths hash).filter fun path => !(path.expires < now)).map fun path =>
        { path with receivingInterface := none } := by
  let step : Table TunnelPath → Bytes → Table TunnelPath := fun loaded hash =>
    (((paths hash).map fun path => path.serialized hash).map (loadPath now loaded)).getD loaded
  let effect : Bytes → Option TunnelPath → Option TunnelPath := fun hash before =>
    (paths hash).elim before fun path =>
      if path.expires < now then before else some { path with receivingInterface := none }
  let look : Bytes → Table TunnelPath → Option TunnelPath := fun hash loaded => loaded hash
  have hown : ∀ loaded hash, look hash (step loaded hash) = effect hash (look hash loaded) := by
    intro loaded hash
    cases hpath : paths hash with
    | none => simp [look, step, effect, hpath]
    | some path =>
        simp only [look, step, effect, hpath, Option.map_some, Option.elim_some, loadPath,
          TunnelPath.serialized]
        split
        · rfl
        · exact Table.insert_self _ _ _
  have hother : ∀ loaded hash hash', hash' ≠ hash →
      look hash' (step loaded hash) = look hash' loaded := by
    intro loaded hash hash' hne
    cases hpath : paths hash with
    | none => simp [look, step, hpath]
    | some path =>
        simp only [look, step, hpath, Option.map_some, loadPath, TunnelPath.serialized]
        split
        · rfl
        · exact Table.insert_of_ne _ hne _
  funext hash
  rw [Walk.foldl_filterMap]
  refine (Walk.look_foldl hown hother horder.1 hash fun _ => none).trans ?_
  cases hpath : paths hash with
  | none => simp [look, effect, hpath]
  | some path =>
      have hmem : hash ∈ order := (horder.2 hash).mpr (by simp [hpath])
      by_cases hexpired : path.expires < now
      · simp [look, effect, hpath, hmem, hexpired]
      · simp [look, effect, hpath, hmem, hexpired, not_lt.mp hexpired]

/-- Each tunnel stands under its own id. -/
def UnderOwnId (tunnels : Table Tunnel) : Prop :=
  ∀ id tunnel, tunnels id = some tunnel → tunnel.tunnelId = id

/-- The tunnels that come back from the file. -/
theorem foldl_loadEntry {tunnels : Table Tunnel} {order : WalkOrder} (now : ℚ)
    (hown : UnderOwnId tunnels) (horder : order.Covers tunnels) (before : Table Tunnel) :
    (tunnelEntries tunnels order).foldl (loadEntry now) before = fun id =>
      match tunnels id with
      | none => before id
      | some tunnel => if tunnel.expires < now then before id else some (loadTunnel now tunnel) := by
  let step : Table Tunnel → Bytes → Table Tunnel := fun loaded id =>
    (((tunnels id).bind fun tunnel => serializeTunnel (tunnel.values (order.paths id))).map
      (loadEntry now loaded)).getD loaded
  let effect : Bytes → Option Tunnel → Option Tunnel := fun id held =>
    match tunnels id with
    | none => held
    | some tunnel => if tunnel.expires < now then held else some (loadTunnel now tunnel)
  -- A round puts the loaded tunnel under the id that it stood under.
  have hstep : ∀ loaded id tunnel, tunnels id = some tunnel → step loaded id =
      if tunnel.expires < now then loaded else loaded.insert id (loadTunnel now tunnel) := by
    intro loaded id tunnel htunnel
    have hid : tunnel.tunnelId = id := hown id tunnel htunnel
    simp only [step, htunnel, Option.bind_some, serializeTunnel_values, Option.map_some,
      Option.getD_some, loadEntry]
    rw [foldl_loadPath now (horder.ofPaths id tunnel htunnel), hid]
    unfold loadTunnel
    rw [hid]
  let look : Bytes → Table Tunnel → Option Tunnel := fun id loaded => loaded id
  have hkey : ∀ loaded id, look id (step loaded id) = effect id (look id loaded) := by
    intro loaded id
    cases htunnel : tunnels id with
    | none => simp [look, step, effect, htunnel]
    | some tunnel =>
        rw [hstep loaded id tunnel htunnel]
        simp only [look, effect, htunnel]
        split
        · rfl
        · exact Table.insert_self _ _ _
  have hother : ∀ loaded id id', id' ≠ id → look id' (step loaded id) = look id' loaded := by
    intro loaded id id' hne
    cases htunnel : tunnels id with
    | none => simp [look, step, htunnel]
    | some tunnel =>
        rw [hstep loaded id tunnel htunnel]
        split
        · rfl
        · exact Table.insert_of_ne _ hne _
  funext id
  unfold tunnelEntries
  rw [Walk.foldl_filterMap]
  refine (Walk.look_foldl hkey hother horder.ofTunnels.1 id before).trans ?_
  cases htunnel : tunnels id with
  | none => simp [look, effect, htunnel]
  | some tunnel =>
      have hmem : id ∈ order.tunnels := (horder.ofTunnels.2 id).mpr (by simp [htunnel])
      simp [look, effect, htunnel, hmem]

/-- The file is as good as the table that it was saved from. -/
theorem loadTunnelFile_saved {codec : TunnelCodec} {s : TransportState} {order : WalkOrder}
    (hcodec : codec.fromSlice (codec.toVec (tunnelEntries s.tunnels order)) =
      some (tunnelEntries s.tunnels order))
    (hs : s.isConnectedToSharedInstance = false) (hown : UnderOwnId s.tunnels)
    (horder : order.Covers s.tunnels) (n : Instance) (file : Option Bytes) (now : ℚ) :
    loadTunnelFile codec n.toTransportState (saveTunnelFile codec s order file) now =
      (loadTunnelTable { n with savedTunnels := some s.tunnels } now).toTransportState := by
  unfold loadTunnelFile saveTunnelFile loadTunnelTable
  rw [hs]
  simp only [Bool.false_eq_true, if_false, Option.bind_some, hcodec,
    foldl_loadEntry now hown horder]
  split <;> rfl

end Reticulum.Transport
