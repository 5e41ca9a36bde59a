import Reticulum.Transport.Inbound

/-!
# The rest of the state of a node

The tables of `TransportState` (`src/transport.rs`) that path requests and
`Transport::jobs` read and write besides those of `inbound`.

## Implementation notes

The queue of an interface that waits for its announce cap, and whether it may
send anything but announces, are kept by the name of the interface. The path
table and the tunnels as they were last written to disk are part of the node.
-/

namespace Reticulum.Transport

def modeBoundary : UInt8 := 5

def modeGateway : UInt8 := 6

def pathRequestTimeout : ℚ := 15

def pathRequestGrace : ℚ := 2 / 5

def pathRequestRg : ℚ := 3 / 2

def pathRequestMi : ℚ := 20

def pathfinderG : ℚ := 5

def reverseTimeout : ℚ := 8 * 60

/-- `LINK_TIMEOUT`, one and a quarter of `STALE_TIME`. -/
def linkTimeout : ℚ := 720 * (5 / 4)

/-- The announce cap of an interface: what waits for it, when it allows the next
frame, and the share of the bitrate that announces may use. -/
structure AnnounceCap where
  queue : List Bytes
  allowedAt : ℚ
  cap : ℚ
  deriving DecidableEq

/-- `TransportState` with the tables of path requests, of held announces and of local
clients, and the times of the last passes of `jobs`. -/
structure Instance extends TransportState where
  heldAnnounces : Table AnnounceEntry
  pathRequests : Table ℚ
  discoveryPrTags : List Bytes
  discoveryPrTagsSet : List Bytes
  discoveryPrTagsPrev : List Bytes
  maxPrTags : Nat
  pendingLocalPathRequests : Table InterfaceStub
  clientAnnounceLastSent : String → Option ℚ
  interfaceOut : String → Bool
  announceCaps : String → AnnounceCap
  announcesLastChecked : ℚ
  announcesCheckInterval : ℚ
  pendingPrsLastChecked : ℚ
  pendingPrsCheckInterval : ℚ
  tablesLastCulled : ℚ
  tablesCullInterval : ℚ
  pathTableLastSaved : ℚ
  pathTableSaveInterval : ℚ
  savedPathTable : Option (Table (List PathEntry))
  savedTunnels : Option (Table Tunnel)

/-- A node that has just started. -/
def Instance.start : Instance :=
  { TransportState.start with
    heldAnnounces := fun _ => none
    pathRequests := fun _ => none
    discoveryPrTags := []
    discoveryPrTagsSet := []
    discoveryPrTagsPrev := []
    maxPrTags := 16000
    pendingLocalPathRequests := fun _ => none
    clientAnnounceLastSent := fun _ => none
    interfaceOut := fun _ => true
    announceCaps := fun _ => { queue := [], allowedAt := 0, cap := 2 / 100 }
    announcesLastChecked := 0
    announcesCheckInterval := 1
    pendingPrsLastChecked := 0
    pendingPrsCheckInterval := 30
    tablesLastCulled := 0
    tablesCullInterval := 5
    pathTableLastSaved := 0
    pathTableSaveInterval := 300
    savedPathTable := none
    savedTunnels := none }

/-- What one call to a node reads: the clock, a random hash, and the order in which the
paths of a tunnel are walked. -/
structure Call where
  reading : Reading
  randomHash : Bytes
  tunnelPaths : List Bytes

end Reticulum.Transport
