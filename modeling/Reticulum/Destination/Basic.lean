import Reticulum.Transport.Announce

/-!
# Destinations and their ratchets

`rotate_ratchets`, `_persist_ratchets`, `_reload_ratchets`, `decrypt` and the
ratchet of an announce (`src/destination.rs`). The clones of a destination share a
list of ratchets with a generation, and each holds a list of its own.

## Implementation notes

The signed ratchet file is the list that it holds; what was ever written to it is
kept, the latest first, so that a read may find an older file or none that can be
read. Whether a write succeeds is an input. A mirror of the file is left out.
-/

namespace Reticulum

/-- A key pair for signing and encryption, by what is used of it. -/
structure Identity where
  publicKey : Bytes.Block 64
  sign : Bytes → Bytes.Block 64

inductive Direction
  | inbound
  | outbound
  deriving DecidableEq

structure SharedRatchetState where
  ratchets : Option (List Bytes)
  latestRatchetTime : Nat
  generation : Nat

/-- What the clones of a destination share: the ratchet state and the ratchet file. -/
structure RatchetCell where
  shared : SharedRatchetState
  files : List (List Bytes)

/-- `Destination`, as far as announces and ratchets are concerned. -/
structure Destination where
  hash : Bytes
  nameHash : Bytes
  destType : Wire.DestinationType
  direction : Direction
  identity : Option Identity
  ratchets : Option (List Bytes)
  latestRatchetTime : Nat
  ratchetInterval : Nat
  retainedRatchets : Nat
  pathResponses : Transport.Table (Nat × Bytes)
  defaultAppData : Option Bytes
  ratchetsPath : Option String
  ratchetsFrozen : Bool
  ratchetGeneration : Nat

/-- What a read of the ratchet file finds: the file as it is, or as it was so many writes
before, or nothing that can be read. -/
inductive RatchetRead
  | version (age : Nat)
  | unreadable
  deriving DecidableEq

def ratchetCount : Nat := 512

/-- `RATCHET_INTERVAL`. -/
def defaultRatchetInterval : Nat := 30 * 60

/-- The list that is loaded from the ratchet file. -/
def RatchetCell.read (cell : RatchetCell) : RatchetRead → List Bytes
  | .version age => cell.files[age]?.getD []
  | .unreadable => []

namespace Destination

section

variable (d : Destination) (cell : RatchetCell)

def adoptSharedRatchets (shared : SharedRatchetState) : Destination :=
  if shared.generation ≠ d.ratchetGeneration ∧ shared.ratchets.isSome then
    { d with
      ratchets := shared.ratchets
      latestRatchetTime := shared.latestRatchetTime
      ratchetGeneration := shared.generation }
  else d

def cleanRatchets : Destination :=
  { d with ratchets := d.ratchets.map (List.take d.retainedRatchets) }

/-- `_persist_ratchets`: the list is written unless the copy is frozen or has no path,
no ratchets or no identity, or the write fails. -/
def persistRatchets (writes : Bool) : RatchetCell :=
  match d.ratchets with
  | none => cell
  | some ratchets =>
      if d.ratchetsFrozen || d.ratchetsPath.isNone || d.identity.isNone || !writes then cell
      else { cell with files := ratchets :: cell.files }

/-- `rotate_ratchets`, with the key that a new ratchet gets. -/
def rotateRatchets (now : Nat) (key : Bytes)
    (writes : Bool) : Except String Bool × Destination × RatchetCell :=
  if d.ratchets.isSome && d.ratchetsFrozen then (.ok false, d, cell)
  else if d.ratchets.isNone then
    (.error "Cannot rotate ratchet, ratchets are not enabled", d, cell)
  else
    let d := d.adoptSharedRatchets cell.shared
    if d.latestRatchetTime + d.ratchetInterval < now then
      let d := { d with ratchets := d.ratchets.map (key :: ·), latestRatchetTime := now }.cleanRatchets
      let cell := d.persistRatchets cell writes
      let shared := { ratchets := d.ratchets, latestRatchetTime := now
                      generation := cell.shared.generation + 1 : SharedRatchetState }
      (.ok true, { d with ratchetGeneration := shared.generation }, { cell with shared := shared })
    else (.ok false, d, cell)

/-- `_reload_ratchets`, with the identity that it needs. A file that does not exist is
created. -/
def reloadRatchets (path : String) (read : RatchetRead)
    (writes : Bool) : Destination × RatchetCell :=
  if cell.files.isEmpty then
    let d := { d with ratchets := some [], ratchetsPath := some path }
    (d, d.persistRatchets cell writes)
  else ({ d with ratchets := some (cell.read read), ratchetsPath := some path }, cell)

/-- `enable_ratchets`: the clones made from now on share a state of their own. -/
def enableRatchets (files : List (List Bytes)) (path : String)
    (read : RatchetRead) (writes : Bool) : Destination × RatchetCell :=
  let (d, cell) := reloadRatchets { d with latestRatchetTime := 0 }
    { shared := { ratchets := none, latestRatchetTime := 0, generation := 0 }, files := files } path
    read writes
  ({ d with ratchetGeneration := 0 },
    { cell with
      shared := { ratchets := d.ratchets, latestRatchetTime := d.latestRatchetTime
                  generation := 0 } })

/-- The ratchets that `decrypt_with_ratchets` tries: those of the length of a key. -/
def usableRatchets (ratchets : Option (List Bytes)) : List Bytes :=
  (ratchets.getD []).filter fun ratchet => ratchet.length == 32

/-- The copy that the first attempt of `decrypt` is made with. -/
def synced (shared : SharedRatchetState) : Destination :=
  if d.ratchets.isSome then d.adoptSharedRatchets shared else d

/-- `decrypt` of a single destination: the ratchets that are tried, the copy after it, and
the file. Whether a ciphertext opens with one of some ratchets, or with the identity's own
keys, is an input. After a failure the file is read again. -/
def decrypt (opens : List Bytes → Bool)
    (read : RatchetRead) (writes : Bool) : List Bytes × Destination × RatchetCell :=
  let d := d.synced cell.shared
  let first := usableRatchets d.ratchets
  if d.identity.isNone then ([], d, cell)
  else if opens first || d.ratchets.isNone then (first, d, cell)
  else
    match d.ratchetsPath with
    | none => (first, d, cell)
    | some path =>
        let (d, cell) := d.reloadRatchets cell path read writes
        (first ++ usableRatchets d.ratchets, d, cell)

/-- The ratchet whose public key `generate_announce_data` puts into an announce: the newest
one, after a rotation that may be due. -/
def rotateForAnnounce (now : Nat) (key : Bytes)
    (writes : Bool) : Except String (Option Bytes) × Destination × RatchetCell :=
  if d.ratchets.isNone then (.ok none, d, cell)
  else
    match d.rotateRatchets cell now key writes with
    | (.error e, d, cell) => (.error e, d, cell)
    | (.ok _, d, cell) =>
        match d.ratchets.getD [] with
        | [] => (.ok none, d, cell)
        | ratchet :: _ =>
            if ratchet.length = 32 then (.ok (some ratchet), d, cell)
            else (.error ("Invalid ratchet private key length: " ++ toString ratchet.length), d, cell)

end

/-- `Transport::store_announced_ratchets`. -/
def storeAnnouncedRatchets (slot announced : Destination) : Destination :=
  if slot.ratchetGeneration ≤ announced.ratchetGeneration then
    { slot with
      ratchets := announced.ratchets
      latestRatchetTime := announced.latestRatchetTime
      ratchetGeneration := announced.ratchetGeneration }
  else slot

end Destination

end Reticulum
