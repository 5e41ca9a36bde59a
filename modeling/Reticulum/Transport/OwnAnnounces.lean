import Mathlib.Data.List.Sort
import Reticulum.Lib.Assoc
import Reticulum.Lib.Runs
import Reticulum.Transport.Admission

/-!
# The announces of a node's own destinations

The announce daemon of `src/transport.rs`: destinations that are published, the
refresh sweep of `jobs`, the pacing of own announces on an interface, and the
record of when each destination was last announced on each interface. The sweep
selects a destination for an interface only after its period, whoever announced it
there before (`period_run`).

## Implementation notes

Each operation holds the lock of the transport once or is taken as one step. It
returns the announces that it makes, with their times. The announce that the sweep
selects is built by `src/destination.rs`; whether that succeeds is an input.
-/

namespace Reticulum.Transport

/-- `AUTO_ANNOUNCE_HOLDOFF_SECS`. -/
def autoAnnounceHoldoff : ℚ := 6 * 60 * 60

/-- `OWN_ANNOUNCE_SPACING_SECS`. -/
def ownAnnounceSpacing : ℚ := 10

structure PublishedDestination where
  refreshInterval : Option ℚ
  lastAnnouncedAt : ℚ
  appData : Option Bytes
  deriving DecidableEq

/-- The least time between two automatic announces of a destination on an interface. -/
def PublishedDestination.period (p : PublishedDestination) : ℚ :=
  p.refreshInterval.getD autoAnnounceHoldoff

/-- `PublishedSet`: the destinations in the order in which they were published. -/
structure PublishedSet where
  entries : List (Bytes × PublishedDestination)
  nodup : (entries.map Prod.fst).Nodup

namespace PublishedSet

def get (s : PublishedSet) (destinationHash : Bytes) : Option PublishedDestination :=
  Assoc.get s.entries destinationHash

def containsKey (s : PublishedSet) (destinationHash : Bytes) : Bool :=
  (s.get destinationHash).isSome

theorem containsKey_iff (s : PublishedSet) {destinationHash : Bytes} :
    s.containsKey destinationHash = true ↔ destinationHash ∈ s.entries.map Prod.fst :=
  Assoc.isSome_get_iff

/-- The entries with the one of a destination changed in its place. -/
def modifyEntries (s : PublishedSet) (destinationHash : Bytes)
    (f : PublishedDestination → PublishedDestination) : List (Bytes × PublishedDestination) :=
  s.entries.map fun e => if e.1 = destinationHash then (e.1, f e.2) else e

theorem keys_modifyEntries (s : PublishedSet) (destinationHash : Bytes)
    (f : PublishedDestination → PublishedDestination) :
    (s.modifyEntries destinationHash f).map Prod.fst = s.entries.map Prod.fst := by
  unfold modifyEntries
  rw [List.map_map]
  apply List.map_congr_left
  intro e _
  simp only [Function.comp_apply]
  split <;> rfl

theorem nodup_modifyEntries (s : PublishedSet) (destinationHash : Bytes)
    (f : PublishedDestination → PublishedDestination) :
    ((s.modifyEntries destinationHash f).map Prod.fst).Nodup := by
  rw [keys_modifyEntries]
  exact s.nodup

/-- `get_mut`. -/
def modify (s : PublishedSet) (destinationHash : Bytes)
    (f : PublishedDestination → PublishedDestination) : PublishedSet :=
  { entries := s.modifyEntries destinationHash f, nodup := s.nodup_modifyEntries destinationHash f }

theorem nodup_append (s : PublishedSet) {destinationHash : Bytes} (entry : PublishedDestination)
    (h : ¬ s.containsKey destinationHash = true) :
    ((s.entries ++ [(destinationHash, entry)]).map Prod.fst).Nodup := by
  rw [List.map_append, List.nodup_append]
  refine ⟨s.nodup, List.nodup_singleton _, ?_⟩
  rintro hash hhash _ hmem rfl
  obtain rfl := List.mem_singleton.mp hmem
  exact h (s.containsKey_iff.mpr hhash)

/-- `insert`: an entry that exists keeps its place. -/
def insert (s : PublishedSet) (destinationHash : Bytes) (entry : PublishedDestination) :
    PublishedSet :=
  if h : s.containsKey destinationHash = true then s.modify destinationHash fun _ => entry
  else { entries := s.entries ++ [(destinationHash, entry)], nodup := s.nodup_append entry h }

theorem nodup_retain (s : PublishedSet) (keep : Bytes → Bool) :
    ((Assoc.retain keep s.entries).map Prod.fst).Nodup :=
  s.nodup.sublist (List.filter_sublist.map _)

def remove (s : PublishedSet) (destinationHash : Bytes) : PublishedSet :=
  { entries := Assoc.retain (fun hash => hash != destinationHash) s.entries
    nodup := s.nodup_retain _ }

variable {s : PublishedSet} {destinationHash hash : Bytes}

section

variable (h : s.containsKey hash = true)

include h

theorem containsKey_modify {f : PublishedDestination → PublishedDestination} :
    (s.modify destinationHash f).containsKey hash = true := by
  rw [containsKey_iff] at h ⊢
  exact (s.keys_modifyEntries destinationHash f).symm ▸ h

theorem containsKey_insert {entry : PublishedDestination} :
    (s.insert destinationHash entry).containsKey hash = true := by
  unfold insert
  split
  · exact containsKey_modify h
  · rw [containsKey_iff] at h ⊢
    rw [List.map_append]
    exact List.mem_append_left _ h

theorem containsKey_remove (hne : destinationHash ≠ hash) :
    (s.remove destinationHash).containsKey hash = true := by
  unfold containsKey get remove
  rw [Assoc.get_retain]
  · exact h
  · simpa using hne.symm

end

end PublishedSet

/-- What `admit_own_announce` did with an announce. -/
inductive OwnAnnounce
  | sent
  | queued
  deriving DecidableEq

/-- `InterfaceStub` with the pacing of own announces: when the next one may leave, and those
that wait. -/
structure PacedInterface extends InterfaceStub where
  ownAnnounceAllowedAt : ℚ
  ownAnnounceQueue : List (Bytes × Bytes)
  deriving DecidableEq

namespace PacedInterface

/-- `admit_own_announce`: the first in a window leaves at once, the others wait. A newer
announce of a destination that waits replaces it. -/
def admitOwnAnnounce (i : PacedInterface) (destination raw : Bytes) (now : ℚ) :
    OwnAnnounce × PacedInterface :=
  if i.ownAnnounceQueue.isEmpty ∧ i.ownAnnounceAllowedAt ≤ now then
    (.sent, { i with ownAnnounceAllowedAt := now + ownAnnounceSpacing })
  else
    match i.ownAnnounceQueue.findIdx? fun e => e.1 == destination with
    | some k => (.queued, { i with
        ownAnnounceQueue := i.ownAnnounceQueue.modify k fun e => (e.1, raw) })
    | none => (.queued, { i with ownAnnounceQueue := i.ownAnnounceQueue ++ [(destination, raw)] })

/-- `next_own_announce`: the next announce, once the window has opened. -/
def nextOwnAnnounce (i : PacedInterface) (now : ℚ) : Option (Bytes × Bytes) × PacedInterface :=
  if now < i.ownAnnounceAllowedAt then (none, i)
  else
    match i.ownAnnounceQueue with
    | [] => (none, i)
    | next :: rest => (some next, { i with
        ownAnnounceQueue := rest, ownAnnounceAllowedAt := now + ownAnnounceSpacing })

end PacedInterface

/-- What the daemon reads of a destination of this node. -/
structure LocalDestination where
  hash : Bytes
  isIn : Bool
  isSingle : Bool
  deriving DecidableEq

/-- An announce that was made: of a destination on an interface, and when. -/
abbrev AnnounceRecord := (Bytes × String) × ℚ

/-- `TransportState`, as far as own announces need it. -/
structure Announcer where
  interfaces : List PacedInterface
  localClientInterfaces : List InterfaceStub
  destinations : List LocalDestination
  publishedDestinations : PublishedSet
  publishedLastChecked : ℚ
  publishedCheckInterval : ℚ
  publishedLastAnnouncedAt : ℚ
  announceSentAt : List AnnounceRecord
  upEdgePendingInterfaces : List String

namespace Announcer

def publishDestination (a : Announcer) (destinationHash : Bytes) (refreshInterval : Option ℚ)
    (appData : Option Bytes) : Announcer :=
  { a with
    publishedDestinations := a.publishedDestinations.insert destinationHash
      { refreshInterval := refreshInterval
        lastAnnouncedAt := ((a.publishedDestinations.get destinationHash).map
          (·.lastAnnouncedAt)).getD 0
        appData := appData } }

def unpublishDestination (a : Announcer) (destinationHash : Bytes) : Announcer :=
  { a with
    publishedDestinations := a.publishedDestinations.remove destinationHash
    announceSentAt := Assoc.retain (fun key => key.1 != destinationHash) a.announceSentAt }

/-- An own announce as `outbound` gets it: it has made no hop. -/
structure OwnPacket where
  destinationHash : Option Bytes
  context : UInt8
  attachedInterface : Option String
  receivingInterface : Option String
  raw : Bytes
  deriving DecidableEq

/-- The destination that `announce_wire_fields` reads from an announce. -/
def wireDestination (raw : Bytes) : Option Bytes :=
  match raw with
  | [] => none
  | flags :: _ =>
      let destAt := 2 + if (flags >>> 6) &&& 1 = Wire.header2 then Wire.dstLen else 0
      let blobAt := destAt + Wire.dstLen + 1 + 64 + 10
      if raw.length < blobAt + 10 then none else some (slice raw destAt Wire.dstLen)

section

variable (a : Announcer)

/-- Whether the mode of an interface lets an announce out that is not meant for one
interface. `fromMode` is the mode of the interface its path came over. -/
def modeAllows (fromMode : Option UInt8) (p : OwnPacket) (mode : UInt8) : Bool :=
  let isLocal := (wireDestination p.raw).any fun dest => a.destinations.any fun d => d.hash == dest
  if mode = modeAccessPoint then false
  else if mode = modeRoaming && !isLocal then
    fromMode != none && fromMode != some modeRoaming && fromMode != some modeBoundary
  else if mode = modeBoundary && !isLocal then fromMode != none && fromMode != some modeRoaming
  else true

/-- Whether `outbound` lets an announce out on an interface. -/
def transmits (fromMode : Option UInt8) (p : OwnPacket) (i : PacedInterface) :
    Bool :=
  i.online &&
    (p.attachedInterface == none || p.attachedInterface == some i.name) &&
    p.receivingInterface != some i.name &&
    (p.attachedInterface != none ||
      (!(a.localClientInterfaces.any fun j => j.name == i.name) &&
        a.modeAllows fromMode p i.mode))

/-- What `outbound` makes of an announce on one interface. -/
def outboundOn (fromMode : Option UInt8) (now : ℚ) (p : OwnPacket)
    (i : PacedInterface) : Option OwnAnnounce × PacedInterface :=
  if a.transmits fromMode p i then
    match if p.context = pathResponse then none else p.destinationHash with
    | none => (some .sent, i)
    | some dest =>
        let (outcome, i) := i.admitOwnAnnounce dest p.raw now
        (some outcome, i)
  else (none, i)

/-- The interfaces on which `outbound` sent or queued an announce. -/
def outboundNames (fromMode : Option UInt8) (now : ℚ) (p : OwnPacket)
    (outcome : OwnAnnounce) : List String :=
  (a.interfaces.filter fun i => (a.outboundOn fromMode now p i).1 = some outcome).map (·.name)

/-- `outbound` of an own announce. A path response answers a request and is not recorded. -/
def outbound (fromMode : Option UInt8) (now : ℚ) (p : OwnPacket) :
    Announcer × List AnnounceRecord :=
  let transmissions := a.outboundNames fromMode now p .sent
  let queued := a.outboundNames fromMode now p .queued
  let announced : List AnnounceRecord :=
    match if p.context = pathResponse then none else p.destinationHash with
    | none => []
    | some dest => (transmissions ++ queued).map fun name => ((dest, name), now)
  ({ a with
      interfaces := a.interfaces.map fun i => (a.outboundOn fromMode now p i).2
      announceSentAt := Assoc.putAll a.announceSentAt announced }, announced)

/-- `release_own_announces_locked`: one announce of each interface that is online. -/
def releaseOwnAnnounces (now : ℚ) : Announcer × List AnnounceRecord :=
  let released (i : PacedInterface) : Option (Bytes × Bytes) × PacedInterface :=
    if i.online then i.nextOwnAnnounce now else (none, i)
  let announced : List AnnounceRecord := a.interfaces.filterMap fun i =>
    (released i).1.map fun next => ((next.1, i.name), now)
  ({ a with
      interfaces := a.interfaces.map fun i => (released i).2
      announceSentAt := Assoc.putAll a.announceSentAt announced }, announced)

/-- `auto_announce_due_locked`. -/
def autoAnnounceDue (destinationHash : Bytes) (name : String) (period now : ℚ) :
    Bool :=
  period ≤ now - (Assoc.get a.announceSentAt (destinationHash, name)).getD 0

/-- The interfaces that the sweep announces on, by name. -/
def sweepInterfaces : List String :=
  ((a.interfaces.filter fun i => i.online && i.mode != modeAccessPoint).map (·.name)).insertionSort
    fun x y => x ≤ y

/-- The pairs whose period has elapsed, by destination and then by interface. -/
def due (now : ℚ) : List (Bytes × String) :=
  a.publishedDestinations.entries.flatMap fun e =>
    (a.sweepInterfaces.filter fun name =>
      (e.2.refreshInterval.isSome || a.upEdgePendingInterfaces.contains name) &&
        a.autoAnnounceDue e.1 name e.2.period now).map fun name => (e.1, name)

/-- The pair that the sweep selects: the first one of a registered destination, if the last
automatic announce is far enough back. -/
def selected (now : ℚ) : Option (Bytes × String) :=
  if now - a.publishedLastAnnouncedAt < localClientAnnouncePace then none
  else (a.due now).find? fun pair =>
    a.destinations.any fun d => d.hash == pair.1 && d.isIn && d.isSingle

/-- Whether the sweep runs. -/
def sweeps (gate : ℚ) : Bool :=
  !a.publishedDestinations.entries.isEmpty &&
    a.publishedLastChecked + a.publishedCheckInterval < gate

/-- The refresh sweep of `jobs`. `gate` is the clock when it starts, and `built` whether the
announce of the pair that it selects could be built. -/
def sweep (gate now : ℚ) (built : Bool) : Announcer × List AnnounceRecord :=
  if a.sweeps gate then
    let due := a.due now
    let pending := a.upEdgePendingInterfaces.filter fun name => due.any fun pair => pair.2 == name
    if due.isEmpty then
      ({ a with upEdgePendingInterfaces := pending, publishedLastChecked := now }, [])
    else if now - a.publishedLastAnnouncedAt < localClientAnnouncePace then
      ({ a with upEdgePendingInterfaces := pending }, [])
    else
      match a.selected now with
      | none => ({ a with upEdgePendingInterfaces := [], publishedLastChecked := now }, [])
      | some pair =>
          if built then
            ({ a with
                upEdgePendingInterfaces := pending
                announceSentAt := Assoc.put a.announceSentAt pair now
                publishedDestinations := a.publishedDestinations.modify pair.1 fun p =>
                  { p with lastAnnouncedAt := now }
                publishedLastAnnouncedAt := now }, [(pair, now)])
          else ({ a with upEdgePendingInterfaces := pending }, [])
  else (a, [])

/-- An interface comes up: the sweep is asked to run. -/
def upEdge (name : String) : Announcer :=
  { a with
    upEdgePendingInterfaces := a.upEdgePendingInterfaces.insert name
    publishedLastChecked := 0 }

def setInterfaceOnline (name : String) (online : Bool) : Announcer :=
  let wasOffline :=
    (a.interfaces.find? fun i => i.name == name).any (fun i => !i.online) ||
      (a.localClientInterfaces.find? fun i => i.name == name).any fun i => !i.online
  let a := { a with
    interfaces :=
      match a.interfaces.findIdx? fun i => i.name == name with
      | none => a.interfaces
      | some k => a.interfaces.modify k fun i => { i with online := online }
    localClientInterfaces :=
      match a.localClientInterfaces.findIdx? fun i => i.name == name with
      | none => a.localClientInterfaces
      | some k => a.localClientInterfaces.modify k fun i => { i with online := online } }
  if online && wasOffline then a.upEdge name else a

/-- `interface_stub_from_config`: nothing is paced yet. -/
def paced (i : InterfaceStub) : PacedInterface :=
  { i with ownAnnounceAllowedAt := 0, ownAnnounceQueue := [] }

/-- `register_interface_stub_config`: an interface that is online comes up. -/
def registerInterfaceStub (i : InterfaceStub) : Announcer :=
  if a.interfaces.any fun j => j.name == i.name then a
  else
    let a := if i.online then a.upEdge i.name else a
    { a with interfaces := a.interfaces ++ [paced i] }

/-- The latest announce of a destination on any interface. -/
def latest (destinationHash : Bytes) : Option ℚ :=
  ((a.announceSentAt.filter fun e => e.1.1 == destinationHash).map Prod.snd).max?

/-- `register_auto_interface_peer`: a peer joins the schedule of each published destination
where it stands. -/
def registerAutoInterfacePeer (i : InterfaceStub) : Announcer :=
  if a.interfaces.any fun j => j.name == i.name then a
  else
    let hashes := (a.announceSentAt.map fun e => e.1.1).dedup.filter
      a.publishedDestinations.containsKey
    let records : List AnnounceRecord := hashes.filterMap fun hash =>
      (a.latest hash).map fun at_ => ((hash, i.name), at_)
    { a with
      announceSentAt := Assoc.putAll a.announceSentAt records
      interfaces := a.interfaces ++ [paced i] }

/-- `remove_interface_stub_locked`. -/
def removeInterfaceStub (name : String) : Announcer :=
  { a with
    interfaces := a.interfaces.filter fun i => i.name != name
    localClientInterfaces := a.localClientInterfaces.filter fun i => i.name != name
    upEdgePendingInterfaces := a.upEdgePendingInterfaces.filter fun n => n != name }

def deregisterInterfaceStub (name : String) : Announcer :=
  let a := a.removeInterfaceStub name
  { a with announceSentAt := Assoc.retain (fun key => key.2 != name) a.announceSentAt }

/-- `deregister_auto_interface_peer`: the records of published destinations are kept. -/
def deregisterAutoInterfacePeer (name : String) : Announcer :=
  let a := a.removeInterfaceStub name
  { a with
    announceSentAt := Assoc.retain
      (fun key => key.2 != name || a.publishedDestinations.containsKey key.1) a.announceSentAt }

end

end Announcer

/-! ## The period of a destination on an interface -/

/-- What may happen to the announcer. -/
inductive AnnouncerEvent
  | sweep (gate now : ℚ) (built : Bool)
  | outbound (fromMode : Option UInt8) (now : ℚ) (p : Announcer.OwnPacket)
  | release (now : ℚ)
  | setInterfaceOnline (name : String) (online : Bool)
  | registerAutoInterfacePeer (i : InterfaceStub)
  | deregisterAutoInterfacePeer (name : String)
  | registerInterfaceStub (i : InterfaceStub)
  | deregisterInterfaceStub (name : String)
  | publishDestination (destinationHash : Bytes) (refreshInterval : Option ℚ)
      (appData : Option Bytes)
  | unpublishDestination (destinationHash : Bytes)

namespace Announcer

/-- The announcer after an event, and the announces that were made. -/
def react (a : Announcer) : AnnouncerEvent → Announcer × List AnnounceRecord
  | .sweep gate now built => a.sweep gate now built
  | .outbound fromMode now p => a.outbound fromMode now p
  | .release now => a.releaseOwnAnnounces now
  | .setInterfaceOnline name online => (a.setInterfaceOnline name online, [])
  | .registerAutoInterfacePeer i => (a.registerAutoInterfacePeer i, [])
  | .deregisterAutoInterfacePeer name => (a.deregisterAutoInterfacePeer name, [])
  | .registerInterfaceStub i => (a.registerInterfaceStub i, [])
  | .deregisterInterfaceStub name => (a.deregisterInterfaceStub name, [])
  | .publishDestination destinationHash refreshInterval appData =>
      (a.publishDestination destinationHash refreshInterval appData, [])
  | .unpublishDestination destinationHash => (a.unpublishDestination destinationHash, [])

end Announcer

/-- An announcer, and the time of the last announce of one destination on one interface. -/
def announcerStep (destinationHash : Bytes) (name : String) (state : Announcer × Option ℚ)
    (e : AnnouncerEvent) : Option (Announcer × Option ℚ) :=
  let (a, announced) := state.1.react e
  some (a, (Assoc.get announced (destinationHash, name)).or state.2)

/-- The destination stays published, and the interface is not deregistered as a stub. -/
def StaysPublished (destinationHash : Bytes) (name : String) : AnnouncerEvent → Prop
  | .deregisterInterfaceStub name' => name' ≠ name
  | .unpublishDestination hash => hash ≠ destinationHash
  | _ => True

/-- A sweep that runs selects the pair only when the period of the destination has passed
since it was last announced on the interface. -/
def KeepsPeriod (destinationHash : Bytes) (name : String) (state : Announcer × Option ℚ) : Prop :=
  ∀ now at_, state.1.selected now = some (destinationHash, name) → state.2 = some at_ →
    ∃ p, state.1.publishedDestinations.get destinationHash = some p ∧ p.period ≤ now - at_

namespace Announcer

variable {a a' : Announcer} {destinationHash : Bytes} {name : String}

/-- What the sweep goes by: the destination is published, and its record for the interface is
no older than its last announce there. -/
structure Recorded (destinationHash : Bytes) (name : String) (state : Announcer × Option ℚ) :
    Prop where
  published : state.1.publishedDestinations.containsKey destinationHash = true
  record : ∀ at_, state.2 = some at_ → ∃ recorded,
    Assoc.get state.1.announceSentAt (destinationHash, name) = some recorded ∧ at_ ≤ recorded

/-- The records of an announcer after an event that announces nothing: none is lost or older. -/
def KeepsRecord (destinationHash : Bytes) (name : String) (a a' : Announcer) : Prop :=
  ∀ at_, Assoc.get a.announceSentAt (destinationHash, name) = some at_ →
    ∃ recorded, Assoc.get a'.announceSentAt (destinationHash, name) = some recorded ∧ at_ ≤ recorded

/-- A pair that is selected is due. -/
theorem due_of_selected {now : ℚ} (h : a.selected now = some (destinationHash, name)) :
    ∃ p, a.publishedDestinations.get destinationHash = some p ∧
      a.autoAnnounceDue destinationHash name p.period now = true := by
  unfold selected at h
  split at h
  · cases h
  obtain ⟨⟨hash, entry⟩, hentry, hpair⟩ := List.mem_flatMap.mp (List.mem_of_find?_eq_some h)
  obtain ⟨name', hname', heq⟩ := List.mem_map.mp hpair
  obtain ⟨rfl, rfl⟩ := Prod.mk.inj heq
  obtain ⟨-, hdue⟩ := List.mem_filter.mp hname'
  rw [Bool.and_eq_true] at hdue
  exact ⟨entry, Assoc.get_of_mem a.publishedDestinations.nodup hentry, hdue.2⟩

theorem keepsPeriod_of_recorded {state : Announcer × Option ℚ}
    (h : Recorded destinationHash name state) : KeepsPeriod destinationHash name state := by
  intro now at_ hselected hat
  obtain ⟨p, hp, hdue⟩ := due_of_selected hselected
  obtain ⟨recorded, hrecorded, hle⟩ := h.record at_ hat
  refine ⟨p, hp, ?_⟩
  unfold autoAnnounceDue at hdue
  rw [hrecorded, decide_eq_true_eq, Option.getD_some] at hdue
  exact hdue.trans (sub_le_sub_left hle now)

/-- What an event must do to the records: an announce that is made is recorded with its time,
and otherwise no record is lost or older. -/
structure Books (destinationHash : Bytes) (name : String) (a a' : Announcer)
    (announced : List AnnounceRecord) : Prop where
  published : a'.publishedDestinations.containsKey destinationHash = true
  made : ∀ at_, Assoc.get announced (destinationHash, name) = some at_ →
    Assoc.get a'.announceSentAt (destinationHash, name) = some at_
  kept : Assoc.get announced (destinationHash, name) = none →
    KeepsRecord destinationHash name a a'

theorem KeepsRecord.of_get_eq (h : Assoc.get a'.announceSentAt (destinationHash, name) =
      Assoc.get a.announceSentAt (destinationHash, name)) :
    KeepsRecord destinationHash name a a' := by
  intro at_ hat
  exact ⟨at_, h.trans hat, le_rfl⟩

/-- An event that announces nothing and leaves the record alone. -/
theorem books_of_quiet (hpublished : a'.publishedDestinations.containsKey destinationHash = true)
    (h : Assoc.get a'.announceSentAt (destinationHash, name) =
      Assoc.get a.announceSentAt (destinationHash, name)) :
    Books destinationHash name a a' [] where
  published := hpublished
  made := fun _ hat => by cases hat
  kept := fun _ => .of_get_eq h

/-- An event that announces nothing and drops other records. -/
theorem books_of_retain {keep : Bytes × String → Bool}
    (hpublished : a'.publishedDestinations.containsKey destinationHash = true)
    (hsent : a'.announceSentAt = Assoc.retain keep a.announceSentAt)
    (hkeep : keep (destinationHash, name) = true) : Books destinationHash name a a' [] := by
  refine books_of_quiet hpublished ?_
  rw [hsent]
  exact Assoc.get_retain hkeep

/-- An event that records what it announces, all at one time. -/
theorem books_of_putAll {announced : List AnnounceRecord} (now : ℚ)
    (hpublished : a'.publishedDestinations.containsKey destinationHash = true)
    (hsent : a'.announceSentAt = Assoc.putAll a.announceSentAt announced)
    (hnow : ∀ e ∈ announced, e.2 = now) : Books destinationHash name a a' announced where
  published := hpublished
  made := by
    intro at_ hat
    have hmem := Assoc.mem_of_get hat
    rw [hsent]
    refine Assoc.get_putAll_of_mem hmem ?_
    intro e he _
    exact (hnow e he).trans (hnow _ hmem).symm
  kept := by
    intro hnone
    refine .of_get_eq ?_
    rw [hsent]
    refine Assoc.get_putAll_of_not_mem ?_
    intro e he heq
    have hsome := Assoc.isSome_get_iff.mpr (List.mem_map.mpr ⟨e, he, heq⟩)
    rw [hnone] at hsome
    cases hsome

/-- The latest record of a destination is not older than that of any interface. -/
theorem latest_of_get {at_ : ℚ}
    (h : Assoc.get a.announceSentAt (destinationHash, name) = some at_) :
    ∃ recorded, a.latest destinationHash = some recorded ∧ at_ ≤ recorded := by
  have hmem : at_ ∈ (a.announceSentAt.filter fun e => e.1.1 == destinationHash).map Prod.snd := by
    refine List.mem_map.mpr ⟨_, List.mem_filter.mpr ⟨Assoc.mem_of_get h, ?_⟩, rfl⟩
    simp
  obtain ⟨recorded, hlatest⟩ := Option.isSome_iff_exists.mp (List.isSome_max?_of_mem hmem)
  exact ⟨recorded, hlatest, (List.max?_le_iff hlatest).mp le_rfl at_ hmem⟩

variable (hpublished : a.publishedDestinations.containsKey destinationHash = true)

include hpublished

theorem books_sweep (gate now : ℚ) (built : Bool) :
    Books destinationHash name a (a.sweep gate now built).1 (a.sweep gate now built).2 := by
  unfold sweep
  split
  · dsimp only
    split
    · exact books_of_quiet hpublished rfl
    split
    · exact books_of_quiet hpublished rfl
    split
    · exact books_of_quiet hpublished rfl
    split
    · refine books_of_putAll now (PublishedSet.containsKey_modify hpublished) rfl ?_
      intro e he
      obtain rfl := List.mem_singleton.mp he
      rfl
    · exact books_of_quiet hpublished rfl
  · exact books_of_quiet hpublished rfl

theorem books_outbound (fromMode : Option UInt8) (now : ℚ) (p : OwnPacket) :
    Books destinationHash name a (a.outbound fromMode now p).1 (a.outbound fromMode now p).2 := by
  refine books_of_putAll now hpublished rfl ?_
  intro e he
  unfold outbound at he
  dsimp only at he
  split at he
  · cases he
  · obtain ⟨name', -, rfl⟩ := List.mem_map.mp he
    rfl

theorem books_releaseOwnAnnounces (now : ℚ) :
    Books destinationHash name a (a.releaseOwnAnnounces now).1 (a.releaseOwnAnnounces now).2 := by
  refine books_of_putAll now hpublished rfl ?_
  intro e he
  obtain ⟨i, -, hi⟩ := List.mem_filterMap.mp he
  obtain ⟨next, -, rfl⟩ := Option.map_eq_some_iff.mp hi
  rfl

/-- A peer that registers gets the latest record of the destination, which is none older than
its own. -/
theorem books_registerAutoInterfacePeer (i : InterfaceStub) :
    Books destinationHash name a (a.registerAutoInterfacePeer i) [] := by
  unfold registerAutoInterfacePeer
  split
  · exact books_of_quiet hpublished rfl
  refine ⟨hpublished, ?_, ?_⟩
  · intro at_ hat
    cases hat
  intro _ at_ hat
  dsimp only
  obtain ⟨recorded, hlatest, hle⟩ := latest_of_get hat
  by_cases hname : i.name = name
  · subst hname
    refine ⟨recorded, Assoc.get_putAll_of_mem ?_ ?_, hle⟩
    · refine List.mem_filterMap.mpr ⟨destinationHash, ?_, ?_⟩
      · refine List.mem_filter.mpr ⟨List.mem_dedup.mpr ?_, hpublished⟩
        exact List.mem_map.mpr ⟨_, Assoc.mem_of_get hat, rfl⟩
      · rw [hlatest]
        rfl
    · intro e he hkey
      obtain ⟨hash, -, hhash⟩ := List.mem_filterMap.mp he
      obtain ⟨at', hat', rfl⟩ := Option.map_eq_some_iff.mp hhash
      obtain rfl : hash = destinationHash := congrArg Prod.fst hkey
      exact Option.some.inj (hat'.symm.trans hlatest)
  · refine ⟨at_, (Assoc.get_putAll_of_not_mem ?_).trans hat, le_rfl⟩
    intro e he hkey
    obtain ⟨hash, -, hhash⟩ := List.mem_filterMap.mp he
    obtain ⟨at', -, rfl⟩ := Option.map_eq_some_iff.mp hhash
    exact hname (congrArg Prod.snd hkey)

omit hpublished in
theorem announceSentAt_setInterfaceOnline (name' : String) (online : Bool) :
    (a.setInterfaceOnline name' online).announceSentAt = a.announceSentAt ∧
      (a.setInterfaceOnline name' online).publishedDestinations = a.publishedDestinations := by
  unfold setInterfaceOnline upEdge
  dsimp only
  split <;> exact ⟨rfl, rfl⟩

/-- Every event keeps the books. -/
theorem books_react (e : AnnouncerEvent) (he : StaysPublished destinationHash name e) :
    Books destinationHash name a (a.react e).1 (a.react e).2 := by
  cases e with
  | sweep gate now built => exact books_sweep hpublished gate now built
  | outbound fromMode now p => exact books_outbound hpublished fromMode now p
  | release now => exact books_releaseOwnAnnounces hpublished now
  | setInterfaceOnline name' online =>
      obtain ⟨hsent, hset⟩ := announceSentAt_setInterfaceOnline (a := a) name' online
      exact books_of_quiet (hset ▸ hpublished) (congrArg (Assoc.get · _) hsent)
  | registerAutoInterfacePeer i => exact books_registerAutoInterfacePeer hpublished i
  | deregisterAutoInterfacePeer name' =>
      have hsent : (a.deregisterAutoInterfacePeer name').announceSentAt = Assoc.retain
          (fun key => key.2 != name' || a.publishedDestinations.containsKey key.1)
          a.announceSentAt := rfl
      refine books_of_retain hpublished hsent ?_
      rw [Bool.or_eq_true]
      exact .inr hpublished
  | registerInterfaceStub i =>
      change Books _ _ _ (a.registerInterfaceStub i) []
      unfold registerInterfaceStub upEdge
      split
      · exact books_of_quiet hpublished rfl
      · dsimp only
        split <;> exact books_of_quiet hpublished rfl
  | deregisterInterfaceStub name' =>
      have hsent : (a.deregisterInterfaceStub name').announceSentAt =
          Assoc.retain (fun key => key.2 != name') a.announceSentAt := rfl
      refine books_of_retain hpublished hsent ?_
      simpa using fun heq : name = name' => he heq.symm
  | publishDestination hash refreshInterval appData =>
      exact books_of_quiet (PublishedSet.containsKey_insert hpublished) rfl
  | unpublishDestination hash =>
      have hsent : (a.unpublishDestination hash).announceSentAt =
          Assoc.retain (fun key => key.1 != hash) a.announceSentAt := rfl
      refine books_of_retain (PublishedSet.containsKey_remove hpublished he) hsent ?_
      simpa using fun heq : destinationHash = hash => he heq.symm

end Announcer

open Transport.Announcer in
theorem recorded_step {destinationHash : Bytes} {name : String} (state : Announcer × Option ℚ)
    (e : AnnouncerEvent) (state' : Announcer × Option ℚ) (h : Recorded destinationHash name state)
    (he : StaysPublished destinationHash name e)
    (hstep : announcerStep destinationHash name state e = some state') :
    Recorded destinationHash name state' := by
  have hbooks := books_react h.published e he
  unfold announcerStep at hstep
  generalize state.1.react e = result at hbooks hstep
  obtain ⟨a, announced⟩ := result
  obtain rfl := Option.some.inj hstep
  refine ⟨hbooks.published, ?_⟩
  intro at_ hat
  cases hmade : Assoc.get announced (destinationHash, name) with
  | some made =>
      rw [hmade] at hat
      obtain rfl := Option.some.inj hat
      exact ⟨made, hbooks.made made hmade, le_rfl⟩
  | none =>
      rw [hmade] at hat
      obtain ⟨recorded, hrecorded, hle⟩ := h.record at_ hat
      obtain ⟨recorded', hrecorded', hle'⟩ := hbooks.kept hmade recorded hrecorded
      exact ⟨recorded', hrecorded', hle.trans hle'⟩

/-- Whatever happens, the sweep selects a published destination for an interface only when its
period has passed since its last announce there. -/
theorem period_run (destinationHash : Bytes) (name : String) (a : Announcer)
    (hpublished : a.publishedDestinations.containsKey destinationHash = true)
    (events : List AnnouncerEvent) (hevents : ∀ e ∈ events, StaysPublished destinationHash name e) :
    Runs.Always (announcerStep destinationHash name) (KeepsPeriod destinationHash name) (a, none)
      events := by
  have hstart : Announcer.Recorded destinationHash name (a, none) :=
    ⟨hpublished, fun _ hat => by cases hat⟩
  intro done state hdone hrun
  have hmeets : Runs.Meets (announcerStep destinationHash name)
      (fun _ e => StaysPublished destinationHash name e) (a, none) done :=
    Runs.meets_of_forall (fun e he => hevents e (hdone.subset he)) _
  exact Announcer.keepsPeriod_of_recorded (Runs.invariant recorded_step hstart hmeets hrun)

/-! ## A destination that is announced and refreshed -/

section Samples

set_option maxRecDepth 4000

/-- A destination that is published for a refresh every hour, and an interface. -/
def hourlyAnnouncer : Announcer :=
  { interfaces := twoInterfaces.interfaces.map Announcer.paced
    localClientInterfaces := []
    destinations := [{ hash := List.replicate 16 0, isIn := true, isSingle := true }]
    publishedDestinations :=
      { entries := [(List.replicate 16 0,
          { refreshInterval := some 3600, lastAnnouncedAt := 0, appData := none })]
        nodup := List.nodup_singleton _ }
    publishedLastChecked := 0
    publishedCheckInterval := 30
    publishedLastAnnouncedAt := 0
    announceSentAt := []
    upEdgePendingInterfaces := [] }

/-- The application announces the destination on an interface. -/
def applicationAnnounce (name : String) : Announcer.OwnPacket :=
  { destinationHash := some (List.replicate 16 0), context := 0, attachedInterface := some name
    receivingInterface := none, raw := [] }

/-- A peer that comes back online. -/
def returningPeer : InterfaceStub :=
  { name := "left", online := true, bitrate := none, hwMtu := none, autoconfigureMtu := false
    fixedMtu := false, mode := 1, tunnelId := none, lastInboundAt := 0 }

/-- The application announces, the peer flaps, and the other interface is refreshed. -/
def flapEvents : List AnnouncerEvent :=
  [.outbound none 4000 (applicationAnnounce "left"), .deregisterAutoInterfacePeer "left",
    .registerAutoInterfacePeer returningPeer, .sweep 5000 5000 true]

/-- The sweep selects the destination for the peer an hour after the announce, no sooner. -/
theorem period_run_flap :
    (Runs.exec (announcerStep (List.replicate 16 0) "left") (hourlyAnnouncer, none) flapEvents).map
        (fun state => (state.2, state.1.selected 7599, state.1.selected 7600)) =
      some (some 4000, none, some (List.replicate 16 0, "left")) ∧
    Runs.Always (announcerStep (List.replicate 16 0) "left")
      (KeepsPeriod (List.replicate 16 0) "left") (hourlyAnnouncer, none) flapEvents := by
  refine ⟨by decide +kernel, ?_⟩
  refine period_run _ _ _ (by decide +kernel) _ ?_
  intro e he
  simp only [flapEvents, List.mem_cons, List.not_mem_nil, or_false] at he
  obtain rfl | rfl | rfl | rfl := he <;> exact True.intro

end Samples

end Reticulum.Transport
