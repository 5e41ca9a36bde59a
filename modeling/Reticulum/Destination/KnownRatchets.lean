import Reticulum.Destination.Ratchets
import Reticulum.Link.Rejection

/-!
# Ratchets that a sender knows

`remember_ratchet`, `get_ratchet` and `known_ratchet_max_age` (`src/identity.rs`), with
the destination whose ratchets they are. A sender uses a ratchet for as long as the
destination keeps one that it rotates at every interval. The sender counts from when
it handled an announce with the ratchet, and the destination counts rotations, of
which a restart makes one at once. `sender_run` says which steps keep the two
together, and `timely_run` which delays do without restarts.

## Implementation notes

The clock is that of both parties and never goes back. What the sender knows is kept
for one destination. The thread that writes an entry to the file is an event of its
own. A restart of the sender loses what it held in memory and the entries that are
still to be written.
-/

namespace Reticulum

def ratchetExpiry : Nat := 60 * 60 * 24 * 30

def knownRatchetMaxAge : Nat := min ((ratchetCount - 1) * defaultRatchetInterval) ratchetExpiry

/-- `DESTINATION_TIMEOUT`, in seconds. -/
def announceDelayMax : Nat := 60 * 60 * 24 * 7

def ratchetEntryFresh (entry : Transport.RatchetEntry) (now : Nat) : Bool :=
  now ≤ entry.timestamp + knownRatchetMaxAge

/-- What a sender knows of the ratchets of a destination: the entry of `KNOWN_RATCHETS`, that
of the file, and those that threads are still to write. -/
structure KnownRatchets where
  known : Option Transport.RatchetEntry
  file : Option Transport.RatchetEntry
  pending : List Transport.RatchetEntry

namespace KnownRatchets

/-- `remember_ratchet`. A client of a shared instance does not write the file. -/
def rememberRatchet (k : KnownRatchets) (ratchetPub : Bytes) (now : Nat) (connected : Bool) :
    KnownRatchets :=
  if ratchetPub.length ≠ Transport.ratchetSize then k
  else if k.known.any fun existing =>
      existing.publicKey == ratchetPub && ratchetEntryFresh existing now then k
  else
    let entry := { publicKey := ratchetPub, timestamp := now : Transport.RatchetEntry }
    { k with
      known := some entry
      pending := if connected then k.pending else k.pending ++ [entry] }

/-- `get_ratchet`, after what is in memory is stale or missing. -/
def getFromFile (k : KnownRatchets) (now : Nat) : Option Bytes × KnownRatchets :=
  match k.file with
  | none => (none, { k with known := none })
  | some entry =>
      if ratchetEntryFresh entry now then (some entry.publicKey, { k with known := some entry })
      else (none, { k with known := none, file := none })

/-- `get_ratchet`. -/
def getRatchet (k : KnownRatchets) (now : Nat) : Option Bytes × KnownRatchets :=
  match k.known with
  | none => k.getFromFile now
  | some entry =>
      if ratchetEntryFresh entry now then (some entry.publicKey, k) else k.getFromFile now

/-- Every entry that a sender holds anywhere. -/
def entries (k : KnownRatchets) : List Transport.RatchetEntry :=
  k.known.toList ++ k.file.toList ++ k.pending

end KnownRatchets

/-- An announce with a ratchet: its public key, when the announce was built, and the time of the
latest rotation then. -/
structure RatchetAnnounce where
  publicKey : Bytes
  built : Nat
  rotated : Nat
  deriving DecidableEq

/-- A destination and a sender, with the announces that were built. -/
structure RatchetPeers where
  clock : Nat
  destination : Destination
  cell : RatchetCell
  announces : List RatchetAnnounce
  sender : KnownRatchets

/-- What can happen to them. -/
inductive RatchetPeerEvent
  | announce (now : Nat) (key : Bytes) (writes : Bool)
  | restart (now : Nat) (path : String) (read : RatchetRead) (writes : Bool)
  | handle (announce : RatchetAnnounce) (now : Nat) (connected : Bool)
  | get (now : Nat)
  | write (entry : Transport.RatchetEntry) (writes : Bool)
  | restartSender

namespace RatchetPeers

/-- The public keys of the ratchets that the destination has. -/
def held (c : Crypto) (w : RatchetPeers) : List Bytes :=
  (w.destination.ratchets.getD []).map fun ratchet => (c.publicKey ratchet).1

/-- The announce that is built, when it has a ratchet. -/
def built (c : Crypto) (now : Nat) :
    Except String (Option Bytes) × Destination × RatchetCell → List RatchetAnnounce
  | (.ok (some ratchet), d, _) =>
      [{ publicKey := (c.publicKey ratchet).1, built := now, rotated := d.latestRatchetTime }]
  | _ => []

/-- The destination and the sender after an event. An announce is handled any number of times,
up to `DESTINATION_TIMEOUT` after it was built. -/
def step (c : Crypto) (w : RatchetPeers) : RatchetPeerEvent → Option RatchetPeers
  | .announce now key writes =>
      if now < w.clock then none
      else
        let result := w.destination.rotateForAnnounce w.cell now key writes
        some
          { clock := now
            destination := result.2.1
            cell := result.2.2
            announces := built c now result ++ w.announces
            sender := w.sender }
  | .restart now path read writes =>
      if now < w.clock then none
      else
        let result := w.destination.enableRatchets w.cell.files path read writes
        some { w with clock := now, destination := result.1, cell := result.2 }
  | .handle announce now connected =>
      if now < w.clock ∨ announce ∉ w.announces ∨ announce.built + announceDelayMax < now then none
      else some { w with
        clock := now
        sender := w.sender.rememberRatchet announce.publicKey now connected }
  | .get now =>
      if now < w.clock then none
      else some { w with clock := now, sender := (w.sender.getRatchet now).2 }
  | .write entry writes =>
      if entry ∈ w.sender.pending then
        some { w with
          sender := { w.sender with
            file := if writes then some entry else w.sender.file
            pending := w.sender.pending.erase entry } }
      else none
  | .restartSender => some { w with sender := { w.sender with known := none, pending := [] } }

/-- Whatever `get_ratchet` returns from now on, the destination still has its ratchet. -/
def SendsHeld (c : Crypto) (w : RatchetPeers) : Prop :=
  ∀ now ≥ w.clock, ∀ ratchetPub, (w.sender.getRatchet now).1 = some ratchetPub →
    ratchetPub ∈ w.held c

/-- The sender took up the entries that it holds of a ratchet longer ago than
`known_ratchet_max_age`. -/
def Expired (c : Crypto) (w : RatchetPeers) (now : Nat) (ratchet : Bytes) : Prop :=
  ∀ entry ∈ w.sender.entries, entry.publicKey = (c.publicKey ratchet).1 →
    entry.timestamp + knownRatchetMaxAge < now

/-- A rotation that is due drops, and a restart does not find in the file, only ratchets of which
the sender's entries are expired; and an announce is handled while the destination has its
ratchet. -/
def InTime (c : Crypto) (w : RatchetPeers) : RatchetPeerEvent → Prop
  | .announce now _ _ =>
      w.destination.ratchetsFrozen = false →
      w.destination.latestRatchetTime + w.destination.ratchetInterval < now →
        ∀ ratchet ∈ (w.destination.ratchets.getD []).drop (w.destination.retainedRatchets - 1),
          w.Expired c now ratchet
  | .restart now _ read _ => ∀ ratchet ∈ w.destination.ratchets.getD [],
      ratchet ∉ w.cell.read read → w.Expired c now ratchet
  | .handle announce _ _ => announce.publicKey ∈ w.held c
  | _ => True

instance (c : Crypto) (w : RatchetPeers) (now : Nat) (ratchet : Bytes) :
    Decidable (Expired c w now ratchet) :=
  inferInstanceAs (Decidable (∀ entry ∈ w.sender.entries, _ → _))

instance (c : Crypto) (w : RatchetPeers) : ∀ event, Decidable (InTime c w event)
  | .announce now _ _ => inferInstanceAs (Decidable (_ → _ → ∀ ratchet ∈
      (w.destination.ratchets.getD []).drop (w.destination.retainedRatchets - 1),
        w.Expired c now ratchet))
  | .restart now _ read _ => inferInstanceAs (Decidable (∀ ratchet ∈
      w.destination.ratchets.getD [], ratchet ∉ w.cell.read read → w.Expired c now ratchet))
  | .handle announce _ _ => inferInstanceAs (Decidable (announce.publicKey ∈ w.held c))
  | .get _ | .write _ _ | .restartSender => isTrue True.intro

/-- A destination with the default interval and number of ratchets, and a sender that knows
none. -/
structure Start (w : RatchetPeers) : Prop where
  interval : w.destination.ratchetInterval = defaultRatchetInterval
  retained : w.destination.retainedRatchets = ratchetCount
  enabled : w.destination.ratchets.isSome = true
  generation : w.destination.ratchetGeneration = w.cell.shared.generation
  announces : w.announces = []
  known : w.sender.entries = []

end RatchetPeers

/-! ## One step -/

namespace Destination

variable {d : Destination} {cell : RatchetCell}

/-- A rotation of the only copy: nothing changes, or it is due and a ratchet is put in front. -/
theorem rotateRatchets_only (now : Nat) (key : Bytes) (writes : Bool)
    (henabled : d.ratchets.isSome = true)
    (hgeneration : d.ratchetGeneration = cell.shared.generation) :
    let result := d.rotateRatchets cell now key writes
    (result.2 = (d, cell) ∧
      (d.ratchetsFrozen = true ∨ ¬ d.latestRatchetTime + d.ratchetInterval < now)) ∨
    (d.ratchetsFrozen = false ∧ d.latestRatchetTime + d.ratchetInterval < now ∧
      result.2.1 = { d with
        ratchets := d.ratchets.map fun list => (key :: list).take d.retainedRatchets
        latestRatchetTime := now
        ratchetGeneration := result.2.2.shared.generation }) := by
  have hadopt : d.adoptSharedRatchets cell.shared = d :=
    if_neg fun hnewer => hnewer.1 hgeneration.symm
  dsimp only
  unfold rotateRatchets
  cases hfrozen : d.ratchetsFrozen with
  | true =>
      rw [henabled]
      exact .inl ⟨rfl, .inl rfl⟩
  | false =>
      rw [Bool.and_false, if_neg Bool.false_ne_true,
        if_neg (by rw [Option.isNone_eq_false_iff.mpr henabled]; exact Bool.false_ne_true)]
      dsimp only
      rw [hadopt]
      split
      · rename_i hdue
        obtain ⟨list, hlist⟩ := Option.isSome_iff_exists.mp henabled
        refine .inr ⟨rfl, hdue, ?_⟩
        simp only [cleanRatchets, hlist, Option.map_some, hfrozen]
      · rename_i hearly
        exact .inl ⟨rfl, .inr hearly⟩

/-- A restart takes the list of the file. -/
theorem enableRatchets_eq (d : Destination) (cell : RatchetCell) (path : String)
    (read : RatchetRead) (writes : Bool) :
    (d.enableRatchets cell.files path read writes).1 =
        { d with
          ratchets := some (cell.read read)
          latestRatchetTime := 0
          ratchetsPath := some path
          ratchetGeneration := 0 } ∧
      (d.enableRatchets cell.files path read writes).2.shared.generation = 0 := by
  unfold enableRatchets
  dsimp only
  rw [(reloadRatchets_eq _ _ _ _ _).1]
  exact ⟨rfl, rfl⟩

end Destination

namespace KnownRatchets

variable {k : KnownRatchets} {now : Nat}

theorem mem_entries {entry : Transport.RatchetEntry} :
    entry ∈ k.entries ↔ k.known = some entry ∨ k.file = some entry ∨ entry ∈ k.pending := by
  simp [entries]

/-- Only the announced ratchet is new to a sender that remembers it. -/
theorem entries_rememberRatchet {ratchetPub : Bytes} {connected : Bool}
    {entry : Transport.RatchetEntry}
    (h : entry ∈ (k.rememberRatchet ratchetPub now connected).entries) :
    entry ∈ k.entries ∨ entry = { publicKey := ratchetPub, timestamp := now } := by
  unfold rememberRatchet at h
  split at h
  · exact .inl h
  split at h
  · exact .inl h
  · rw [mem_entries] at h ⊢
    dsimp only at h
    rcases h with h | h | h
    · exact .inr (Option.some.inj h).symm
    · exact .inl (.inr (.inl h))
    · split at h
      · exact .inl (.inr (.inr h))
      · rcases List.mem_append.mp h with h | h
        · exact .inl (.inr (.inr h))
        · exact .inr (List.mem_singleton.mp h)

/-- What is read from the file is an entry that is fresh, and no entry is new. -/
theorem getFromFile_spec (k : KnownRatchets) (now : Nat) :
    (∀ ratchetPub, (k.getFromFile now).1 = some ratchetPub →
      ∃ entry ∈ k.entries, entry.publicKey = ratchetPub ∧ ratchetEntryFresh entry now) ∧
      ∀ entry ∈ (k.getFromFile now).2.entries, entry ∈ k.entries := by
  unfold getFromFile
  split
  · refine ⟨fun _ h => (by cases h), fun entry h => ?_⟩
    rw [mem_entries] at h ⊢
    exact .inr (h.resolve_left fun hnone => by cases hnone)
  · rename_i fileEntry hfile
    split
    · rename_i hfresh
      refine ⟨fun _ h => ?_, fun entry h => ?_⟩
      · exact ⟨fileEntry, mem_entries.mpr (.inr (.inl hfile)), Option.some.inj h, hfresh⟩
      · rw [mem_entries] at h ⊢
        rcases h with h | h
        · exact .inr (.inl (hfile.trans h))
        · exact .inr h
    · refine ⟨fun _ h => (by cases h), fun entry h => ?_⟩
      rw [mem_entries] at h ⊢
      rcases h with h | h | h
      · cases h
      · cases h
      · exact .inr (.inr h)

/-- `get_ratchet` returns an entry that is fresh, and no entry is new. -/
theorem getRatchet_spec (k : KnownRatchets) (now : Nat) :
    (∀ ratchetPub, (k.getRatchet now).1 = some ratchetPub →
      ∃ entry ∈ k.entries, entry.publicKey = ratchetPub ∧ ratchetEntryFresh entry now) ∧
      ∀ entry ∈ (k.getRatchet now).2.entries, entry ∈ k.entries := by
  unfold getRatchet
  split
  · exact getFromFile_spec k now
  · rename_i known hknown
    split
    · rename_i hfresh
      refine ⟨fun _ h => ?_, fun _ h => h⟩
      exact ⟨known, mem_entries.mpr (.inl hknown), Option.some.inj h, hfresh⟩
    · exact getFromFile_spec k now

/-- An entry that is written to the file was to be written. -/
theorem entries_write {entry : Transport.RatchetEntry} (hpending : entry ∈ k.pending)
    (writes : Bool) :
    ∀ held ∈ entries { k with
      file := if writes then some entry else k.file
      pending := k.pending.erase entry }, held ∈ k.entries := by
  intro held hmem
  rw [mem_entries] at hmem ⊢
  rcases hmem with hmem | hmem | hmem
  · exact .inl hmem
  · cases writes with
    | false => exact .inr (.inl hmem)
    | true =>
        obtain rfl := Option.some.inj hmem
        exact .inr (.inr hpending)
  · exact .inr (.inr (List.mem_of_mem_erase hmem))

/-- A restart leaves the entry of the file. -/
theorem entries_restart (k : KnownRatchets) :
    ∀ held ∈ entries { k with known := none, pending := [] }, held ∈ k.entries := by
  intro held hmem
  rw [mem_entries] at hmem ⊢
  rcases hmem with hmem | hmem | hmem
  · cases hmem
  · exact .inr (.inl hmem)
  · cases hmem

end KnownRatchets

namespace RatchetPeers

variable {c : Crypto} {w w' : RatchetPeers}

/-- What a run keeps: the destination has the ratchets of the entries that are not expired. -/
structure Covered (c : Crypto) (w : RatchetPeers) : Prop where
  enabled : w.destination.ratchets.isSome = true
  generation : w.destination.ratchetGeneration = w.cell.shared.generation
  covered : ∀ entry ∈ w.sender.entries,
    entry.publicKey ∈ w.held c ∨ entry.timestamp + knownRatchetMaxAge < w.clock

theorem Start.covered (h : Start w) : Covered c w := by
  refine ⟨h.enabled, h.generation, ?_⟩
  rw [h.known]
  intro entry hmem
  cases hmem

/-- The destination has whatever a sender gets. -/
theorem Covered.sendsHeld (h : Covered c w) : SendsHeld c w := by
  intro now hnow ratchetPub hget
  obtain ⟨entry, hmem, rfl, hfresh⟩ := (w.sender.getRatchet_spec now).1 ratchetPub hget
  have hage := of_decide_eq_true hfresh
  exact (h.covered entry hmem).resolve_right (by omega)

/-- The sender holds no new entry. -/
theorem Covered.sender (h : Covered c w) (clock : Nat) (hclock : w.clock ≤ clock)
    (sender : KnownRatchets) (hentries : ∀ entry ∈ sender.entries, entry ∈ w.sender.entries) :
    Covered c { w with clock := clock, sender := sender } where
  enabled := h.enabled
  generation := h.generation
  covered := by
    intro entry hmem
    rcases h.covered entry (hentries entry hmem) with hheld | hexpired
    · exact .inl hheld
    · exact .inr (hexpired.trans_le hclock)

/-- The destination drops only ratchets of which the entries are expired. -/
theorem Covered.destination (h : Covered c w) (now : Nat) (hclock : w.clock ≤ now)
    (d : Destination) (cell : RatchetCell) (announces : List RatchetAnnounce)
    (henabled : d.ratchets.isSome = true) (hgeneration : d.ratchetGeneration = cell.shared.generation)
    (hdropped : ∀ ratchet ∈ w.destination.ratchets.getD [], ratchet ∉ d.ratchets.getD [] →
      w.Expired c now ratchet) :
    Covered c
      { clock := now, destination := d, cell := cell, announces := announces
        sender := w.sender } where
  enabled := henabled
  generation := hgeneration
  covered := by
    intro entry hmem
    rcases h.covered entry hmem with hheld | hexpired
    · obtain ⟨ratchet, hratchet, hpublic⟩ := List.mem_map.mp hheld
      by_cases hkept : ratchet ∈ d.ratchets.getD []
      · exact .inl (List.mem_map.mpr ⟨ratchet, hkept, hpublic⟩)
      · exact .inr (hdropped ratchet hratchet hkept entry hmem hpublic.symm)
    · exact .inr (hexpired.trans_le hclock)

/-- A rotation drops the end of the list. -/
theorem Covered.rotate (h : Covered c w) {now : Nat} {key : Bytes} {writes : Bool}
    (hclock : w.clock ≤ now) (hevent : InTime c w (.announce now key writes))
    (announces : List RatchetAnnounce) :
    Covered c
      { clock := now
        destination := (w.destination.rotateRatchets w.cell now key writes).2.1
        cell := (w.destination.rotateRatchets w.cell now key writes).2.2
        announces := announces
        sender := w.sender } := by
  obtain ⟨list, hlist⟩ := Option.isSome_iff_exists.mp h.enabled
  obtain ⟨hsame, -⟩ | ⟨hfrozen, hdue, hd⟩ :=
    Destination.rotateRatchets_only now key writes h.enabled h.generation
  · rw [hsame]
    exact h.destination now hclock _ _ announces h.enabled h.generation
      fun ratchet hmem hnot => absurd hmem hnot
  · apply h.destination now hclock
    · rw [hd, hlist]
      rfl
    · rw [hd]
    · intro ratchet hmem hnot
      apply hevent hfrozen hdue ratchet
      rw [hd] at hnot
      rw [hlist] at hmem hnot ⊢
      have hsplit := List.take_append_drop (w.destination.retainedRatchets - 1) list
      rw [Option.getD_some, ← hsplit, List.mem_append] at hmem
      refine hmem.resolve_left fun hkept => hnot ?_
      cases hretained : w.destination.retainedRatchets with
      | zero =>
          rw [hretained] at hkept
          cases hkept
      | succ retained =>
          rw [hretained] at hkept
          exact List.mem_cons_of_mem _ hkept

theorem covered_step (w : RatchetPeers) (event : RatchetPeerEvent) (w' : RatchetPeers)
    (h : Covered c w) (hevent : InTime c w event) (hstep : step c w event = some w') :
    Covered c w' := by
  cases event with
  | announce now key writes =>
      simp only [step] at hstep
      split at hstep
      · cases hstep
      · rename_i hclock
        have hnext := Option.some.inj hstep
        rw [← hnext, (Destination.rotateForAnnounce_spec _ _ _ _ _).1]
        exact h.rotate (Nat.le_of_not_lt hclock) hevent _
  | restart now path read writes =>
      simp only [step] at hstep
      split at hstep
      · cases hstep
      · rename_i hclock
        obtain rfl := Option.some.inj hstep
        obtain ⟨hd, hcell⟩ := Destination.enableRatchets_eq w.destination w.cell path read
          writes
        apply h.destination now (Nat.le_of_not_lt hclock)
        · rw [hd]
          rfl
        · rw [hd, hcell]
        · intro ratchet hmem hnot
          rw [hd] at hnot
          exact hevent ratchet hmem hnot
  | handle announce now connected =>
      simp only [step] at hstep
      split at hstep
      · cases hstep
      · rename_i hclock
        obtain rfl := Option.some.inj hstep
        have hle : w.clock ≤ now := by omega
        refine ⟨h.enabled, h.generation, ?_⟩
        intro entry hmem
        rcases KnownRatchets.entries_rememberRatchet hmem with hmem | rfl
        · rcases h.covered entry hmem with hheld | hexpired
          · exact .inl hheld
          · exact .inr (hexpired.trans_le hle)
        · exact .inl hevent
  | get now =>
      simp only [step] at hstep
      split at hstep
      · cases hstep
      · rename_i hclock
        obtain rfl := Option.some.inj hstep
        exact h.sender now (Nat.le_of_not_lt hclock) _ (w.sender.getRatchet_spec now).2
  | write entry writes =>
      simp only [step] at hstep
      split at hstep
      · rename_i hpending
        obtain rfl := Option.some.inj hstep
        exact h.sender w.clock le_rfl _ (KnownRatchets.entries_write hpending writes)
      · cases hstep
  | restartSender =>
      obtain rfl := Option.some.inj hstep
      exact h.sender w.clock le_rfl _ w.sender.entries_restart

/-- In a run whose steps are in time, whenever `get_ratchet` returns a key the destination has its
ratchet. -/
theorem sender_run (c : Crypto) (w : RatchetPeers) (events : List RatchetPeerEvent) (h : Start w)
    (hmeets : Runs.Meets (step c) (InTime c) w events) :
    Runs.Always (step c) (SendsHeld c) w events := by
  have hcovered := Runs.always_of_meets covered_step h.covered hmeets
  intro done w' hdone hrun
  exact (hcovered done w' hdone hrun).sendsHeld

/-! ## Without restarts -/

/-- How long after a rotation its ratchet may be handled: by so much is the time in which a
destination makes `RATCHET_COUNT` rotations longer than `known_ratchet_max_age`. -/
def handlingSlack : Nat :=
  ratchetCount * (defaultRatchetInterval + 1) - 1 - knownRatchetMaxAge

/-- The destination does not restart, and the sender handles a ratchet soon after the rotation. -/
def Timely : RatchetPeerEvent → Prop
  | .restart _ _ _ _ => False
  | .handle announce now _ => now ≤ announce.rotated + handlingSlack
  | _ => True

/-- The rotations of a destination that does not restart, the latest first: an interval and more
lies between two of them, and what is announced and known comes from them. -/
structure Spaced (c : Crypto) (w : RatchetPeers) (history : List (Bytes × Nat)) : Prop where
  interval : w.destination.ratchetInterval = defaultRatchetInterval
  retained : w.destination.retainedRatchets = ratchetCount
  generation : w.destination.ratchetGeneration = w.cell.shared.generation
  ratchets : w.destination.ratchets = some ((history.map Prod.fst).take ratchetCount)
  latest : ∀ made, history[0]? = some made → made.2 = w.destination.latestRatchetTime
  spaced : ∀ (i : Nat) (made : Bytes × Nat), history[i]? = some made →
    made.2 + i * (defaultRatchetInterval + 1) ≤ w.destination.latestRatchetTime ∧
      w.destination.latestRatchetTime ≤ w.clock
  announces : ∀ a ∈ w.announces, ∃ (i : Nat) (key : Bytes), history[i]? = some (key, a.rotated) ∧
    (c.publicKey key).1 = a.publicKey
  known : ∀ entry ∈ w.sender.entries, ∃ (i : Nat) (key : Bytes) (time : Nat),
    history[i]? = some (key, time) ∧ (c.publicKey key).1 = entry.publicKey ∧
      entry.timestamp ≤ time + handlingSlack

variable {history : List (Bytes × Nat)}

theorem Start.spaced (h : Start w) (hempty : w.destination.ratchets = some []) :
    Spaced c w [] where
  interval := h.interval
  retained := h.retained
  generation := h.generation
  ratchets := hempty
  latest := fun _ hmade => by cases hmade
  spaced := fun _ _ hmade => by cases hmade
  announces := by
    rw [h.announces]
    intro a hmem
    cases hmem
  known := by
    rw [h.known]
    intro entry hmem
    cases hmem

section

variable (h : Spaced c w history)

include h

/-- A ratchet is dropped only when the sender does not use it any more. -/
theorem Spaced.sendsHeld : SendsHeld c w := by
  intro now hnow ratchetPub hget
  obtain ⟨entry, hmem, rfl, hfresh⟩ := (w.sender.getRatchet_spec now).1 ratchetPub hget
  obtain ⟨i, key, time, hmade, hpublic, htime⟩ := h.known entry hmem
  obtain ⟨hlatest, hclock⟩ := h.spaced i (key, time) hmade
  have hage : now ≤ entry.timestamp + knownRatchetMaxAge := of_decide_eq_true hfresh
  have hslack : handlingSlack + knownRatchetMaxAge + 1 =
    ratchetCount * (defaultRatchetInterval + 1) := by decide
  have hkept : i < ratchetCount := by
    by_contra hdropped
    have hrotations := Nat.mul_le_mul_right (defaultRatchetInterval + 1) (Nat.le_of_not_lt hdropped)
    omega
  refine List.mem_map.mpr ⟨key, ?_, hpublic⟩
  rw [h.ratchets, Option.getD_some]
  apply List.mem_of_getElem? (i := i)
  rw [List.getElem?_take_of_lt hkept, List.getElem?_map, hmade]
  rfl

/-- The sender holds no entry that does not come from the rotations. -/
theorem Spaced.sender (clock : Nat) (hclock : w.clock ≤ clock)
    (sender : KnownRatchets)
    (hknown : ∀ entry ∈ sender.entries, entry ∈ w.sender.entries ∨
      ∃ (i : Nat) (key : Bytes) (time : Nat), history[i]? = some (key, time) ∧
        (c.publicKey key).1 = entry.publicKey ∧ entry.timestamp ≤ time + handlingSlack) :
    Spaced c { w with clock := clock, sender := sender } history where
  interval := h.interval
  retained := h.retained
  generation := h.generation
  ratchets := h.ratchets
  latest := h.latest
  spaced := fun i made hmade =>
    ⟨(h.spaced i made hmade).1, (h.spaced i made hmade).2.trans hclock⟩
  announces := h.announces
  known := fun entry hmem => (hknown entry hmem).elim (h.known entry) id

/-- A rotation that is due comes an interval and more after the one before. -/
theorem Spaced.rotate {now : Nat} (key : Bytes) (writes : Bool)
    (hclock : w.clock ≤ now) :
    ∃ history', Spaced c
      { w with
        clock := now
        destination := (w.destination.rotateRatchets w.cell now key writes).2.1
        cell := (w.destination.rotateRatchets w.cell now key writes).2.2 } history' := by
  obtain ⟨hsame, -⟩ | ⟨-, hdue, hd⟩ := Destination.rotateRatchets_only now key writes
    (by rw [h.ratchets]; rfl) h.generation
  · refine ⟨history, ?_⟩
    rw [hsame]
    exact h.sender now hclock w.sender fun _ hmem => .inl hmem
  · refine ⟨(key, now) :: history, ?_⟩
    rw [hd]
    constructor
    · exact h.interval
    · exact h.retained
    · rfl
    · dsimp only
      rw [h.ratchets, h.retained, Option.map_some, List.map_cons]
      simp [ratchetCount, List.take_take]
    · intro made hmade
      obtain rfl := Option.some.inj hmade
      rfl
    · intro i made hmade
      refine ⟨?_, le_rfl⟩
      cases i with
      | zero =>
          obtain rfl := Option.some.inj hmade
          simp
      | succ i =>
          obtain ⟨hlatest, -⟩ := h.spaced i made hmade
          rw [h.interval] at hdue
          rw [Nat.succ_mul]
          dsimp only
          omega
    · intro a hmem
      obtain ⟨i, key', hmade, hpublic⟩ := h.announces a hmem
      exact ⟨i + 1, key', hmade, hpublic⟩
    · intro entry hmem
      obtain ⟨i, key', time, hmade, hpublic, htime⟩ := h.known entry hmem
      exact ⟨i + 1, key', time, hmade, hpublic, htime⟩

/-- The ratchet that is announced is that of the latest rotation. -/
theorem Spaced.built {d : Destination} {cell : RatchetCell} {now : Nat}
    {key : Bytes} {writes : Bool}
    (hresult : (d.rotateForAnnounce cell now key writes).2.1 = w.destination) :
    Spaced c
      { w with
        announces := RatchetPeers.built c now (d.rotateForAnnounce cell now key writes) ++
          w.announces } history where
  interval := h.interval
  retained := h.retained
  generation := h.generation
  ratchets := h.ratchets
  latest := h.latest
  spaced := h.spaced
  announces := by
    intro a hmem
    rcases List.mem_append.mp hmem with hmem | hmem
    · obtain ⟨hrotate, hratchet⟩ := Destination.rotateForAnnounce_spec d cell now key writes
      unfold RatchetPeers.built at hmem
      split at hmem
      · rename_i ratchet d' cell' heq
        obtain rfl := List.mem_singleton.mp hmem
        rw [heq] at hresult hrotate hratchet
        obtain ⟨-, hfirst⟩ := hratchet ratchet rfl
        dsimp only at hresult hrotate ⊢
        rw [← hrotate, hresult, h.ratchets, Option.getD_some,
          List.getElem?_take_of_lt (by decide), List.getElem?_map] at hfirst
        obtain ⟨made, hmade, rfl⟩ := Option.map_eq_some_iff.mp hfirst
        refine ⟨0, made.1, ?_, rfl⟩
        rw [hresult, hmade, ← h.latest made hmade]
      · cases hmem
    · exact h.announces a hmem
  known := h.known

end

theorem spaced_step (w : RatchetPeers) (event : RatchetPeerEvent) (w' : RatchetPeers)
    (h : ∃ history, Spaced c w history) (hevent : Timely event)
    (hstep : step c w event = some w') : ∃ history, Spaced c w' history := by
  obtain ⟨history, h⟩ := h
  cases event with
  | announce now key writes =>
      simp only [step] at hstep
      split at hstep
      · cases hstep
      · rename_i hclock
        obtain ⟨history', hrotated⟩ := h.rotate key writes (Nat.le_of_not_lt hclock)
        have hresult := (Destination.rotateForAnnounce_spec w.destination w.cell now key writes).1
        rw [← hresult] at hrotated
        have hnext := Option.some.inj hstep
        rw [← hnext]
        exact ⟨history', hrotated.built rfl⟩
  | restart now path read writes => exact hevent.elim
  | handle announce now connected =>
      simp only [step] at hstep
      split at hstep
      · cases hstep
      · rename_i hdisabled
        push Not at hdisabled
        obtain ⟨hclock, hbuilt, -⟩ := hdisabled
        obtain rfl := Option.some.inj hstep
        refine ⟨history, h.sender now hclock _ fun entry hmem => ?_⟩
        rcases KnownRatchets.entries_rememberRatchet hmem with hmem | rfl
        · exact .inl hmem
        · obtain ⟨i, key, hmade, hpublic⟩ := h.announces announce hbuilt
          exact .inr ⟨i, key, announce.rotated, hmade, hpublic, hevent⟩
  | get now =>
      simp only [step] at hstep
      split at hstep
      · cases hstep
      · rename_i hclock
        obtain rfl := Option.some.inj hstep
        exact ⟨history, h.sender now (Nat.le_of_not_lt hclock) _
          fun entry hmem => .inl ((w.sender.getRatchet_spec now).2 entry hmem)⟩
  | write entry writes =>
      simp only [step] at hstep
      split at hstep
      · rename_i hpending
        obtain rfl := Option.some.inj hstep
        exact ⟨history, h.sender w.clock le_rfl _
          fun held hmem => .inl (KnownRatchets.entries_write hpending writes held hmem)⟩
      · cases hstep
  | restartSender =>
      obtain rfl := Option.some.inj hstep
      exact ⟨history, h.sender w.clock le_rfl _
        fun held hmem => .inl (w.sender.entries_restart held hmem)⟩

/-- Without restarts, announces that are handled within `handlingSlack` of the rotation are in
time. -/
theorem timely_run (c : Crypto) (w : RatchetPeers) (events : List RatchetPeerEvent) (h : Start w)
    (hempty : w.destination.ratchets = some []) (htimely : ∀ event ∈ events, Timely event) :
    Runs.Always (step c) (SendsHeld c) w events := by
  have hspaced := Runs.always_of_meets (spaced_step (c := c)) ⟨[], h.spaced hempty⟩
    (Runs.meets_of_forall htimely w)
  intro done w' hdone hrun
  obtain ⟨history, hhistory⟩ := hspaced done w' hdone hrun
  exact hhistory.sendsHeld

/-! ## A ratchet that is handled late -/

/-- Ratchets with their number. -/
def numberedRatchet (i : Nat) : Bytes :=
  UInt8.ofNat (i / 256) :: UInt8.ofNat i :: List.replicate 30 0

/-- The first ratchets, the latest first. -/
def numberedRatchets : Nat → List Bytes
  | 0 => []
  | n + 1 => numberedRatchet n :: numberedRatchets n

/-- Announces in which a rotation is due, from a number on. -/
def numberedAnnounces : Nat → Nat → List RatchetPeerEvent
  | _, 0 => []
  | i, n + 1 => .announce (1801 * (i + 1)) (numberedRatchet i) true :: numberedAnnounces (i + 1) n

/-- A destination that has just enabled ratchets, and a sender. -/
def freshPeers : RatchetPeers where
  clock := 0
  destination := freshlyEnabled ratchetCount
  cell := { shared := { ratchets := some [], latestRatchetTime := 0, generation := 0 }
            files := [[]] }
  announces := []
  sender := { known := none, file := none, pending := [] }

theorem freshPeers_start : Start freshPeers := ⟨rfl, rfl, rfl, rfl, rfl, rfl⟩

/-- The destination after so many announces of numbered ratchets. -/
structure Numbered (n : Nat) (w : RatchetPeers) : Prop where
  clock : w.clock = 1801 * n
  interval : w.destination.ratchetInterval = defaultRatchetInterval
  retained : w.destination.retainedRatchets = ratchetCount
  frozen : w.destination.ratchetsFrozen = false
  generation : w.destination.ratchetGeneration = w.cell.shared.generation
  latest : w.destination.latestRatchetTime = 1801 * n
  ratchets : w.destination.ratchets = some ((numberedRatchets n).take ratchetCount)

/-- The next announce puts the next ratchet in front. -/
theorem Numbered.announce (c : Crypto) {n : Nat} (h : Numbered n w) :
    ∃ w', step c w (.announce (1801 * (n + 1)) (numberedRatchet n) true) = some w' ∧
      Numbered (n + 1) w' ∧ w'.sender = w.sender ∧ ∀ a ∈ w.announces, a ∈ w'.announces := by
  have hclock := h.clock
  have hdue : w.destination.latestRatchetTime + w.destination.ratchetInterval <
      1801 * (n + 1) := by
    rw [h.latest, h.interval, defaultRatchetInterval]
    omega
  have hspec := (Destination.rotateForAnnounce_spec w.destination w.cell (1801 * (n + 1))
    (numberedRatchet n) true).1
  obtain ⟨-, hearly⟩ | ⟨-, -, hd⟩ := Destination.rotateRatchets_only (1801 * (n + 1))
    (numberedRatchet n) true (by rw [h.ratchets]; rfl) h.generation
  · rw [h.frozen] at hearly
    exact absurd hdue (hearly.resolve_left Bool.false_ne_true)
  · simp only [step]
    rw [if_neg (by omega)]
    refine ⟨_, rfl, ?_, rfl, fun a hmem => List.mem_append_right _ hmem⟩
    rw [hspec, hd]
    constructor
    · rfl
    · exact h.interval
    · exact h.retained
    · exact h.frozen
    · rfl
    · rfl
    · dsimp only
      rw [h.ratchets, h.retained]
      simp [numberedRatchets, ratchetCount, List.take_take]

/-- The destination after a run of announces. -/
theorem Numbered.announces (c : Crypto) {n : Nat} (h : Numbered n w) (m : Nat) :
    ∃ w', Runs.exec (step c) w (numberedAnnounces n m) = some w' ∧
      Numbered (n + m) w' ∧ w'.sender = w.sender ∧ ∀ a ∈ w.announces, a ∈ w'.announces := by
  induction m generalizing n w with
  | zero => exact ⟨w, rfl, h, rfl, fun _ hmem => hmem⟩
  | succ m ih =>
      obtain ⟨w₁, hstep, h₁, hsender₁, hannounces₁⟩ := h.announce c
      obtain ⟨w₂, hrun, h₂, hsender₂, hannounces₂⟩ := ih h₁
      refine ⟨w₂, Runs.exec_cons_eq_some.mpr ⟨w₁, hstep, hrun⟩, ?_, hsender₂.trans hsender₁,
        fun a hmem => hannounces₂ a (hannounces₁ a hmem)⟩
      rw [Nat.add_succ, ← Nat.succ_add]
      exact h₂

theorem mem_take_numberedRatchets {n m : Nat} {ratchet : Bytes}
    (h : ratchet ∈ (numberedRatchets n).take m) :
    ∃ i, i < n ∧ n ≤ i + m ∧ ratchet = numberedRatchet i := by
  induction n generalizing m with
  | zero =>
      rw [numberedRatchets, List.take_nil] at h
      cases h
  | succ n ih =>
      cases m with
      | zero => cases h
      | succ m =>
          rw [numberedRatchets, List.take_succ_cons] at h
          rcases List.mem_cons.mp h with rfl | h
          · exact ⟨n, by omega, by omega, rfl⟩
          · obtain ⟨i, hlt, hle, rfl⟩ := ih h
            exact ⟨i, by omega, by omega, rfl⟩

/-- The first ratchet is not among the last 512 of 513. -/
theorem numberedRatchet_dropped {ratchet : Bytes}
    (h : ratchet ∈ (numberedRatchets 513).take ratchetCount) :
    (Link.pad 32 ratchet).1 ≠ (Link.pad 32 (numberedRatchet 0)).1 := by
  obtain ⟨i, hlt, hle, rfl⟩ := mem_take_numberedRatchets h
  have hi : 1 ≤ i := by
    rw [ratchetCount] at hle
    omega
  intro heq
  simp only [Link.pad, numberedRatchet, List.cons_append, List.take_succ_cons,
    List.cons.injEq] at heq
  obtain ⟨hhigh, hlow, -⟩ := heq
  have hhigh' := congrArg UInt8.toNat hhigh
  have hlow' := congrArg UInt8.toNat hlow
  simp only [UInt8.toNat_ofNat'] at hhigh' hlow'
  omega

/-- The announce with the first ratchet. -/
def firstAnnounce : RatchetAnnounce where
  publicKey := (Link.pad 32 (numberedRatchet 0)).1
  built := 1801
  rotated := 1801

/-- The first announce is handled almost seven days after it was built, and the destination
announces in every interval. -/
def handledLate : List RatchetPeerEvent :=
  .announce 1801 (numberedRatchet 0) true :: (numberedAnnounces 1 335 ++
    .handle firstAnnounce 605136 false :: numberedAnnounces 336 177)

/-- The announce with the second ratchet, after a restart. -/
def secondAnnounce : RatchetAnnounce where
  publicKey := (Link.pad 32 (numberedRatchet 1)).1
  built := knownRatchetMaxAge + 1803
  rotated := knownRatchetMaxAge + 1803

/-- The destination restarts and does not find its ratchet in the file, when the sender's entry of
it has expired. The next announce is handled, and the sender gets a ratchet. -/
def restarted : List RatchetPeerEvent :=
  [.announce 1801 (numberedRatchet 0) true, .handle firstAnnounce 1801 false,
   .restart (knownRatchetMaxAge + 1802) "ratchets" .unreadable true,
   .announce (knownRatchetMaxAge + 1803) (numberedRatchet 1) true,
   .handle secondAnnounce (knownRatchetMaxAge + 1803) false, .get (knownRatchetMaxAge + 1804)]

theorem sender_run_restarted :
    ((Runs.exec (step (Link.sampleCrypto [])) freshPeers restarted).any fun w =>
        w.destination.ratchets == some [numberedRatchet 1]) = true ∧
      Runs.Always (step (Link.sampleCrypto [])) (SendsHeld (Link.sampleCrypto [])) freshPeers
        restarted :=
  ⟨by decide +kernel, sender_run _ _ _ freshPeers_start (by decide +kernel)⟩

/-- The first announce is handled as late as may be, and the sender gets a ratchet. -/
def handledInSlack : List RatchetPeerEvent :=
  [.announce 1801 (numberedRatchet 0) true, .announce 3602 (numberedRatchet 1) true,
   .handle firstAnnounce 4112 false, .get 4113]

theorem timely_run_in_slack :
    (Runs.exec (step (Link.sampleCrypto [])) freshPeers handledInSlack).isSome = true ∧
      Runs.Always (step (Link.sampleCrypto [])) (SendsHeld (Link.sampleCrypto [])) freshPeers
        handledInSlack := by
  refine ⟨by decide +kernel, timely_run _ _ _ freshPeers_start rfl ?_⟩
  intro event hevent
  simp only [handledInSlack, List.mem_cons, List.not_mem_nil, or_false] at hevent
  obtain rfl | rfl | rfl | rfl := hevent
  · exact True.intro
  · exact True.intro
  · exact (by decide : 4112 ≤ 1801 + handlingSlack)
  · exact True.intro

/-- The ratchet of the first announce is known and dropped after it was handled late. -/
theorem exec_handledLate :
    ∃ w, Runs.exec (step (Link.sampleCrypto [])) freshPeers handledLate = some w ∧
      Numbered 513 w ∧ w.sender.known = some
        { publicKey := firstAnnounce.publicKey, timestamp := 605136 } := by
  have hfresh : Numbered 0 freshPeers := ⟨rfl, rfl, rfl, rfl, rfl, rfl, rfl⟩
  obtain ⟨w₁, h₁, hnumbered₁, hsender₁, -⟩ := hfresh.announce (Link.sampleCrypto [])
  have hbuilt : firstAnnounce ∈ w₁.announces := by
    obtain rfl := Option.some.inj h₁
    decide +kernel
  obtain ⟨w₂, h₂, hnumbered₂, hsender₂, hannounces₂⟩ :=
    hnumbered₁.announces (Link.sampleCrypto []) 335
  have hsender : w₂.sender = { known := none, file := none, pending := [] } :=
    hsender₂.trans hsender₁
  have hhandled : step (Link.sampleCrypto []) w₂ (.handle firstAnnounce 605136 false) = some
      { w₂ with
        clock := 605136
        sender := w₂.sender.rememberRatchet firstAnnounce.publicKey 605136 false } := by
    have hclock := hnumbered₂.clock
    refine if_neg ?_
    rintro (hearly | hmissing | hlate)
    · omega
    · exact hmissing (hannounces₂ _ hbuilt)
    · exact absurd hlate (by decide)
  have hnumbered₃ : Numbered 336
      { w₂ with
        clock := 605136
        sender := w₂.sender.rememberRatchet firstAnnounce.publicKey 605136 false } :=
    { hnumbered₂ with clock := rfl }
  obtain ⟨w₄, h₄, hnumbered₄, hsender₄, -⟩ :=
    hnumbered₃.announces (Link.sampleCrypto []) 177
  refine ⟨w₄, ?_, hnumbered₄, ?_⟩
  · refine Runs.exec_cons_eq_some.mpr ⟨w₁, h₁, ?_⟩
    rw [Runs.exec_append_of_eq h₂]
    exact Runs.exec_cons_eq_some.mpr ⟨_, hhandled, h₄⟩
  · rw [hsender₄, hsender]
    rfl

/-- The sender still uses the first ratchet when the destination has dropped it. -/
theorem senders_hold_false :
    ¬ ∀ (c : Crypto) (w : RatchetPeers) (events : List RatchetPeerEvent),
      Start w → Runs.Always (step c) (SendsHeld c) w events := by
  intro h
  obtain ⟨w, hrun, hnumbered, hknown⟩ := exec_handledLate
  have hsends := h (Link.sampleCrypto []) freshPeers handledLate freshPeers_start handledLate w
    (List.prefix_refl _) hrun
  have hget : (w.sender.getRatchet w.clock).1 = some firstAnnounce.publicKey := by
    unfold KnownRatchets.getRatchet
    rw [hknown, hnumbered.clock]
    rfl
  obtain ⟨ratchet, hmem, hpublic⟩ := List.mem_map.mp (hsends w.clock le_rfl _ hget)
  rw [hnumbered.ratchets, Option.getD_some] at hmem
  exact numberedRatchet_dropped hmem hpublic

end RatchetPeers

end Reticulum
