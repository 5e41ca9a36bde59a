import Reticulum.Transport.Announce

/-!
# Known destinations and their table

`remember_destination` and what recalls a destination (`src/identity.rs`), with the
SQLite table below it (`src/known_destinations.rs`). Whether to write is decided from
the map in memory, which is updated even when the write fails. `remember_run` says when
a call that returns `Ok` has its destination in the table.

## Implementation notes

The table is a map whose `put` takes effect or fails without effect; which of the two is
an input. `loaded` and `puts` record what was loaded and what was put since, for the
statements. The import of the older file is left out.
-/

namespace Reticulum

open Transport (Table KnownDestination mergeKnown)

/-- `u64 as i64`. -/
def asI64 (n : Nat) : Int := if n < 9223372036854775808 then n else n - 18446744073709551616

/-- A row of `known_destinations`, behind its key. -/
structure KnownRow where
  publicKey : Bytes
  appData : Option Bytes
  lastSeen : Int
  deriving DecidableEq

namespace KnownRow

/-- The row that `put` writes. -/
def ofEntry (entry : KnownDestination) : KnownRow where
  publicKey := entry.publicKey
  appData := entry.appData
  lastSeen := asI64 entry.lastSeen

/-- What `load_all` makes of a row. -/
def toEntry (row : KnownRow) : KnownDestination where
  publicKey := row.publicKey
  appData := row.appData
  lastSeen := row.lastSeen.toNat

end KnownRow

/-- One `put`, and whether it took effect. -/
structure KnownPut where
  destinationHash : Bytes
  entry : KnownDestination
  stored : Bool

/-- `KnownDestinations`, whether its store is open, and the table. -/
structure KnownDestinations where
  map : Table KnownDestination
  store : Bool
  table : Table KnownRow
  loaded : Table KnownRow
  puts : List KnownPut

/-- What `KnownDestinationStore::open` comes to. -/
inductive Opening
  | opened
  /-- the file was set aside for a new one -/
  | setAside
  | failed
  deriving DecidableEq

/-- A call of `remember_destination` with the outcome of its `put`, or a restart. -/
inductive KnownEvent
  | remember (destinationHash publicKey : Bytes) (appData : Option Bytes) (now : Nat)
      (put : Except String Unit)
  | restart (opening : Opening)

namespace KnownDestinations

/-- `load_all` of a table. -/
def load (table : Table KnownRow) : KnownDestinations where
  map hash := (table hash).map KnownRow.toEntry
  store := true
  table := table
  loaded := table
  puts := []

/-- `ensure_loaded` of a process that has just started. -/
def ensureLoaded (table : Table KnownRow) : Opening → KnownDestinations
  | .opened => load table
  | .setAside => load fun _ => none
  | .failed => { load table with map := fun _ => none, store := false }

section

variable (k : KnownDestinations) (destinationHash : Bytes)

/-- `KnownDestinationStore::put`. -/
def put (entry : KnownDestination)
    (stored : Bool) : KnownDestinations :=
  { k with
    table := if stored then k.table.insert destinationHash (.ofEntry entry) else k.table
    puts := { destinationHash := destinationHash, entry := entry, stored := stored } :: k.puts }

/-- `remember_destination`, with the outcome of a `put`. -/
def rememberDestination (destinationHash publicKey : Bytes)
    (appData : Option Bytes) (now : Nat) (put : Except String Unit) :
    Except String Unit × KnownDestinations :=
  match mergeKnown (k.map destinationHash) publicKey appData now with
  | none => (.ok (), k)
  | some entry =>
      if k.store then
        (put, { k.put destinationHash entry put.toBool with
          map := k.map.insert destinationHash entry })
      else (.ok (), { k with map := k.map.insert destinationHash entry })

def recallPublicKey : Option Bytes :=
  (k.map destinationHash).map KnownDestination.publicKey

def recallAppData : Option Bytes :=
  (k.map destinationHash).bind KnownDestination.appData

/-- The next state. -/
def step : KnownEvent → KnownDestinations
  | .remember destinationHash publicKey appData now put =>
      (k.rememberDestination destinationHash publicKey appData now put).2
  | .restart opening => ensureLoaded k.table opening

/-- The state after some events. -/
def run (events : List KnownEvent) : KnownDestinations :=
  events.foldl step k

/-- The row of a destination has what is recalled. -/
def Stored : Prop :=
  ∃ row, k.table destinationHash = some row ∧
    k.recallPublicKey destinationHash = some row.publicKey ∧
    k.recallAppData destinationHash = row.appData

/-- The key and the application data of an entry. -/
def contents (entry : KnownDestination) : Bytes × Option Bytes := (entry.publicKey, entry.appData)

/-- What was last put for a destination, or loaded before. -/
def lastPut : Option (Bytes × Option Bytes) :=
  match k.puts.find? fun put => put.destinationHash = destinationHash with
  | some put => some (contents put.entry)
  | none => (k.loaded destinationHash).map fun row => contents row.toEntry

/-- What was last put for it and took effect, or loaded before. -/
def lastStored :
    Option (Bytes × Option Bytes) :=
  match k.puts.find? fun put => put.destinationHash = destinationHash ∧ put.stored with
  | some put => some (contents put.entry)
  | none => (k.loaded destinationHash).map fun row => contents row.toEntry

/-- Every put for a destination took effect, or the last one that did has the key and the
application data of the last one. -/
def Settled : Prop :=
  k.lastPut destinationHash = k.lastStored destinationHash

end

variable {k : KnownDestinations} {destinationHash publicKey : Bytes} {appData : Option Bytes}
  {now : Nat} {put : Except String Unit} {entry : KnownDestination}

theorem rememberDestination_none
    (h : mergeKnown (k.map destinationHash) publicKey appData now = none) :
    k.rememberDestination destinationHash publicKey appData now put = (.ok (), k) := by
  simp only [rememberDestination, h]

theorem rememberDestination_open
    (h : mergeKnown (k.map destinationHash) publicKey appData now = some entry)
    (hstore : k.store = true) :
    k.rememberDestination destinationHash publicKey appData now put =
      (put, { k.put destinationHash entry put.toBool with
        map := k.map.insert destinationHash entry }) := by
  simp only [rememberDestination, h, hstore, if_true]

theorem rememberDestination_closed
    (h : mergeKnown (k.map destinationHash) publicKey appData now = some entry)
    (hstore : k.store = false) :
    k.rememberDestination destinationHash publicKey appData now put =
      (.ok (), { k with map := k.map.insert destinationHash entry }) := by
  simp only [rememberDestination, h, hstore, Bool.false_eq_true, if_false]

/-- The map is that of a transport node, whatever becomes of the put. -/
theorem map_rememberDestination (s : Transport.TransportState) (r : Transport.Reading)
    (h : k.map = s.knownDestinations) :
    (k.rememberDestination destinationHash publicKey appData r.seconds put).2.map =
      (Transport.rememberDestination s r destinationHash publicKey appData).knownDestinations := by
  unfold Transport.rememberDestination
  rw [← h]
  cases hmerge : mergeKnown (k.map destinationHash) publicKey appData r.seconds with
  | none =>
      rw [rememberDestination_none hmerge]
      exact h
  | some entry =>
      cases hstore : k.store with
      | true => rw [rememberDestination_open hmerge hstore]
      | false => rw [rememberDestination_closed hmerge hstore]

/-- Only a known destination has nothing to write. -/
theorem isSome_of_mergeKnown (h : mergeKnown (k.map destinationHash) publicKey appData now = none) :
    (k.map destinationHash).isSome := by
  cases hmap : k.map destinationHash with
  | none =>
      rw [hmap] at h
      cases h
  | some existing => rfl

/-- An announce without application data keeps what is known, and none takes it away. -/
theorem appData_of_mergeKnown {existing : Option KnownDestination}
    (h : mergeKnown existing publicKey appData now = some entry) :
    entry.appData = if appData.isSome then appData else existing.bind KnownDestination.appData := by
  unfold mergeKnown at h
  cases existing with
  | none =>
      obtain rfl := Option.some.inj h
      cases appData <;> rfl
  | some existing =>
      dsimp only at h
      split at h
      · obtain rfl := Option.some.inj h
        rfl
      · cases h

theorem isSome_appData_of_mergeKnown {existing : Option KnownDestination}
    (h : mergeKnown existing publicKey appData now = some entry)
    (hsome : (existing.bind KnownDestination.appData).isSome) : entry.appData.isSome := by
  rw [appData_of_mergeKnown h]
  split
  · assumption
  · exact hsome

theorem toEntry_ofEntry_contents (entry : KnownDestination) :
    contents (KnownRow.ofEntry entry).toEntry = contents entry := rfl

/-! ## What was put -/

theorem lastPut_put_self (stored : Bool) :
    (k.put destinationHash entry stored).lastPut destinationHash = some (contents entry) := by
  simp [lastPut, KnownDestinations.put]

theorem lastPut_put_of_ne {other : Bytes} (h : other ≠ destinationHash) (stored : Bool) :
    (k.put destinationHash entry stored).lastPut other = k.lastPut other := by
  unfold lastPut KnownDestinations.put
  rw [List.find?_cons_of_neg (by simpa using h.symm)]

theorem lastStored_put_self (stored : Bool) :
    (k.put destinationHash entry stored).lastStored destinationHash =
      if stored then some (contents entry) else k.lastStored destinationHash := by
  unfold lastStored KnownDestinations.put
  cases stored with
  | true =>
      rw [List.find?_cons_of_pos (by simp)]
      rfl
  | false =>
      rw [List.find?_cons_of_neg (by simp)]
      rfl

theorem lastStored_put_of_ne {other : Bytes} (h : other ≠ destinationHash) (stored : Bool) :
    (k.put destinationHash entry stored).lastStored other = k.lastStored other := by
  unfold lastStored KnownDestinations.put
  rw [List.find?_cons_of_neg (by simp [h.symm])]

/-- While the store is open, the map has what was last put, the table what was last put with
effect, and no row has application data that the map has not. -/
structure Tracked (k : KnownDestinations) : Prop where
  map : ∀ hash, (k.map hash).map contents = k.lastPut hash
  table : ∀ hash, ((k.table hash).map fun row => contents row.toEntry) = k.lastStored hash
  appData : ∀ hash row, k.table hash = some row → row.appData.isSome →
    (k.recallAppData hash).isSome

theorem tracked_load (table : Table KnownRow) : Tracked (load table) where
  map hash := by
    change ((table hash).map KnownRow.toEntry).map contents = _
    rw [Option.map_map]
    rfl
  table hash := rfl
  appData hash row hrow hsome := by
    change ((((table hash).map KnownRow.toEntry).bind KnownDestination.appData).isSome : Prop)
    have hrow' : table hash = some row := hrow
    rw [hrow']
    exact hsome

theorem tracked_ensureLoaded (table : Table KnownRow) (opening : Opening)
    (h : (ensureLoaded table opening).store = true) : Tracked (ensureLoaded table opening) := by
  cases opening with
  | opened => exact tracked_load table
  | setAside => exact tracked_load fun _ => none
  | failed => cases h

theorem tracked_put (h : Tracked k)
    (hentry : mergeKnown (k.map destinationHash) publicKey appData now = some entry)
    (stored : Bool) :
    Tracked { k.put destinationHash entry stored with
      map := k.map.insert destinationHash entry } where
  map hash := by
    change (k.map.insert destinationHash entry hash).map contents =
      (k.put destinationHash entry stored).lastPut hash
    by_cases hne : hash = destinationHash
    · subst hne
      rw [Transport.Table.insert_self, lastPut_put_self]
      rfl
    · rw [Transport.Table.insert_of_ne _ hne, lastPut_put_of_ne hne]
      exact h.map hash
  table hash := by
    change (((k.put destinationHash entry stored).table hash).map fun row =>
      contents row.toEntry) = (k.put destinationHash entry stored).lastStored hash
    by_cases hne : hash = destinationHash
    · subst hne
      rw [lastStored_put_self, ← h.table hash]
      cases stored with
      | true => simp [KnownDestinations.put, toEntry_ofEntry_contents]
      | false => simp [KnownDestinations.put]
    · rw [lastStored_put_of_ne hne, ← h.table hash]
      cases stored with
      | true => simp [KnownDestinations.put, Transport.Table.insert_of_ne _ hne]
      | false => simp [KnownDestinations.put]
  appData hash row hrow hsome := by
    have hrow' : (k.put destinationHash entry stored).table hash = some row := hrow
    change ((k.map.insert destinationHash entry hash).bind KnownDestination.appData).isSome = true
    by_cases hne : hash = destinationHash
    · subst hne
      rw [Transport.Table.insert_self]
      cases stored with
      | true =>
          have hput : (k.put hash entry true).table hash = some (.ofEntry entry) :=
            Transport.Table.insert_self _ _ _
          rw [hput] at hrow'
          obtain rfl := Option.some.inj hrow'
          exact hsome
      | false => exact isSome_appData_of_mergeKnown hentry (h.appData hash row hrow' hsome)
    · rw [Transport.Table.insert_of_ne _ hne]
      refine h.appData hash row ?_ hsome
      cases stored with
      | true => exact (Transport.Table.insert_of_ne _ hne _).symm.trans hrow'
      | false => exact hrow'

theorem store_rememberDestination :
    (k.rememberDestination destinationHash publicKey appData now put).2.store = k.store := by
  unfold rememberDestination
  split
  · rfl
  · split <;> rfl

theorem tracked_rememberDestination (h : Tracked k) (hstore : k.store = true) :
    Tracked (k.rememberDestination destinationHash publicKey appData now put).2 := by
  cases hmerge : mergeKnown (k.map destinationHash) publicKey appData now with
  | none =>
      rw [rememberDestination_none hmerge]
      exact h
  | some entry =>
      rw [rememberDestination_open hmerge hstore]
      exact tracked_put h hmerge put.toBool

theorem tracked_step (h : k.store = true → Tracked k) (event : KnownEvent)
    (hstore : (k.step event).store = true) : Tracked (k.step event) := by
  cases event with
  | remember destinationHash publicKey appData now put =>
      have hopen : k.store = true := store_rememberDestination.symm.trans hstore
      exact tracked_rememberDestination (h hopen) hopen
  | restart opening => exact tracked_ensureLoaded k.table opening hstore

/-- In every run the map and the table are what was put. -/
theorem tracked_run (h : k.store = true → Tracked k) (events : List KnownEvent)
    (hstore : (k.run events).store = true) : Tracked (k.run events) := by
  induction events generalizing k with
  | nil => exact h hstore
  | cons event events ih => exact ih (fun hstep => tracked_step h event hstep) hstore

/-! ## What a call reports -/

/-- A row has what is recalled exactly when the destination is known and its puts are
settled. -/
theorem stored_iff (h : Tracked k) (hknown : (k.map destinationHash).isSome) :
    k.Stored destinationHash ↔ k.Settled destinationHash := by
  obtain ⟨entry, hentry⟩ := Option.isSome_iff_exists.mp hknown
  unfold Stored Settled recallPublicKey recallAppData
  rw [← h.map, ← h.table, hentry]
  cases k.table destinationHash with
  | none => exact ⟨fun ⟨_, hrow, _⟩ => (by cases hrow), fun heq => (by cases heq)⟩
  | some row =>
      constructor
      · rintro ⟨row', hrow, hkey, hdata⟩
        obtain rfl := Option.some.inj hrow
        exact congrArg some (Prod.ext (Option.some.inj hkey) hdata)
      · intro heq
        obtain ⟨hkey, hdata⟩ := Prod.mk.inj (Option.some.inj heq)
        exact ⟨row, rfl, congrArg some hkey, hdata⟩

/-- A call that returns `Ok` with the store open has its destination in the table, exactly
unless it finds nothing to write and the puts for it are not settled. -/
theorem reported_iff (h : k.store = true → Tracked k) :
    ((k.rememberDestination destinationHash publicKey appData now put).1 = .ok () →
      (k.rememberDestination destinationHash publicKey appData now put).2.store = true →
      (k.rememberDestination destinationHash publicKey appData now put).2.Stored
        destinationHash) ↔
    (k.store = true → mergeKnown (k.map destinationHash) publicKey appData now = none →
      k.Settled destinationHash) := by
  cases hmerge : mergeKnown (k.map destinationHash) publicKey appData now with
  | none =>
      rw [rememberDestination_none hmerge]
      have hknown := isSome_of_mergeKnown hmerge
      exact ⟨fun hreport hstore _ => (stored_iff (h hstore) hknown).mp (hreport rfl hstore),
        fun hsettled _ hstore => (stored_iff (h hstore) hknown).mpr (hsettled hstore rfl)⟩
  | some entry =>
      refine ⟨fun _ _ hnone => (by cases hnone), fun _ hok hstore => ?_⟩
      rw [store_rememberDestination] at hstore
      rw [rememberDestination_open hmerge hstore] at hok ⊢
      obtain rfl : put = .ok () := hok
      exact ⟨.ofEntry entry, Transport.Table.insert_self _ _ _,
        congrArg (Option.map KnownDestination.publicKey) (Transport.Table.insert_self _ _ _),
        congrArg (Option.bind · KnownDestination.appData) (Transport.Table.insert_self _ _ _)⟩

/-- What a row has is recalled after a restart. -/
theorem recall_restart (h : k.Stored destinationHash) :
    (k.step (.restart .opened)).recallPublicKey destinationHash =
        k.recallPublicKey destinationHash ∧
      (k.step (.restart .opened)).recallAppData destinationHash =
        k.recallAppData destinationHash := by
  obtain ⟨row, hrow, hkey, hdata⟩ := h
  rw [hkey, hdata]
  constructor
  · change ((k.table destinationHash).map KnownRow.toEntry).map KnownDestination.publicKey = _
    rw [hrow]
    rfl
  · change ((k.table destinationHash).map KnownRow.toEntry).bind KnownDestination.appData = _
    rw [hrow]
    rfl

/-- An announce without application data leaves that of every destination as it is. -/
theorem recallAppData_rememberDestination (hash : Bytes) :
    (k.rememberDestination destinationHash publicKey none now put).2.recallAppData hash =
      k.recallAppData hash := by
  cases hmerge : mergeKnown (k.map destinationHash) publicKey none now with
  | none => rw [rememberDestination_none hmerge]
  | some entry =>
      have hmap : (k.rememberDestination destinationHash publicKey none now put).2.map =
          k.map.insert destinationHash entry := by
        simp only [rememberDestination, hmerge]
        split <;> rfl
      unfold recallAppData
      rw [hmap]
      by_cases hne : hash = destinationHash
      · subst hne
        rw [Transport.Table.insert_self]
        exact appData_of_mergeKnown hmerge
      · rw [Transport.Table.insert_of_ne _ hne]

/-- A row that has application data goes on having some. -/
theorem appData_table (h : k.store = true → Tracked k) {hash : Bytes} {row : KnownRow}
    (hrow : k.table hash = some row) (hsome : row.appData.isSome) :
    ∃ row', (k.rememberDestination destinationHash publicKey appData now put).2.table hash =
      some row' ∧ row'.appData.isSome := by
  cases hmerge : mergeKnown (k.map destinationHash) publicKey appData now with
  | none =>
      rw [rememberDestination_none hmerge]
      exact ⟨row, hrow, hsome⟩
  | some entry =>
      cases hstore : k.store with
      | false =>
          rw [rememberDestination_closed hmerge hstore]
          exact ⟨row, hrow, hsome⟩
      | true =>
          rw [rememberDestination_open hmerge hstore]
          change ∃ row', (k.put destinationHash entry put.toBool).table hash = some row' ∧ _
          unfold KnownDestinations.put
          cases put.toBool with
          | false => exact ⟨row, hrow, hsome⟩
          | true =>
              by_cases hne : hash = destinationHash
              · subst hne
                exact ⟨.ofEntry entry, Transport.Table.insert_self _ _ _,
                  isSome_appData_of_mergeKnown hmerge ((h hstore).appData hash row hrow hsome)⟩
              · exact ⟨row, (Transport.Table.insert_of_ne _ hne _).trans hrow, hsome⟩

/-- After any calls and restarts, a call that returns `Ok` with the store open has its
destination in the table, so that a restart recalls it, exactly unless it finds nothing to write
and what was last put for its destination did not get there. Application data is not removed by
an announce without any, neither from memory nor from the table. -/
theorem remember_run (table : Table KnownRow) (opening : Opening) (events : List KnownEvent)
    (destinationHash publicKey : Bytes) (appData : Option Bytes) (now : Nat)
    (put : Except String Unit) :
    let k := (ensureLoaded table opening).run events
    let after := k.rememberDestination destinationHash publicKey appData now put
    ((after.1 = .ok () → after.2.store = true →
        after.2.Stored destinationHash ∧
        (after.2.step (.restart .opened)).recallPublicKey destinationHash =
          after.2.recallPublicKey destinationHash ∧
        (after.2.step (.restart .opened)).recallAppData destinationHash =
          after.2.recallAppData destinationHash) ↔
      (k.store = true → mergeKnown (k.map destinationHash) publicKey appData now = none →
        k.Settled destinationHash)) ∧
    (appData = none → ∀ hash, after.2.recallAppData hash = k.recallAppData hash) ∧
    ∀ hash row, k.table hash = some row → row.appData.isSome →
      ∃ row', after.2.table hash = some row' ∧ row'.appData.isSome := by
  dsimp only
  have htracked : ((ensureLoaded table opening).run events).store = true →
      Tracked ((ensureLoaded table opening).run events) :=
    tracked_run (tracked_ensureLoaded table opening) events
  refine ⟨?_, ?_, ?_⟩
  · rw [← reported_iff htracked]
    constructor
    · intro h hok hstore
      exact (h hok hstore).1
    · intro h hok hstore
      exact ⟨h hok hstore, recall_restart (h hok hstore)⟩
  · rintro rfl hash
    exact recallAppData_rememberDestination hash
  · intro hash row hrow hsome
    exact appData_table htracked hrow hsome

/-- A put that fails, and the same announce again: the call returns `Ok`, the destination is
recalled, the table has no row for it, and a restart forgets it. -/
theorem remember_run_false :
    let k := (ensureLoaded (fun _ => none) .opened).run
      [.remember [1] [2] (some [3]) 100 (.error "database is locked")]
    let after := k.rememberDestination [1] [2] (some [3]) 110 (.ok ())
    after.1 = .ok () ∧ after.2.store = true ∧ after.2.recallPublicKey [1] = some [2] ∧
      after.2.table [1] = none ∧ ¬ after.2.Stored [1] ∧
      (after.2.step (.restart .opened)).recallPublicKey [1] = none := by
  refine ⟨rfl, rfl, rfl, rfl, ?_, rfl⟩
  rintro ⟨row, hrow, -⟩
  cases hrow

end KnownDestinations

end Reticulum
