import Mathlib.Algebra.Order.Field.Rat
import Mathlib.Tactic.NormNum
import Reticulum.Lib.Coalesce
import Reticulum.Lib.FirstMin
import Reticulum.Transport.PathRequest

/-!
# The announce cap of an interface

Announces that are passed on may use a share of the bitrate of an interface
(`src/transport.rs`): `admit_announce` lets one out or queues it, `next_queued_announce`
releases one, and `request_path_recursive` uses the same window for a path request.
`announceCap_run` says what holds of an interface after any of these calls.

## Implementation notes

`request_path_recursive` is given as far as it reads and writes the interface. A call
returns the announce that it lets out. `Capped` notes what was let out, and what was
offered for each destination since it is in the queue.
-/

namespace Reticulum.Transport

def maxQueuedAnnounces : Nat := 4096

def queuedAnnounceLife : ℚ := 60 * 60 * 3

structure AnnounceQueueEntry where
  destination : Bytes
  time : ℚ
  hops : UInt8
  emitted : Nat
  raw : Bytes
  deriving DecidableEq

/-- `InterfaceStub` with its announce cap. -/
structure CappedInterface where
  bitrate : Option ℚ
  announceCap : ℚ
  announceAllowedAt : ℚ
  announceQueue : List AnnounceQueueEntry
  deriving DecidableEq

namespace CappedInterface

section

variable (i : CappedInterface)

/-- The share of the bitrate: `announce_cap`, or `ANNOUNCE_CAP` in percent. -/
def share : ℚ := if 0 < i.announceCap then i.announceCap else 2 / 100

def announceAirtimeCost (rawLen : Nat) (bitrate : ℚ) : ℚ :=
  ((rawLen * 8 : Nat) : ℚ) / bitrate / i.share

/-- `admit_announce`: whether an announce leaves now. -/
def admitAnnounce (e : AnnounceQueueEntry) : Bool × CappedInterface :=
  match i.bitrate.filter (0 < ·) with
  | none => (true, i)
  | some bitrate =>
      if i.announceQueue.isEmpty ∧ i.announceAllowedAt < e.time then
        (true, { i with
          announceAllowedAt := e.time + i.announceAirtimeCost e.raw.length bitrate })
      else
        match i.announceQueue.findIdx? fun existing => existing.destination == e.destination with
        | some k => (false, { i with
            announceQueue := i.announceQueue.modify k fun existing =>
              if existing.emitted < e.emitted then
                { existing with time := e.time, hops := e.hops, emitted := e.emitted, raw := e.raw }
              else existing })
        | none =>
            if i.announceQueue.length < maxQueuedAnnounces then
              (false, { i with announceQueue := i.announceQueue ++ [e] })
            else (false, i)

/-- The entry that is released, with its index: among those with the fewest hops the first of the
oldest. -/
def selectQueued (queue : List AnnounceQueueEntry) : Option (AnnounceQueueEntry × Nat) :=
  (queue.map fun e => e.hops.toNat).min?.bind fun minHops =>
    FirstMin.firstMin (fun x => x.1.time)
      (queue.zipIdx.filter fun x => x.1.hops.toNat == minHops)

/-- The entries that are not too old. -/
def retained (now : ℚ) : List AnnounceQueueEntry :=
  i.announceQueue.filter fun e => now ≤ e.time + queuedAnnounceLife

/-- `next_queued_announce`: the announce that leaves now. -/
def nextQueuedAnnounce (now : ℚ) : Option Bytes × CappedInterface :=
  let i := { i with announceQueue := i.retained now }
  if i.announceQueue.isEmpty ∨ now < i.announceAllowedAt then (none, i)
  else
    match i.bitrate.filter (0 < ·), selectQueued i.announceQueue with
    | some bitrate, some (selected, index) => (some selected.raw, { i with
        announceQueue := i.announceQueue.eraseIdx index
        announceAllowedAt := now + i.announceAirtimeCost selected.raw.length bitrate })
    | _, _ => (none, i)

/-- `request_path_recursive`: whether a request with so many bytes of data leaves. -/
def requestPathRecursive (dataLen : Nat) (now : ℚ) :
    Bool × CappedInterface :=
  if i.announceQueue ≠ [] ∨ now < i.announceAllowedAt then (false, i)
  else
    (true, { i with
      announceAllowedAt := match i.bitrate.filter (0 < ·) with
        | none => i.announceAllowedAt
        | some bitrate =>
            now + ((dataLen + headerMinSize) * 8 : Nat) / bitrate / i.share })

def dropAnnounceQueues : CappedInterface := { i with announceQueue := [] }

end

end CappedInterface

/-- A call on an interface. -/
inductive CapCall
  | admitAnnounce (e : AnnounceQueueEntry)
  | nextQueuedAnnounce (now : ℚ)
  | requestPathRecursive (dataLen : Nat) (now : ℚ)
  | dropAnnounceQueues

namespace CappedInterface

/-- What a call lets out, with the time, and the interface after it. -/
def call (i : CappedInterface) : CapCall → Option (ℚ × Bytes) × CappedInterface
  | .admitAnnounce e =>
      let (leaves, i) := i.admitAnnounce e
      (if leaves then some (e.time, e.raw) else none, i)
  | .nextQueuedAnnounce now =>
      let (released, i) := i.nextQueuedAnnounce now
      (released.map fun raw => (now, raw), i)
  | .requestPathRecursive dataLen now => (none, (i.requestPathRecursive dataLen now).2)
  | .dropAnnounceQueues => (none, i.dropAnnounceQueues)

end CappedInterface

/-- What a call offers for a destination. -/
def CapCall.offered (destination : Bytes) : CapCall → List AnnounceQueueEntry
  | .admitAnnounce e => if e.destination = destination then [e] else []
  | _ => []

/-- An interface, what it let out, and what was offered for each destination since it is in the
queue. -/
structure Capped where
  interface : CappedInterface
  left : List (ℚ × Bytes)
  offers : Bytes → List AnnounceQueueEntry

namespace Capped

/-- An interface on which nothing waits. -/
def start (i : CappedInterface) : Capped :=
  { interface := { i with announceQueue := [] }, left := [], offers := fun _ => [] }

/-- One call. -/
def step (s : Capped) (call : CapCall) : Capped :=
  let (out, i) := s.interface.call call
  { interface := i
    left := s.left ++ out.toList
    offers := fun destination =>
      if destination ∈ i.announceQueue.map (·.destination) then
        s.offers destination ++ call.offered destination
      else [] }

/-- The calls of a run. -/
def run (i : CappedInterface) (calls : List CapCall) : Capped := calls.foldl step (start i)

end Capped

/-- The newest of the announces that were offered; of two emissions as new the earlier one. -/
structure AnnounceQueueEntry.Newest (e : AnnounceQueueEntry) (offers : List AnnounceQueueEntry) :
    Prop where
  mem : e ∈ offers
  le : ∀ o ∈ offers, o.emitted ≤ e.emitted

/-- What holds of an interface with this bitrate and share after any calls. -/
structure KeepsCap (bitrate share : ℚ) (s : Capped) : Prop where
  apart : s.left.Pairwise fun a b => a.1 + 8 * a.2.length / (bitrate * share) ≤ b.1
  oneEach : (s.interface.announceQueue.map (·.destination)).Nodup
  bounded : s.interface.announceQueue.length ≤ maxQueuedAnnounces
  newest : ∀ e ∈ s.interface.announceQueue, e.Newest (s.offers e.destination)

/-- An entry is released, ahead of all those that are not too old. -/
structure CappedInterface.Releases (i : CappedInterface) (now : ℚ) (e : AnnounceQueueEntry)
    (raw : Bytes) (after : List AnnounceQueueEntry) : Prop where
  raw : raw = e.raw
  rest : (e :: after).Perm (i.retained now)
  fewestHops : ∀ other ∈ i.retained now, e.hops ≤ other.hops
  oldest : ∀ other ∈ i.retained now, other.hops = e.hops → e.time ≤ other.time

/-- How the entries of the queue fare in a call: each one stays, perhaps as a newer announce of
its destination, or is released, is too old, or is dropped with the queue. What is released
goes ahead of the others. -/
structure CappedInterface.Fair (i : CappedInterface) (call : CapCall) : Prop where
  leaves : ∀ e ∈ i.announceQueue,
    (∃ e' ∈ (i.call call).2.announceQueue, e'.destination = e.destination ∧
      (e' = e ∨ e.emitted < e'.emitted)) ∨
    (∃ now, call = .nextQueuedAnnounce now ∧ (i.call call).1 = some (now, e.raw) ∧
      i.Releases now e e.raw (i.call call).2.announceQueue) ∨
    (∃ now, call = .nextQueuedAnnounce now ∧ e.time + queuedAnnounceLife < now) ∨
    call = .dropAnnounceQueues
  releases : ∀ now raw, call = .nextQueuedAnnounce now → (i.call call).1 = some (now, raw) →
    ∃ e ∈ i.announceQueue, i.Releases now e raw (i.call call).2.announceQueue

/-! ## The calls -/

/-- An announce that is queued takes the place of an older emission of its destination. -/
def AnnounceQueueEntry.newer (existing e : AnnounceQueueEntry) : AnnounceQueueEntry :=
  if existing.emitted < e.emitted then
    { existing with time := e.time, hops := e.hops, emitted := e.emitted, raw := e.raw }
  else existing

theorem AnnounceQueueEntry.destination_newer (existing e : AnnounceQueueEntry) :
    (existing.newer e).destination = existing.destination := by
  unfold newer
  split <;> rfl

theorem AnnounceQueueEntry.newer_cases {existing e : AnnounceQueueEntry}
    (h : existing.destination = e.destination) :
    (existing.emitted < e.emitted ∧ existing.newer e = e) ∨
      (e.emitted ≤ existing.emitted ∧ existing.newer e = existing) := by
  unfold newer
  split
  · rename_i hlt
    exact .inl ⟨hlt, by rw [h]⟩
  · rename_i hle
    exact .inr ⟨not_lt.mp hle, rfl⟩

variable {e : AnnounceQueueEntry}

namespace CappedInterface

variable {i : CappedInterface}

/-- The queue with an announce put in, if there is room. -/
def queued (i : CappedInterface) (e : AnnounceQueueEntry) : List AnnounceQueueEntry :=
  if e.destination ∈ i.announceQueue.map (·.destination) ∨
      i.announceQueue.length < maxQueuedAnnounces then
    Coalesce.offer AnnounceQueueEntry.destination AnnounceQueueEntry.newer i.announceQueue e
  else i.announceQueue

theorem announceAirtimeCost_eq (rawLen : Nat) (bitrate : ℚ) :
    i.announceAirtimeCost rawLen bitrate = 8 * rawLen / (bitrate * i.share) := by
  rw [announceAirtimeCost, div_div]
  push_cast
  rw [mul_comm]

theorem share_pos (i : CappedInterface) : 0 < i.share := by
  unfold share
  split
  · assumption
  · norm_num

/-- An announce leaves when nothing waits and the window has passed, and is queued otherwise. -/
theorem admitAnnounce_eq {bitrate : ℚ} (hbitrate : i.bitrate = some bitrate) (hpos : 0 < bitrate)
    (e : AnnounceQueueEntry) : i.admitAnnounce e =
      if i.announceQueue = [] ∧ i.announceAllowedAt < e.time then
        (true, { i with
          announceAllowedAt := e.time + i.announceAirtimeCost e.raw.length bitrate })
      else (false, { i with announceQueue := i.queued e }) := by
  have hmatch : ∀ existing : AnnounceQueueEntry,
      (existing.destination == e.destination) = true ↔ existing.destination = e.destination :=
    fun _ => beq_iff_eq
  have hfilter : i.bitrate.filter (fun b => decide (0 < b)) = some bitrate := by
    simp [hbitrate, hpos]
  unfold admitAnnounce
  simp only [hfilter, List.isEmpty_iff]
  split
  · rfl
  · unfold queued
    cases hfind : i.announceQueue.findIdx? fun existing =>
        existing.destination == e.destination with
    | none =>
        have hnot : e.destination ∉ i.announceQueue.map (·.destination) := by
          intro hmem
          obtain ⟨existing, hexisting, heq⟩ := List.mem_map.mp hmem
          have hno := List.findIdx?_eq_none_iff.mp hfind existing hexisting
          rw [(hmatch existing).mpr heq] at hno
          cases hno
        simp only [hnot, false_or]
        split
        · rw [← Coalesce.append_eq_offer hmatch hfind]
        · rfl
    | some k =>
        have hmem : e.destination ∈ i.announceQueue.map (·.destination) := by
          obtain ⟨hk, hkey, -⟩ := List.findIdx?_eq_some_iff_getElem.mp hfind
          exact List.mem_map.mpr ⟨_, List.getElem_mem hk, (hmatch _).mp hkey⟩
        rw [if_pos (Or.inl hmem), ← Coalesce.modify_eq_offer hmatch hfind]
        rfl

theorem mem_of_selectQueued {queue : List AnnounceQueueEntry} {index : Nat}
    (h : selectQueued queue = some (e, index)) : queue[index]? = some e := by
  obtain ⟨minHops, -, hscan⟩ := Option.bind_eq_some_iff.mp h
  have hmem := (FirstMin.isFirst_of_firstMin hscan).mem
  exact List.mk_mem_zipIdx_iff_getElem?.mp (List.mem_filter.mp hmem).1

/-- What is selected has the fewest hops, and is the oldest among those. -/
theorem least_of_selectQueued {queue : List AnnounceQueueEntry} {index : Nat}
    (h : selectQueued queue = some (e, index)) {other : AnnounceQueueEntry}
    (hother : other ∈ queue) :
    e.hops ≤ other.hops ∧ (other.hops = e.hops → e.time ≤ other.time) := by
  obtain ⟨minHops, hmin, hscan⟩ := Option.bind_eq_some_iff.mp h
  have hfirst := FirstMin.isFirst_of_firstMin hscan
  have hhops : e.hops.toNat = minHops := by simpa using (List.mem_filter.mp hfirst.mem).2
  have hle := (List.min?_eq_some_iff.mp hmin).2
  refine ⟨?_, fun hsame => ?_⟩
  · rw [UInt8.le_iff_toNat_le, hhops]
    exact hle _ (List.mem_map_of_mem hother)
  · obtain ⟨k, hk, hget⟩ := List.getElem_of_mem hother
    have hmem : (other, k) ∈ queue.zipIdx.filter fun x => x.1.hops.toNat == minHops := by
      refine List.mem_filter.mpr ⟨List.mk_mem_zipIdx_iff_getElem?.mpr ?_, ?_⟩
      · rw [List.getElem?_eq_getElem hk, hget]
      · simpa [hsame] using hhops
    exact hfirst.le hmem

/-- The calls of `next_queued_announce`: nothing is released, or the entry that is selected. -/
theorem nextQueuedAnnounce_cases (i : CappedInterface) (now : ℚ) :
    i.nextQueuedAnnounce now = (none, { i with announceQueue := i.retained now }) ∨
    ∃ bitrate e index, i.bitrate = some bitrate ∧ 0 < bitrate ∧ i.announceAllowedAt ≤ now ∧
      selectQueued (i.retained now) = some (e, index) ∧
      i.nextQueuedAnnounce now = (some e.raw, { i with
        announceQueue := (i.retained now).eraseIdx index
        announceAllowedAt := now + i.announceAirtimeCost e.raw.length bitrate }) := by
  unfold nextQueuedAnnounce
  dsimp only
  split
  · exact .inl rfl
  · rename_i hopen
    rw [not_or, not_lt] at hopen
    split
    · rename_i bitrate e index hbitrate hselect
      obtain ⟨hbitrate, hpos⟩ := Option.filter_eq_some_iff.mp hbitrate
      exact .inr ⟨bitrate, e, index, hbitrate, by simpa using hpos, hopen.2, hselect, rfl⟩
    · exact .inl rfl

/-- What is selected is released. -/
theorem releases_of_selectQueued {now : ℚ} {index : Nat}
    (h : selectQueued (i.retained now) = some (e, index)) :
    i.Releases now e e.raw ((i.retained now).eraseIdx index) where
  raw := rfl
  rest := by
    obtain ⟨hindex, hget⟩ := List.getElem?_eq_some_iff.mp (mem_of_selectQueued h)
    rw [← hget]
    exact List.getElem_cons_eraseIdx_perm hindex
  fewestHops := fun _ hother => (least_of_selectQueued h hother).1
  oldest := fun _ hother => (least_of_selectQueued h hother).2

/-- An entry of the queue stays when an announce is put in, perhaps as that announce. -/
theorem stays_of_queued {e e' : AnnounceQueueEntry} (he : e ∈ i.announceQueue) :
    ∃ x ∈ i.queued e', x.destination = e.destination ∧ (x = e ∨ e.emitted < x.emitted) := by
  have hstays : ∀ queue, queue = i.announceQueue → e ∈ queue →
      ∃ x ∈ queue, x.destination = e.destination ∧ (x = e ∨ e.emitted < x.emitted) :=
    fun _ _ hmem => ⟨e, hmem, rfl, .inl rfl⟩
  unfold queued
  split
  · by_cases hmem : e'.destination ∈ i.announceQueue.map (·.destination)
    · obtain ⟨as, c, bs, hsplit, hc, hoffer⟩ :=
        Coalesce.offer_of_mem AnnounceQueueEntry.newer hmem
      rw [hoffer]
      rw [hsplit, List.mem_append, List.mem_cons] at he
      rcases he with he | rfl | he
      · exact ⟨e, by simp [he], rfl, .inl rfl⟩
      · rcases AnnounceQueueEntry.newer_cases hc with ⟨hlt, heq⟩ | ⟨-, heq⟩
        · exact ⟨e', by simp [heq], hc.symm, .inr hlt⟩
        · exact ⟨e, by simp [heq], rfl, .inl rfl⟩
      · exact ⟨e, by simp [he], rfl, .inl rfl⟩
    · rw [Coalesce.offer_of_not_mem hmem]
      exact ⟨e, List.mem_append_left _ he, rfl, .inl rfl⟩
  · exact hstays _ rfl he

/-- An entry that is not too old stays or is released. -/
theorem fair_nextQueuedAnnounce (i : CappedInterface) (now : ℚ) :
    i.Fair (.nextQueuedAnnounce now) := by
  rcases i.nextQueuedAnnounce_cases now with hnone |
    ⟨bitrate, selected, index, -, -, -, hselect, hsome⟩
  · refine ⟨fun e he => ?_, fun t raw _ hout => ?_⟩
    · by_cases hage : now ≤ e.time + queuedAnnounceLife
      · refine .inl ⟨e, ?_, rfl, .inl rfl⟩
        rw [call, hnone]
        exact List.mem_filter.mpr ⟨he, by simpa using hage⟩
      · exact .inr (.inr (.inl ⟨now, rfl, not_le.mp hage⟩))
    · rw [call, hnone] at hout
      cases hout
  · have hreleases := releases_of_selectQueued hselect
    refine ⟨fun e he => ?_, fun t raw heq hout => ?_⟩
    · by_cases hage : now ≤ e.time + queuedAnnounceLife
      · have hretained : e ∈ i.retained now := List.mem_filter.mpr ⟨he, by simpa using hage⟩
        rcases List.mem_cons.mp (hreleases.rest.mem_iff.mpr hretained) with rfl | hrest
        · refine .inr (.inl ⟨now, rfl, ?_, ?_⟩)
          · rw [call, hsome]
            rfl
          · rw [call, hsome]
            exact hreleases
        · refine .inl ⟨e, ?_, rfl, .inl rfl⟩
          rw [call, hsome]
          exact hrest
      · exact .inr (.inr (.inl ⟨now, rfl, not_le.mp hage⟩))
    · cases heq
      rw [call, hsome] at hout
      obtain rfl : selected.raw = raw := congrArg Prod.snd (Option.some.inj hout)
      have hmem : selected ∈ i.retained now := hreleases.rest.mem_iff.mp List.mem_cons_self
      rw [call, hsome]
      exact ⟨selected, List.mem_of_mem_filter hmem, hreleases⟩

/-- Entries leave the queue only by release, by age and by dropping. -/
theorem fair (i : CappedInterface) (c : CapCall) : i.Fair c := by
  cases c with
  | admitAnnounce e =>
      refine ⟨fun other hother => .inl ?_, fun now raw h => by cases h⟩
      cases hfilter : i.bitrate.filter (0 < ·) with
      | none =>
          refine ⟨other, ?_, rfl, .inl rfl⟩
          simp only [call, admitAnnounce, hfilter]
          exact hother
      | some bitrate =>
          obtain ⟨hbitrate, hpos⟩ := Option.filter_eq_some_iff.mp hfilter
          simp only [call, admitAnnounce_eq hbitrate (by simpa using hpos)]
          split
          · exact ⟨other, hother, rfl, .inl rfl⟩
          · exact stays_of_queued hother
  | nextQueuedAnnounce now => exact i.fair_nextQueuedAnnounce now
  | requestPathRecursive dataLen now =>
      refine ⟨fun e he => .inl ⟨e, ?_, rfl, .inl rfl⟩, fun now raw h => by cases h⟩
      simp only [call, requestPathRecursive]
      split <;> exact he
  | dropAnnounceQueues =>
      exact ⟨fun _ _ => .inr (.inr (.inr rfl)), fun now raw h => by cases h⟩

end CappedInterface

/-! ## What the calls keep -/

namespace Capped

/-- `KeepsCap`, with what the window and the queue say of what left and what was offered. -/
structure Kept (bitrate share : ℚ) (s : Capped) : Prop extends KeepsCap bitrate share s where
  hasBitrate : s.interface.bitrate = some bitrate
  hasShare : s.interface.share = share
  window : ∀ a ∈ s.left, a.1 + 8 * a.2.length / (bitrate * share) ≤ s.interface.announceAllowedAt
  unqueued : ∀ destination, destination ∉ s.interface.announceQueue.map (·.destination) →
    s.offers destination = []

variable {bitrate share : ℚ} {s : Capped}

theorem kept_start {i : CappedInterface} (hbitrate : i.bitrate = some bitrate) :
    (start i).Kept bitrate i.share where
  apart := .nil
  oneEach := .nil
  bounded := Nat.zero_le _
  newest := fun _ h => absurd h List.not_mem_nil
  hasBitrate := hbitrate
  hasShare := rfl
  window := fun _ h => absurd h List.not_mem_nil
  unqueued := fun _ _ => rfl

theorem share_pos_of_kept (h : s.Kept bitrate share) : 0 < share :=
  h.hasShare ▸ s.interface.share_pos

/-- The airtime of an announce is not negative. -/
theorem airtime_nonneg (h : s.Kept bitrate share) (hpos : 0 < bitrate) (raw : Bytes) :
    0 ≤ (8 * raw.length / (bitrate * share) : ℚ) := by
  exact div_nonneg (mul_nonneg (by norm_num) (Nat.cast_nonneg _))
    (mul_pos hpos (share_pos_of_kept h)).le

/-- What a call lets out, and how long the window stays closed: for the airtime of an announce
that leaves in an open window. -/
inductive Lets (bitrate share : ℚ) (before after : CappedInterface) : Option (ℚ × Bytes) → Prop
  | nothing (h : before.announceAllowedAt ≤ after.announceAllowedAt) : Lets bitrate share before after none
  | announce (now : ℚ) (raw : Bytes) (hopen : before.announceAllowedAt ≤ now)
      (h : after.announceAllowedAt = now + 8 * raw.length / (bitrate * share)) :
      Lets bitrate share before after (some (now, raw))

/-- What leaves keeps its distance from what left before. -/
theorem Kept.window_lets (h : s.Kept bitrate share) (hpos : 0 < bitrate) {i : CappedInterface}
    {out : Option (ℚ × Bytes)} (hlets : Lets bitrate share s.interface i out) :
    (s.left ++ out.toList).Pairwise (fun a b => a.1 + 8 * a.2.length / (bitrate * share) ≤ b.1) ∧
      ∀ a ∈ s.left ++ out.toList,
        a.1 + 8 * a.2.length / (bitrate * share) ≤ i.announceAllowedAt := by
  cases hlets with
  | nothing hle =>
      rw [Option.toList_none, List.append_nil]
      exact ⟨h.apart, fun a ha => (h.window a ha).trans hle⟩
  | announce now raw hopen heq =>
      rw [Option.toList_some]
      refine ⟨Coalesce.pairwise_concat h.apart fun a ha => (h.window a ha).trans hopen, ?_⟩
      intro a ha
      rcases List.mem_append.mp ha with ha | ha
      · rw [heq]
        exact ((h.window a ha).trans hopen).trans
          (le_add_of_nonneg_right (airtime_nonneg h hpos raw))
      · obtain rfl := List.mem_singleton.mp ha
        exact heq.ge

/-- A call after which the queue is a part of what it was. -/
theorem Kept.shrinks (h : s.Kept bitrate share) (hpos : 0 < bitrate) {call : CapCall}
    {i : CappedInterface} {out : Option (ℚ × Bytes)} (hcall : s.interface.call call = (out, i))
    (hbitrate : i.bitrate = s.interface.bitrate) (hcap : i.announceCap = s.interface.announceCap)
    (hqueue : i.announceQueue.Sublist s.interface.announceQueue)
    (hoffered : ∀ e ∈ i.announceQueue, call.offered e.destination = [])
    (hlets : Lets bitrate share s.interface i out) : (s.step call).Kept bitrate share := by
  obtain ⟨hapart, hwindow⟩ := h.window_lets hpos hlets
  have hshare : i.share = s.interface.share := by rw [CappedInterface.share, hcap]; rfl
  rw [step, hcall]
  refine
    { apart := hapart
      oneEach := h.oneEach.sublist (hqueue.map _)
      bounded := hqueue.length_le.trans h.bounded
      newest := fun e he => ?_
      hasBitrate := hbitrate.trans h.hasBitrate
      hasShare := hshare.trans h.hasShare
      window := hwindow
      unqueued := fun destination hnot => if_neg hnot }
  dsimp only
  rw [if_pos (List.mem_map_of_mem he), hoffered e he, List.append_nil]
  exact h.newest e (hqueue.subset he)

/-- The entry of a destination after another announce of it is offered. -/
theorem newest_newer {c e : AnnounceQueueEntry} {offers : Bytes → List AnnounceQueueEntry}
    (hc : c.destination = e.destination) (h : c.Newest (offers c.destination)) :
    (c.newer e).Newest (offers (c.newer e).destination ++
      (CapCall.admitAnnounce e).offered (c.newer e).destination) := by
  rw [c.destination_newer e, CapCall.offered, if_pos hc.symm]
  rcases AnnounceQueueEntry.newer_cases hc with ⟨hlt, heq⟩ | ⟨hle, heq⟩
  · rw [heq]
    refine ⟨by simp, fun o ho => ?_⟩
    rcases List.mem_append.mp ho with ho | ho
    · exact (h.le o ho).trans hlt.le
    · exact List.mem_singleton.mp ho ▸ le_rfl
  · rw [heq]
    refine ⟨List.mem_append_left _ h.mem, fun o ho => ?_⟩
    rcases List.mem_append.mp ho with ho | ho
    · exact h.le o ho
    · exact List.mem_singleton.mp ho ▸ hle

/-- An announce is put into the queue. -/
theorem Kept.queued (h : s.Kept bitrate share)
    (hcall : s.interface.call (.admitAnnounce e) =
      (none, { s.interface with announceQueue := s.interface.queued e })) :
    (s.step (.admitAnnounce e)).Kept bitrate share := by
  have hkeys : ∀ b : AnnounceQueueEntry, (b.newer e).destination = b.destination :=
    fun b => b.destination_newer e
  have hone : ((s.interface.queued e).map (·.destination)).Nodup := by
    unfold CappedInterface.queued
    split
    · exact Coalesce.keys_offer hkeys h.oneEach
    · exact h.oneEach
  have hroom : (s.interface.queued e).length ≤ maxQueuedAnnounces := by
    unfold CappedInterface.queued
    split
    · rename_i hroom
      by_cases hmem : e.destination ∈ s.interface.announceQueue.map (·.destination)
      · rw [Coalesce.length_offer_of_mem hmem]
        exact h.bounded
      · rw [Coalesce.offer_of_not_mem hmem, List.length_append]
        exact hroom.resolve_left hmem
    · exact h.bounded
  have hnewest : ∀ x ∈ s.interface.queued e,
      x.Newest (s.offers x.destination ++ (CapCall.admitAnnounce e).offered x.destination) := by
    -- An entry of another destination: nothing is offered for it.
    have hother : ∀ x ∈ s.interface.announceQueue, x.destination ≠ e.destination →
        x.Newest (s.offers x.destination ++
          (CapCall.admitAnnounce e).offered x.destination) := by
      intro x hx hne
      rw [CapCall.offered, if_neg hne.symm, List.append_nil]
      exact h.newest x hx
    intro x hx
    unfold CappedInterface.queued at hx
    by_cases hmem : e.destination ∈ s.interface.announceQueue.map (·.destination)
    · rw [if_pos (Or.inl hmem)] at hx
      obtain ⟨as, c, bs, hsplit, hc, hoffer⟩ :=
        Coalesce.offer_of_mem AnnounceQueueEntry.newer hmem
      have hcmem : c ∈ s.interface.announceQueue := by simp [hsplit]
      have hone := h.oneEach
      rw [hsplit, List.map_append, List.map_cons, List.nodup_middle, List.nodup_cons, hc] at hone
      have hne : ∀ y ∈ as ++ bs, y.destination ≠ e.destination := fun y hy heq =>
        hone.1 (by rw [← List.map_append]; exact List.mem_map.mpr ⟨y, hy, heq⟩)
      rw [hoffer, List.mem_append, List.mem_cons] at hx
      rcases hx with hx | rfl | hx
      · exact hother x (by simp [hsplit, hx]) (hne x (List.mem_append_left _ hx))
      · exact newest_newer hc (h.newest c hcmem)
      · exact hother x (by simp [hsplit, hx]) (hne x (List.mem_append_right _ hx))
    · have hne : ∀ y ∈ s.interface.announceQueue, y.destination ≠ e.destination :=
        fun y hy heq => hmem (List.mem_map.mpr ⟨y, hy, heq⟩)
      have hin : x ∈ s.interface.announceQueue ++ [e] := by
        split at hx
        · rwa [Coalesce.offer_of_not_mem hmem] at hx
        · exact List.mem_append_left _ hx
      rcases List.mem_append.mp hin with hin | hin
      · exact hother x hin (hne x hin)
      · obtain rfl := List.mem_singleton.mp hin
        rw [h.unqueued _ hmem, CapCall.offered, if_pos rfl]
        exact ⟨by simp, by simp⟩
  rw [step, hcall]
  refine
    { apart := ?_, oneEach := hone, bounded := hroom
      newest := fun x hx => ?_
      hasBitrate := h.hasBitrate, hasShare := h.hasShare
      window := ?_
      unqueued := fun destination hnot => if_neg hnot }
  · dsimp only
    rw [Option.toList_none, List.append_nil]
    exact h.apart
  · dsimp only
    rw [if_pos (List.mem_map_of_mem hx)]
    exact hnewest x hx
  · dsimp only
    rw [Option.toList_none, List.append_nil]
    exact h.window

/-- Every call keeps the invariant. -/
theorem Kept.step (h : s.Kept bitrate share) (hpos : 0 < bitrate) (call : CapCall) :
    (s.step call).Kept bitrate share := by
  cases call with
  | admitAnnounce e =>
      have hadmit := CappedInterface.admitAnnounce_eq h.hasBitrate hpos e
      by_cases hopen : s.interface.announceQueue = [] ∧ s.interface.announceAllowedAt < e.time
      · rw [if_pos hopen] at hadmit
        have hcall : s.interface.call (.admitAnnounce e) = (some (e.time, e.raw),
            { s.interface with
              announceAllowedAt := e.time +
                s.interface.announceAirtimeCost e.raw.length bitrate }) := by
          rw [CappedInterface.call, hadmit]
          rfl
        refine h.shrinks hpos hcall rfl rfl (List.Sublist.refl _) ?_ ?_
        · intro x hx
          exact absurd (hopen.1 ▸ hx) List.not_mem_nil
        · refine .announce e.time e.raw hopen.2.le ?_
          rw [CappedInterface.announceAirtimeCost_eq, h.hasShare]
      · rw [if_neg hopen] at hadmit
        exact h.queued (by rw [CappedInterface.call, hadmit]; rfl)
  | nextQueuedAnnounce now =>
      have hretained : (s.interface.retained now).Sublist s.interface.announceQueue :=
        List.filter_sublist
      rcases s.interface.nextQueuedAnnounce_cases now with hnone |
        ⟨bitrate', selected, index, hbitrate, -, hopen, -, hsome⟩
      · have hcall : s.interface.call (.nextQueuedAnnounce now) =
            (none, { s.interface with announceQueue := s.interface.retained now }) := by
          rw [CappedInterface.call, hnone]
          rfl
        exact h.shrinks hpos hcall rfl rfl hretained (fun _ _ => rfl) (.nothing le_rfl)
      · obtain rfl : bitrate = bitrate' :=
          Option.some.inj (h.hasBitrate.symm.trans hbitrate)
        have hcall : s.interface.call (.nextQueuedAnnounce now) =
            (some (now, selected.raw), { s.interface with
              announceQueue := (s.interface.retained now).eraseIdx index
              announceAllowedAt := now +
                s.interface.announceAirtimeCost selected.raw.length bitrate }) := by
          rw [CappedInterface.call, hsome]
          rfl
        refine h.shrinks hpos hcall rfl rfl ((List.eraseIdx_sublist _ _).trans hretained)
          (fun _ _ => rfl) ?_
        refine .announce now selected.raw hopen ?_
        rw [CappedInterface.announceAirtimeCost_eq, h.hasShare]
  | requestPathRecursive dataLen now =>
      have hfilter : s.interface.bitrate.filter (fun b => decide (0 < b)) = some bitrate := by
        simp [h.hasBitrate, hpos]
      have hcall : s.interface.call (.requestPathRecursive dataLen now) =
          (none, (s.interface.requestPathRecursive dataLen now).2) := rfl
      unfold CappedInterface.requestPathRecursive at hcall
      split at hcall
      · exact h.shrinks hpos hcall rfl rfl (List.Sublist.refl _) (fun _ _ => rfl)
          (.nothing le_rfl)
      · rename_i hopen
        rw [not_or, not_lt] at hopen
        refine h.shrinks hpos hcall rfl rfl (List.Sublist.refl _) (fun _ _ => rfl)
          (.nothing ?_)
        simp only [hfilter]
        refine hopen.2.trans (le_add_of_nonneg_right ?_)
        exact div_nonneg (div_nonneg (Nat.cast_nonneg _) hpos.le) s.interface.share_pos.le
  | dropAnnounceQueues =>
      exact h.shrinks hpos rfl rfl rfl (List.nil_sublist _) (fun _ _ => rfl) (.nothing le_rfl)

end Capped

/-- After any calls on an interface with a bitrate, whatever the clock reads: no announce is let
out before the airtime of the last one is over, one announce waits for each destination, the
newest that was offered, and an entry leaves the queue only by release, by age or when the
queue is dropped. -/
theorem announceCap_run (i : CappedInterface) {bitrate : ℚ} (hbitrate : i.bitrate = some bitrate)
    (hpos : 0 < bitrate) (calls : List CapCall) :
    KeepsCap bitrate i.share (Capped.run i calls) ∧
      ∀ call, (Capped.run i calls).interface.Fair call := by
  have hkept : ∀ s : Capped, s.Kept bitrate i.share →
      (calls.foldl Capped.step s).Kept bitrate i.share := by
    induction calls with
    | nil => exact fun _ h => h
    | cons call calls ih => exact fun s h => ih (s.step call) (h.step hpos call)
  exact ⟨(hkept _ (Capped.kept_start hbitrate)).toKeepsCap,
    fun call => CappedInterface.fair _ call⟩

/-- An interface with a thousand bits a second. -/
def sampleCapped : CappedInterface :=
  { bitrate := some 1000, announceCap := 2 / 100, announceAllowedAt := 0, announceQueue := [] }

/-- Two announces of a destination, the first of which leaves, and a path request. -/
theorem announceCap_run_sample :
    KeepsCap 1000 sampleCapped.share (Capped.run sampleCapped
      [.admitAnnounce ⟨[1], 1, 1, 1, [7]⟩, .admitAnnounce ⟨[1], 2, 1, 2, [8]⟩,
        .requestPathRecursive 32 3]) ∧
      ∀ call, (Capped.run sampleCapped
        [.admitAnnounce ⟨[1], 1, 1, 1, [7]⟩, .admitAnnounce ⟨[1], 2, 1, 2, [8]⟩,
          .requestPathRecursive 32 3]).interface.Fair call :=
  announceCap_run sampleCapped rfl (by norm_num) _

end Reticulum.Transport
