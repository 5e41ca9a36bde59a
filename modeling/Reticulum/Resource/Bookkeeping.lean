import Mathlib.Data.List.Nodup
import Mathlib.Data.List.TakeWhile
import Mathlib.Order.Bounds.Basic
import Reticulum.Resource.WindowBounds

/-!
# The books of a receiver

A receiver counts the parts it has (`received_count`), the prefix that is complete
(`consecutive_completed_height`) and the parts it waits for (`outstanding_parts`). Whatever parts
arrive in whatever order, the counts are those of the slots, and the assembly is started by the part
that fills the last slot (`bookkeeping_kept`).

## Implementation notes

`asked` and `started` are history: the slots of the last request, and the number of assemblies so
far. A resource that was advertised without parts has no slot to fill; the first part that it takes
starts its assembly.
-/

namespace Reticulum.Resource

/-- The slots whose parts the loop of `prepare_request_next_data` asks for. -/
def askedSlots (r : Resource) : Nat → Nat → Nat → List Nat
  | 0, _, _ => []
  | fuel + 1, pn, outstanding =>
      match r.parts[pn]? with
      | none => []
      | some (some _) =>
          if outstanding ≥ r.window then [] else askedSlots r fuel (pn + 1) outstanding
      | some none =>
          if r.hashmap[pn]?.getD zeroHash = zeroHash then []
          else if outstanding + 1 ≥ r.window then [pn]
          else pn :: askedSlots r fuel (pn + 1) (outstanding + 1)

/-- The slots that were asked for last, once `prepare_request_next_data` has been called. -/
def noteAsked (r : Resource) (asked : List Nat) : List Nat :=
  if r.status = .failed ∨ r.waitingForHmu then asked else r.askedSlots r.window r.searchStart 0

/-- The watchdog asks for the parts again. -/
def Retries (r : Resource) (env : Readings) : Prop :=
  r.status = .transferring ∧ env.linkDown = false ∧ env.timedOut = true ∧ r.initiator = false ∧
    0 < r.retriesLeft

instance (r : Resource) (env : Readings) : Decidable (r.Retries env) :=
  inferInstanceAs (Decidable (_ ∧ _))

/-- The resource that the watchdog asks for. -/
def retried (r : Resource) : Resource :=
  { r.shrinkWindow with retriesLeft := r.retriesLeft - 1, waitingForHmu := false }

/-- A receiving resource with its history. -/
structure Receiver where
  resource : Resource
  asked : List Nat
  started : Nat

/-- What happens to a receiving resource. -/
inductive ReceiverEvent
  | part (data : Bytes) (env : Readings)
  | requestNext (env : Readings)
  | hashmapUpdate (update : Option (Nat × Bytes)) (env : Readings)
  | watchdog (env : Readings)
  | cancel (env : Readings)

variable (fullHash : Bytes → Digest)

/-- The operation of an event. -/
def ReceiverEvent.apply (r : Resource) : ReceiverEvent → Resource × List Effect
  | .part data env => ((r.receivePart fullHash data env).1, (r.receivePart fullHash data env).2.1)
  | .requestNext env => r.requestNext env
  | .hashmapUpdate update env =>
      ((r.hashmapUpdatePacket update env).1, (r.hashmapUpdatePacket update env).2.1)
  | .watchdog env => r.watchdog env
  | .cancel env => r.cancel env

/-- The slots asked for last, after an event. -/
def ReceiverEvent.asks (r : Resource) (asked : List Nat) : ReceiverEvent → List Nat
  | .requestNext _ => r.noteAsked asked
  | .watchdog env => if r.Retries env then r.retried.noteAsked asked else asked
  | _ => asked

/-- A part is received. -/
def ReceiverEvent.isPart : ReceiverEvent → Bool
  | .part _ _ => true
  | _ => false

/-- One event. -/
def Receiver.step (s : Receiver) (event : ReceiverEvent) : Receiver where
  resource := (event.apply fullHash s.resource).1
  asked := event.asks s.resource s.asked
  started := s.started + (assemblies (event.apply fullHash s.resource).2).length

/-- A resource that was just accepted. -/
def Receiver.accepted (r : Resource) : Receiver := { resource := r, asked := [], started := 0 }

/-- A run from the acceptance on. -/
def Receiver.run (r : Resource) (events : List ReceiverEvent) : Receiver :=
  events.foldl (Receiver.step fullHash) (.accepted r)

/-- Slot `i` is filled. -/
def Filled (r : Resource) (i : Nat) : Prop := ∃ data, r.parts[i]? = some (some data)

/-- The counts are those of the slots. -/
structure Bookkept (s : Receiver) : Prop where
  /-- `received_count` is the number of filled slots -/
  received : s.resource.receivedCount = s.resource.parts.countP Option.isSome
  /-- `consecutive_completed_height` is the largest height up to which all slots are filled -/
  height : IsGreatest {h : Int | -1 ≤ h ∧ ∀ i : Nat, (i : Int) ≤ h → s.resource.Filled i}
    s.resource.consecutiveCompletedHeight
  /-- at most the slots asked for that are still empty are outstanding -/
  outstanding : s.resource.outstandingParts ≤
    (s.asked.filter fun i => s.resource.parts[i]? = some none).length
  /-- the slots that a part is compared with lie inside the parts -/
  inRange : ∀ j < (s.resource.hashmapChunks s.resource.searchStart s.resource.window).length,
    s.resource.searchStart + j < s.resource.parts.length

/-- The last empty slot is filled. -/
def FillsLast (s s' : Receiver) : Prop := none ∈ s.resource.parts ∧ none ∉ s'.resource.parts

instance (s s' : Receiver) : Decidable (FillsLast s s') := inferInstanceAs (Decidable (_ ∧ _))

/-- The event starts an assembly: it fills the last slot, or is the first part that a resource
without parts takes. -/
def StartsAssembly (s : Receiver) (event : ReceiverEvent) (s' : Receiver) : Prop :=
  FillsLast s s' ∨
    (s.resource.totalParts = 0 ∧ s.started = 0 ∧ event.isPart = true ∧ s.resource.status ≠ .failed)

instance (s : Receiver) (event : ReceiverEvent) (s' : Receiver) :
    Decidable (StartsAssembly s event s') :=
  inferInstanceAs (Decidable (_ ∨ _))

/-! ## The slots of one resource -/

/-- The invariant of the counts, with the slots asked for last. -/
structure Slotted (asked : List Nat) (r : Resource) : Prop where
  length : r.parts.length = r.totalParts
  hashmap : r.hashmap.length = r.totalParts
  received : r.receivedCount = r.parts.countP Option.isSome
  height : r.consecutiveCompletedHeight + 1 = (r.parts.takeWhile Option.isSome).length
  nodup : asked.Nodup
  outstanding : r.outstandingParts ≤ asked.countP fun i => r.parts[i]? = some none

/-- The slots and their counts are the same. -/
structure SameSlots (r r' : Resource) : Prop where
  parts : r'.parts = r.parts
  hashmap : r'.hashmap.length = r.hashmap.length
  totalParts : r'.totalParts = r.totalParts
  receivedCount : r'.receivedCount = r.receivedCount
  height : r'.consecutiveCompletedHeight = r.consecutiveCompletedHeight
  outstandingParts : r'.outstandingParts = r.outstandingParts
  assemblyLock : r'.assemblyLock = r.assemblyLock

section Slots

variable {fullHash} {r r' : Resource} {asked : List Nat} {env : Readings} {data : Bytes} {i : Nat}

theorem SameSlots.refl (r : Resource) : SameSlots r r := ⟨rfl, rfl, rfl, rfl, rfl, rfl, rfl⟩

theorem SameSlots.trans {r'' : Resource} (h : SameSlots r r') (h' : SameSlots r' r'') :
    SameSlots r r'' :=
  ⟨h'.parts.trans h.parts, h'.hashmap.trans h.hashmap, h'.totalParts.trans h.totalParts,
    h'.receivedCount.trans h.receivedCount, h'.height.trans h.height,
    h'.outstandingParts.trans h.outstandingParts, h'.assemblyLock.trans h.assemblyLock⟩

theorem Slotted.of_same (h : Slotted asked r) (hsame : SameSlots r r') : Slotted asked r' where
  length := by
    rw [hsame.parts, hsame.totalParts]
    exact h.length
  hashmap := by
    rw [hsame.hashmap, hsame.totalParts]
    exact h.hashmap
  received := by
    rw [hsame.receivedCount, hsame.parts]
    exact h.received
  height := by
    rw [hsame.height, hsame.parts]
    exact h.height
  nodup := h.nodup
  outstanding := by
    rw [hsame.outstandingParts, hsame.parts]
    exact h.outstanding

/-- A prefix that is complete belongs to the complete prefix. -/
theorem length_takeWhile {α : Type*} {p : α → Bool} {l : List α} {k : Nat} (hk : k ≤ l.length)
    (h : ∀ a ∈ l.take k, p a) :
    (l.takeWhile p).length = k + ((l.drop k).takeWhile p).length := by
  conv_lhs => rw [← List.take_append_drop k l]
  rw [List.takeWhile_append_of_pos h, List.length_append, List.length_take, Nat.min_eq_left hk]

/-- The complete prefix is complete. -/
theorem take_takeWhile {α : Type*} (p : α → Bool) (l : List α) :
    l.take (l.takeWhile p).length = l.takeWhile p :=
  (List.prefix_iff_eq_take.mp (List.takeWhile_prefix p)).symm

theorem of_lt_takeWhile {α : Type*} {p : α → Bool} {l : List α} {j : Nat} {a : α}
    (hj : j < (l.takeWhile p).length) (hget : l[j]? = some a) : p a := by
  apply List.mem_takeWhile_imp (l := l)
  rw [← take_takeWhile]
  apply List.mem_of_getElem? (i := j)
  rwa [List.getElem?_take_of_lt hj]

/-- The complete prefix ends at an entry that is not. -/
theorem not_of_takeWhile {α : Type*} {p : α → Bool} {l : List α} {a : α}
    (hget : l[(l.takeWhile p).length]? = some a) : ¬p a := by
  obtain ⟨hlt, hat⟩ := List.getElem?_eq_some_iff.mp hget
  intro ha
  have hlonger := length_takeWhile (p := p) (Nat.succ_le_of_lt hlt) fun b hb => by
    rw [List.take_succ_eq_append_getElem hlt, take_takeWhile, hat] at hb
    rcases List.mem_append.mp hb with hb | hb
    · exact List.mem_takeWhile_imp hb
    · exact List.mem_singleton.mp hb ▸ ha
  omega

/-- An empty slot lies behind the complete prefix. -/
theorem takeWhile_le_of_empty {parts : List (Option Bytes)} (hempty : parts[i]? = some none) :
    (parts.takeWhile Option.isSome).length ≤ i := by
  by_contra hlt
  have hsome := of_lt_takeWhile (Nat.not_le.mp hlt) hempty
  cases hsome

/-- The complete prefix after a slot is filled, as far as the loop of `receive_part` starts from
it. -/
theorem takeWhile_stored {parts : List (Option Bytes)} (hempty : parts[i]? = some none)
    {k : Nat} (hk : k = (parts.takeWhile Option.isSome).length ∨
      i = (parts.takeWhile Option.isSome).length ∧ k = i + 1) :
    ((parts.set i (some data)).takeWhile Option.isSome).length =
      k + (((parts.set i (some data)).drop k).takeWhile Option.isSome).length := by
  obtain ⟨hlt, -⟩ := List.getElem?_eq_some_iff.mp hempty
  have hbehind := takeWhile_le_of_empty hempty
  apply length_takeWhile
  · rw [List.length_set]
    omega
  intro a ha
  obtain ⟨j, hj⟩ := List.mem_iff_getElem?.mp ha
  rw [List.getElem?_take] at hj
  split at hj
  swap
  · cases hj
  rename_i hjk
  by_cases hji : i = j
  · rw [← hji, List.getElem?_set_self hlt] at hj
    rw [← Option.some.inj hj]
    rfl
  · rw [List.getElem?_set_ne hji] at hj
    exact of_lt_takeWhile (by omega) hj

/-- Slots that are asked for once are still asked for when one of them is filled, but this. -/
theorem countP_ne {asked : List Nat} (hnodup : asked.Nodup) (p : Nat → Bool) (i : Nat) :
    asked.countP p ≤ asked.countP (fun j => p j && j != i) + 1 := by
  have hsplit : asked.countP p ≤ asked.countP (fun j => p j && j != i) + asked.count i := by
    clear hnodup
    induction asked with
    | nil => exact Nat.zero_le _
    | cons j asked ih =>
        simp only [List.countP_cons, List.count_cons]
        by_cases hj : j = i
        · subst hj
          simp
          split <;> omega
        · simp [hj]
          omega
  exact hsplit.trans (Nat.add_le_add_left (List.nodup_iff_count_le_one.mp hnodup i) _)

/-- A part is stored in an empty slot. -/
theorem Slotted.storePart (h : Slotted asked r) (data : Bytes) (hempty : r.parts[i]? = some none) :
    Slotted asked (r.storePart i data) := by
  obtain ⟨hlt, hget⟩ := List.getElem?_eq_some_iff.mp hempty
  have hbehind := takeWhile_le_of_empty hempty
  have hheight := h.height
  refine ⟨?_, h.hashmap, ?_, ?_, h.nodup, ?_⟩
  · exact List.length_set.trans h.length
  · calc r.receivedCount + 1 = r.parts.countP Option.isSome + 1 := by rw [h.received]
      _ = (r.parts.set i (some data)).countP Option.isSome := by
        rw [List.countP_set hlt, hget]
        rfl
  · unfold Resource.storePart
    dsimp only
    split
    · rename_i hnext
      rw [takeWhile_stored hempty (.inr ⟨by omega, rfl⟩)]
      push_cast
      have hk : ((i : Int) + 1).toNat = i + 1 := rfl
      rw [hk]
      omega
    · rw [takeWhile_stored hempty (.inl rfl)]
      have hk : (r.consecutiveCompletedHeight + 1).toNat =
          (r.parts.takeWhile Option.isSome).length := by
        rw [hheight]
        rfl
      rw [hk]
      omega
  · have hcount := countP_ne h.nodup (fun j => r.parts[j]? = some none) i
    have hstill : asked.countP (fun j => decide (r.parts[j]? = some none) && j != i) ≤
        asked.countP fun j => (r.parts.set i (some data))[j]? = some none := by
      refine List.countP_mono_left fun j _ hj => ?_
      rw [Bool.and_eq_true, bne_iff_ne] at hj
      rw [List.getElem?_set_ne (Ne.symm hj.2)]
      exact hj.1
    have houtstanding := h.outstanding
    show r.outstandingParts - 1 ≤ _
    exact (Nat.sub_le_of_le_add (houtstanding.trans hcount)).trans hstill

/-! ### Storing a part -/

/-- What storing a part leaves: the invariant, the length, the lock, and the slots that are
filled. -/
structure StoredIn (asked : List Nat) (r r' : Resource) : Prop where
  slotted : Slotted asked r'
  totalParts : r'.totalParts = r.totalParts
  assemblyLock : r'.assemblyLock = r.assemblyLock
  filled : none ∉ r.parts → none ∉ r'.parts

theorem Slotted.storeMatches (h : Slotted asked r) (partHash : MapHash) (data : Bytes)
    (hashes : List MapHash) (i : Nat) :
    StoredIn asked r (storeMatches partHash data hashes i r) := by
  induction hashes generalizing i r with
  | nil => exact ⟨h, rfl, rfl, id⟩
  | cons hash hashes ih =>
      rw [Resource.storeMatches]
      split
      · rename_i hmatch
        have hrest := ih (h.storePart data hmatch.2) (i + 1)
        refine ⟨hrest.slotted, hrest.totalParts, hrest.assemblyLock, fun hfull => ?_⟩
        exact absurd (List.mem_of_getElem? hmatch.2) hfull
      · exact ih h (i + 1)

theorem Slotted.storeInWindow (h : Slotted asked r) (fullHash : Bytes → Digest) (data : Bytes) :
    StoredIn asked r (r.storeInWindow fullHash data) := by
  have hbegun : SameSlots r { r with status := .transferring } :=
    ⟨rfl, rfl, rfl, rfl, rfl, rfl, rfl⟩
  have hstored := (h.of_same hbegun).storeMatches (r.getMapHash fullHash data) data
    (r.hashmapChunks r.searchStart r.window) r.searchStart
  exact ⟨hstored.slotted, hstored.totalParts, hstored.assemblyLock, hstored.filled⟩

theorem beginPart_sameSlots (r : Resource) (env : Readings) : SameSlots r (r.beginPart env) := by
  unfold beginPart firstResponse
  split
  · exact ⟨rfl, rfl, rfl, rfl, rfl, rfl, rfl⟩
  · dsimp only
    split <;> exact ⟨rfl, rfl, rfl, rfl, rfl, rfl, rfl⟩

theorem growWindow_sameSlots (r : Resource) : SameSlots r r.growWindow := by
  unfold Resource.growWindow
  split
  · exact ⟨rfl, rfl, rfl, rfl, rfl, rfl, rfl⟩
  · exact SameSlots.refl r

theorem measureRate_sameSlots (r : Resource) (env : Readings) :
    SameSlots r (r.measureRate env) := by
  unfold Resource.measureRate
  split
  · dsimp only
    split <;> split <;> exact ⟨rfl, rfl, rfl, rfl, rfl, rfl, rfl⟩
  · exact SameSlots.refl r

/-! ### Asking for parts -/

theorem cancel_sameSlots (r : Resource) (env : Readings) : SameSlots r (r.cancel env).1 := by
  rw [cancel_eq]
  exact ⟨rfl, rfl, rfl, rfl, rfl, rfl, rfl⟩

theorem length_askedSlots (r : Resource) (fuel pn outstanding : Nat) :
    (r.scanWindow fuel pn outstanding).1.length = (r.askedSlots fuel pn outstanding).length := by
  fun_induction askedSlots r fuel pn outstanding with
  | case1 => rfl
  | case2 _ _ _ hpart => simp only [scanWindow, hpart, List.length_nil]
  | case3 _ _ _ _ hpart hwindow => simp only [scanWindow, hpart, if_pos hwindow, List.length_nil]
  | case4 _ _ _ _ hpart hwindow ih => simpa only [scanWindow, hpart, if_neg hwindow] using ih
  | case5 _ _ _ hpart hzero => simp only [scanWindow, hpart, if_pos hzero, List.length_nil]
  | case6 _ _ _ hpart hzero hwindow =>
      simp only [scanWindow, hpart, if_neg hzero, if_pos hwindow, List.length_singleton]
  | case7 _ _ _ hpart hzero hwindow ih =>
      simpa only [scanWindow, hpart, if_neg hzero, if_neg hwindow, List.length_cons,
        Nat.add_right_cancel_iff] using ih

/-- The slots that are asked for are empty, and come in order. -/
theorem askedSlots_empty (r : Resource) (fuel pn outstanding : Nat) :
    (∀ i ∈ r.askedSlots fuel pn outstanding, pn ≤ i ∧ r.parts[i]? = some none) ∧
      (r.askedSlots fuel pn outstanding).Nodup := by
  fun_induction askedSlots r fuel pn outstanding with
  | case4 _ pn _ _ _ _ ih =>
      exact ⟨fun i hi => ⟨(Nat.le_succ pn).trans (ih.1 i hi).1, (ih.1 i hi).2⟩, ih.2⟩
  | case6 _ pn _ hpart =>
      refine ⟨fun i hi => ?_, List.nodup_singleton pn⟩
      obtain rfl := List.mem_singleton.mp hi
      exact ⟨le_rfl, hpart⟩
  | case7 _ pn _ hpart _ _ ih =>
      refine ⟨fun i hi => ?_, List.nodup_cons.mpr ⟨fun hmem => ?_, ih.2⟩⟩
      · rcases List.mem_cons.mp hi with rfl | hi
        · exact ⟨le_rfl, hpart⟩
        · exact ⟨(Nat.le_succ pn).trans (ih.1 i hi).1, (ih.1 i hi).2⟩
      · exact Nat.not_succ_le_self pn (ih.1 pn hmem).1
  | _ => exact ⟨fun i hi => absurd hi List.not_mem_nil, List.nodup_nil⟩

/-- The parts are the same, and the counts are those of the slots. -/
structure Carried (asked : List Nat) (r r' : Resource) : Prop where
  slotted : Slotted asked r'
  parts : r'.parts = r.parts
  assemblyLock : r'.assemblyLock = r.assemblyLock

theorem Carried.of_same {r'' : Resource} (h : Carried asked r r') (hsame : SameSlots r' r'') :
    Carried asked r r'' :=
  ⟨h.slotted.of_same hsame, hsame.parts.trans h.parts, hsame.assemblyLock.trans h.assemblyLock⟩

theorem Slotted.carried (h : Slotted asked r) (hsame : SameSlots r r') : Carried asked r r' :=
  ⟨h.of_same hsame, hsame.parts, hsame.assemblyLock⟩

/-- A request counts the slots that it asks for. -/
theorem Slotted.prepareRequestNextData (h : Slotted asked r) :
    Carried (r.noteAsked asked) r r.prepareRequestNextData.1 := by
  unfold noteAsked Resource.prepareRequestNextData
  split
  · exact h.carried (SameSlots.refl r)
  obtain ⟨hempty, hnodup⟩ := r.askedSlots_empty r.window r.searchStart 0
  have hall : (r.askedSlots r.window r.searchStart 0).countP (fun i => r.parts[i]? = some none) =
      (r.askedSlots r.window r.searchStart 0).length :=
    List.countP_eq_length.mpr fun i hi => decide_eq_true (hempty i hi).2
  have hasked : Carried (r.askedSlots r.window r.searchStart 0) r
      { r with outstandingParts := (r.scanWindow r.window r.searchStart 0).1.length } := by
    refine ⟨⟨h.length, h.hashmap, h.received, h.height, hnodup, ?_⟩, rfl, rfl⟩
    exact ((length_askedSlots r _ _ _).trans hall.symm).le
  dsimp only
  split
  · split
    · exact hasked.of_same ⟨rfl, rfl, rfl, rfl, rfl, rfl, rfl⟩
    · exact hasked
  · exact hasked

theorem Slotted.requestNext (h : Slotted asked r) (env : Readings) :
    Carried (r.noteAsked asked) r (r.requestNext env).1 := by
  have hasked := h.prepareRequestNextData
  unfold Resource.requestNext
  split
  · rename_i hprepared
    rw [hprepared] at hasked
    exact hasked
  · rename_i hprepared
    rw [hprepared] at hasked
    split
    · exact hasked.of_same ⟨rfl, rfl, rfl, rfl, rfl, rfl, rfl⟩
    · exact hasked.of_same (cancel_sameSlots _ env)

theorem length_writeHashes (hashes : List MapHash) (start : Nat) (hashmap : List MapHash)
    (height : Nat) : (writeHashes hashes start (hashmap, height)).1.length = hashmap.length := by
  induction hashes generalizing start hashmap height with
  | nil => rfl
  | cons hash hashes ih =>
      rw [writeHashes]
      split
      · exact ih _ _ _
      · exact (ih _ _ _).trans List.length_set

theorem hashmapUpdatePacket_sameSlots (r : Resource) (update : Option (Nat × Bytes))
    (env : Readings) : SameSlots r (r.hashmapUpdatePacket update env).1 := by
  have hfilled : ∀ segment hashes, SameSlots r
      ({ r with retriesLeft := r.maxRetries }.fillHashmap segment hashes) :=
    fun segment hashes => ⟨rfl, length_writeHashes _ _ _ _, rfl, rfl, rfl, rfl, rfl⟩
  unfold hashmapUpdatePacket
  split
  · dsimp only
    split
    · unfold hashmapUpdate
      split
      · exact ⟨rfl, rfl, rfl, rfl, rfl, rfl, rfl⟩
      · dsimp only
        split
        · exact (hfilled _ _).trans (cancel_sameSlots _ env)
        · exact (hfilled _ _).trans ⟨rfl, rfl, rfl, rfl, rfl, rfl, rfl⟩
    · exact ⟨rfl, rfl, rfl, rfl, rfl, rfl, rfl⟩
  · exact SameSlots.refl r

theorem retried_sameSlots (r : Resource) : SameSlots r r.retried := by
  unfold retried shrinkWindow
  split
  · dsimp only
    split
    · split <;> exact ⟨rfl, rfl, rfl, rfl, rfl, rfl, rfl⟩
    · exact ⟨rfl, rfl, rfl, rfl, rfl, rfl, rfl⟩
  · exact ⟨rfl, rfl, rfl, rfl, rfl, rfl, rfl⟩

/-- The watchdog asks again. -/
theorem watchdog_retries (h : r.Retries env) : r.watchdog env = r.retried.requestNext env := by
  obtain ⟨hstatus, hlink, htimedOut, hinitiator, hretries⟩ := h
  unfold Resource.watchdog
  rw [hstatus, if_neg (by decide), hlink, if_neg Bool.false_ne_true, htimedOut,
    if_neg (not_not.mpr rfl)]
  dsimp only
  rw [hinitiator, if_neg Bool.false_ne_true, if_pos hretries]
  rfl

/-- The watchdog does not ask. -/
theorem watchdog_sameSlots (h : ¬r.Retries env) : SameSlots r (r.watchdog env).1 := by
  unfold Resource.watchdog
  split
  · exact SameSlots.refl r
  split
  · exact cancel_sameSlots r env
  rename_i hlink
  split
  · exact SameSlots.refl r
  rename_i htimedOut
  split
  · split
    · exact cancel_sameSlots r env
    · have hretry : SameSlots r { r with retriesLeft := r.retriesLeft - 1 } :=
        ⟨rfl, rfl, rfl, rfl, rfl, rfl, rfl⟩
      dsimp only
      split
      · exact hretry.trans ⟨rfl, rfl, rfl, rfl, rfl, rfl, rfl⟩
      · exact hretry.trans (cancel_sameSlots _ env)
  · rename_i hstatus
    split
    · exact cancel_sameSlots r env
    rename_i hinitiator
    split
    · rename_i hretries
      exact absurd ⟨hstatus, Bool.not_eq_true _ ▸ hlink, not_not.mp htimedOut,
        Bool.not_eq_true _ ▸ hinitiator, hretries⟩ h
    · exact cancel_sameSlots r env
  · split
    · exact cancel_sameSlots r env
    · exact ⟨rfl, rfl, rfl, rfl, rfl, rfl, rfl⟩
  · exact SameSlots.refl r

theorem Slotted.watchdog (h : Slotted asked r) (env : Readings) :
    Carried (if r.Retries env then r.retried.noteAsked asked else asked) r
      (r.watchdog env).1 := by
  by_cases hretries : r.Retries env
  · rw [if_pos hretries, watchdog_retries hretries]
    have hsame := retried_sameSlots r
    have hasked := (h.of_same hsame).requestNext env
    exact ⟨hasked.slotted, hasked.parts.trans hsame.parts,
      hasked.assemblyLock.trans hsame.assemblyLock⟩
  · rw [if_neg hretries]
    exact h.carried (watchdog_sameSlots hretries)

/-- All parts have come. -/
theorem Slotted.receivedCount_eq_iff (h : Slotted asked r) :
    r.receivedCount = r.totalParts ↔ none ∉ r.parts := by
  rw [h.received, ← h.length, List.countP_eq_length]
  constructor
  · intro hall hnone
    cases hall none hnone
  · intro hnone part hpart
    cases part with
    | none => exact absurd hpart hnone
    | some data => rfl

/-- What receiving a part does to the slots: nothing once the resource has failed, or it starts the
assembly of a resource whose parts have all come, or the transfer goes on. -/
inductive TakesPart (asked : List Nat) (r r' : Resource) (effects : List Effect) : Prop
  | failed (status : r.status = .failed) (same : Carried asked r r')
      (none : assemblies effects = [])
  | starts (status : r.status ≠ .failed) (slotted : Slotted asked r') (copy : Resource)
      (complete : r'.receivedCount = r'.totalParts) (before : r.assemblyLock = false)
      (after : r'.assemblyLock = true) (one : assemblies effects = [copy])
  | goes (status : r.status ≠ .failed) (stored : StoredIn asked r r')
      (incomplete : ¬(r'.receivedCount = r'.totalParts ∧ r'.assemblyLock = false))
      (none : assemblies effects = [])

theorem Slotted.receivePart (h : Slotted asked r) (fullHash : Bytes → Digest) (data : Bytes)
    (env : Readings) : TakesPart asked r (r.receivePart fullHash data env).1
      (r.receivePart fullHash data env).2.1 := by
  have hbegun := beginPart_sameSlots r env
  have hstatus : (r.beginPart env).status = r.status := status_beginPart
  have hstored := (h.of_same hbegun).storeInWindow fullHash data
  have hfrom : ∀ r', SameSlots ((r.beginPart env).storeInWindow fullHash data) r' →
      StoredIn asked r r' := by
    intro r' hsame
    refine ⟨hstored.slotted.of_same hsame, ?_, ?_, fun hfull => ?_⟩
    · rw [hsame.totalParts, hstored.totalParts, hbegun.totalParts]
    · rw [hsame.assemblyLock, hstored.assemblyLock, hbegun.assemblyLock]
    · rw [hsame.parts]
      apply hstored.filled
      rw [hbegun.parts]
      exact hfull
  unfold Resource.receivePart
  dsimp only
  split
  · rename_i hfailed
    exact .failed (hstatus.symm.trans hfailed) (h.carried hbegun) rfl
  rename_i hlive
  rw [hstatus] at hlive
  split
  · rename_i hcomplete
    have hlock := (hfrom _ (SameSlots.refl _)).assemblyLock
    refine .starts hlive ?_ _ hcomplete.1 (hlock.symm.trans ?_) rfl rfl
    · have hslotted := hstored.slotted
      exact ⟨hslotted.length, hslotted.hashmap, hslotted.received, hslotted.height,
        hslotted.nodup, hslotted.outstanding⟩
    · exact Bool.not_eq_true _ ▸ hcomplete.2
  rename_i hincomplete
  rw [Bool.not_eq_true] at hincomplete
  split
  · have hsame := (growWindow_sameSlots ((r.beginPart env).storeInWindow fullHash data)).trans
      (measureRate_sameSlots _ env)
    refine .goes hlive (hfrom _ hsame) ?_ rfl
    rw [hsame.receivedCount, hsame.totalParts, hsame.assemblyLock]
    exact hincomplete
  · exact .goes hlive (hfrom _ (SameSlots.refl _)) hincomplete rfl

end Slots

/-! ## Runs -/

section Runs

variable {fullHash} {s : Receiver} {event : ReceiverEvent} {r : Resource}

/-- The invariant of a receiver. -/
structure BooksKept (s : Receiver) : Prop where
  slotted : Slotted s.asked s.resource
  full : s.resource.assemblyLock = true → none ∉ s.resource.parts
  empty : s.resource.assemblyLock = false → none ∈ s.resource.parts ∨ s.resource.totalParts = 0
  started : s.started = s.resource.assemblyLock.toNat

theorem BooksKept.bookkept (h : BooksKept s) : Bookkept s where
  received := h.slotted.received
  height := by
    have hheight := h.slotted.height
    constructor
    · refine ⟨by omega, fun i hi => ?_⟩
      have hlt : i < (s.resource.parts.takeWhile Option.isSome).length := by omega
      have hlength := (List.takeWhile_prefix (l := s.resource.parts) Option.isSome).length_le
      have hget := List.getElem?_eq_getElem (hlt.trans_le hlength)
      obtain ⟨data, hdata⟩ := Option.isSome_iff_exists.mp (of_lt_takeWhile hlt hget)
      exact ⟨data, hget.trans (congrArg some hdata)⟩
    · rintro bound ⟨-, hfilled⟩
      by_contra hlarge
      obtain ⟨data, hdata⟩ := hfilled (s.resource.parts.takeWhile Option.isSome).length (by omega)
      exact not_of_takeWhile hdata rfl
  outstanding := by
    rw [← List.countP_eq_length_filter]
    exact h.slotted.outstanding
  inRange := by
    intro j hj
    rw [hashmapChunks, List.length_take, List.length_drop] at hj
    have hlength := h.slotted.length.trans h.slotted.hashmap.symm
    omega

/-- The next state of the books, and the assemblies that the event starts. -/
structure StepKept (s : Receiver) (event : ReceiverEvent) (s' : Receiver) : Prop where
  kept : BooksKept s'
  started : s'.started = s.started + if StartsAssembly s event s' then 1 else 0

/-- An event that stores no part starts no assembly. -/
theorem BooksKept.carried (h : BooksKept s) {s' : Receiver}
    (hidle : event.isPart = true → s.resource.status = .failed)
    (hcarried : Carried s'.asked s.resource s'.resource) (hstarted : s'.started = s.started) :
    StepKept s event s' := by
  have htotal : s'.resource.totalParts = s.resource.totalParts := by
    rw [← hcarried.slotted.length, ← h.slotted.length, hcarried.parts]
  have hnot : ¬StartsAssembly s event s' := by
    rintro (⟨hempty, hfull⟩ | ⟨-, -, hpart, hlive⟩)
    · rw [hcarried.parts] at hfull
      exact hfull hempty
    · exact hlive (hidle hpart)
  refine ⟨⟨hcarried.slotted, ?_, ?_, ?_⟩, by rw [if_neg hnot, hstarted, Nat.add_zero]⟩
  · rw [hcarried.assemblyLock, hcarried.parts]
    exact h.full
  · rw [hcarried.assemblyLock, hcarried.parts, htotal]
    exact h.empty
  · rw [hstarted, hcarried.assemblyLock]
    exact h.started

/-- A part is received. -/
theorem BooksKept.part (h : BooksKept s) (data : Bytes) (env : Readings) :
    StepKept s (.part data env) (s.step fullHash (.part data env)) := by
  have hstarted : (s.step fullHash (.part data env)).started = s.started +
      (assemblies (s.resource.receivePart fullHash data env).2.1).length := rfl
  cases h.slotted.receivePart fullHash data env with
  | failed hstatus hsame hnone =>
      rw [hnone] at hstarted
      exact h.carried (fun _ => hstatus) hsame hstarted
  | starts hstatus hslotted copy hcomplete hbefore hafter hone =>
      rw [hone] at hstarted
      have hfull := hslotted.receivedCount_eq_iff.mp hcomplete
      have hnone : s.started = 0 := by rw [h.started, hbefore, Bool.toNat_false]
      have hstarts : StartsAssembly s (.part data env) (s.step fullHash (.part data env)) := by
        rcases h.empty hbefore with hempty | htotal
        · exact .inl ⟨hempty, hfull⟩
        · exact .inr ⟨htotal, hnone, rfl, hstatus⟩
      refine ⟨⟨hslotted, fun _ => hfull, fun hlock => ?_, ?_⟩, ?_⟩
      · exact absurd (hafter.symm.trans hlock) Bool.noConfusion
      · rw [hstarted, hnone]
        exact (congrArg Bool.toNat hafter).symm
      · rw [if_pos hstarts, hstarted]
        rfl
  | goes hstatus hstored hincomplete hnone =>
      rw [hnone] at hstarted
      have hslotted := hstored.slotted
      have hnot : ¬StartsAssembly s (.part data env) (s.step fullHash (.part data env)) := by
        intro hstarts
        apply hincomplete
        rw [hstored.assemblyLock]
        rcases hstarts with ⟨hempty, hfull⟩ | ⟨htotal, hzero, -, -⟩
        · refine ⟨hslotted.receivedCount_eq_iff.mpr hfull, ?_⟩
          by_contra hlock
          exact h.full (by simpa using hlock) hempty
        · constructor
          · rw [hslotted.receivedCount_eq_iff, List.eq_nil_of_length_eq_zero
              (hslotted.length.trans (hstored.totalParts.trans htotal))]
            exact List.not_mem_nil
          · cases hlock : s.resource.assemblyLock with
            | false => rfl
            | true =>
                have hone := h.started
                rw [hlock, hzero] at hone
                cases hone
      refine ⟨⟨hslotted, fun hlock => ?_, fun hlock => ?_, ?_⟩, ?_⟩
      · exact hstored.filled (h.full (hstored.assemblyLock.symm.trans hlock))
      · left
        by_contra hfull
        exact hincomplete ⟨hslotted.receivedCount_eq_iff.mpr hfull, hlock⟩
      · calc (s.step fullHash (.part data env)).started = s.started := hstarted
          _ = s.resource.assemblyLock.toNat := h.started
          _ = _ := congrArg Bool.toNat hstored.assemblyLock.symm
      · rw [if_neg hnot, hstarted]
        rfl

/-- What an event does to the books. -/
theorem BooksKept.step (h : BooksKept s) (event : ReceiverEvent) :
    StepKept s event (s.step fullHash event) := by
  have hnot : ∀ effects, assemblies effects = [] →
      s.started + (assemblies effects).length = s.started := by
    intro effects hnone
    rw [hnone]
    rfl
  cases event with
  | part data env => exact h.part data env
  | requestNext env =>
      exact h.carried (fun hpart => by cases hpart) (h.slotted.requestNext env)
        (hnot _ (assemblies_requestNext _ env))
  | hashmapUpdate update env =>
      exact h.carried (fun hpart => by cases hpart)
        (h.slotted.carried (hashmapUpdatePacket_sameSlots _ update env))
        (hnot _ (assemblies_hashmapUpdatePacket _ update env))
  | watchdog env =>
      exact h.carried (fun hpart => by cases hpart) (h.slotted.watchdog env)
        (hnot _ (assemblies_watchdog _ env))
  | cancel env =>
      exact h.carried (fun hpart => by cases hpart)
        (h.slotted.carried (cancel_sameSlots _ env)) (hnot _ (cancel_facts _ env).2.2.2.1)

theorem booksKept_accepted {adv : Advertisement} {last : Option Nat} {callback : Bool}
    (haccept : Resource.accept adv last callback = some r) : BooksKept (.accepted r) := by
  unfold Resource.accept at haccept
  split at haccept
  · cases haccept
  cases haccept
  refine ⟨⟨List.length_replicate, ?_, ?_, ?_, List.nodup_nil, le_rfl⟩, fun hlock => ?_,
    fun _ => ?_, rfl⟩
  · exact (length_writeHashes _ _ _ _).trans List.length_replicate
  · exact (List.countP_eq_zero.mpr fun part hpart =>
      List.eq_of_mem_replicate hpart ▸ Bool.false_ne_true).symm
  · cases hn : adv.n with
    | zero => rfl
    | succ n => rfl
  · cases hlock
  · cases hn : adv.n with
    | zero => exact .inr rfl
    | succ n => exact .inl List.mem_cons_self

theorem booksKept_run (fullHash : Bytes → Digest) (h : BooksKept (.accepted r))
    (events : List ReceiverEvent) :
    BooksKept (.run fullHash r events) :=
  List.foldlRecOn events _ h fun _ hkept event _ => (hkept.step event).kept

/-- Whatever parts arrive at a resource that was accepted, and whatever else happens to it, the
counts are those of the slots, no index leaves the parts, and an assembly is started exactly by the
event that fills the last slot, or by the first part that a resource without parts takes, and
once. -/
theorem bookkeeping_kept (fullHash : Bytes → Digest) {adv : Advertisement} {last : Option Nat}
    {callback : Bool} {r : Resource} (haccept : Resource.accept adv last callback = some r)
    (events : List ReceiverEvent) :
    Bookkept (.run fullHash r events) ∧ (Receiver.run fullHash r events).started ≤ 1 ∧
      ∀ event, (Receiver.run fullHash r (events ++ [event])).started =
        (Receiver.run fullHash r events).started +
          if StartsAssembly (.run fullHash r events) event (.run fullHash r (events ++ [event]))
            then 1 else 0 := by
  have hkept := booksKept_run fullHash (booksKept_accepted haccept) events
  refine ⟨hkept.bookkept, ?_, fun event => ?_⟩
  · rw [hkept.started]
    exact Bool.toNat_le _
  · have hstep : Receiver.run fullHash r (events ++ [event]) =
        (Receiver.run fullHash r events).step fullHash event := List.foldl_append
    rw [hstep]
    exact (hkept.step event).started

/-- An advertisement of `n` parts that look alike. -/
def partsAdvertised (n : Nat) : Advertisement where
  t := n
  n := n
  h := sameHash []
  r := [0, 0, 0, 0]
  i := 1
  l := 1
  m := Bytes.ofBlocks (List.replicate n sameMapHash)
  e := false
  c := false
  x := false

/-- A hash that keeps the first byte. -/
def headHash (b : Bytes) : Digest := ⟨b.headD 0 :: List.replicate 31 1, rfl⟩

/-- An advertisement of the parts 5, 6 and 7. -/
def threeAdvertised : Advertisement :=
  { partsAdvertised 3 with m := [5, 1, 1, 1, 6, 1, 1, 1, 7, 1, 1, 1] }

/-- The parts come in another order, and one of them twice. -/
def outOfOrder : List ReceiverEvent :=
  [.requestNext slowReadings, .part [6] slowReadings, .part [5] slowReadings,
    .part [6] slowReadings]

/-- The last part that is missing starts the assembly. -/
theorem bookkeeping_kept_outOfOrder : ∃ r, Resource.accept threeAdvertised none false = some r ∧
    Bookkept (.run headHash r outOfOrder) ∧
    (Receiver.run headHash r outOfOrder).resource.receivedCount = 2 ∧
    (Receiver.run headHash r (outOfOrder ++ [.part [7] slowReadings])).started =
      (Receiver.run headHash r outOfOrder).started + 1 := by
  obtain ⟨hkept, -, hstarts⟩ := bookkeeping_kept headHash
    (show Resource.accept threeAdvertised none false = some _ from rfl) outOfOrder
  exact ⟨_, rfl, hkept, by decide +kernel,
    (hstarts (.part [7] slowReadings)).trans (congrArg (_ + ·) (if_pos (by decide +kernel)))⟩

/-- A resource without parts is assembled though no slot is filled. -/
theorem bookkeeping_false : ¬∀ (fullHash : Bytes → Digest) (adv : Advertisement)
    (last : Option Nat) (callback : Bool) (r : Resource),
    Resource.accept adv last callback = some r → ∀ (events : List ReceiverEvent) event,
      (Receiver.run fullHash r (events ++ [event])).started =
        (Receiver.run fullHash r events).started +
          if FillsLast (.run fullHash r events) (.run fullHash r (events ++ [event]))
            then 1 else 0 := by
  intro h
  have hstarts := h sameHash (partsAdvertised 0) none false _ rfl [] (.part [0] slowReadings)
  revert hstarts
  decide

end Runs

end Reticulum.Resource
