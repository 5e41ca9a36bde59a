import Reticulum.Resource.Bookkeeping
import Reticulum.Resource.Transfer

/-!
# The arithmetic of the hashmap

The place of a hash in the receiver's hashmap is computed in `usize` from the
segment number of an update, which the peer chooses freely. A release build
wraps, so a large segment number can point back into the map. The part count
is the advertised one, whatever size is advertised with it.

## Implementation notes

The byte index of an entry is a multiple of `MAPHASH_LEN`, and so is `2 ^ 64`:
an index that wraps is that of another entry, and the hashmap is a list of
entries here as it is elsewhere. A slice that starts after its end panics,
which is `none`.
-/

namespace Reticulum.Resource

open Runs

/-! ## The wrapping operations -/

/-- `usize` addition in a release build. -/
def usizeAdd (a b : Nat) : Nat := (a + b) % 2 ^ 64

/-- `usize` multiplication in a release build. -/
def usizeMul (a b : Nat) : Nat := (a * b) % 2 ^ 64

theorem usizeAdd_of_lt {a b : Nat} (h : a + b < 2 ^ 64) : usizeAdd a b = a + b :=
  Nat.mod_eq_of_lt h

theorem usizeMul_of_lt {a b : Nat} (h : a * b < 2 ^ 64) : usizeMul a b = a * b :=
  Nat.mod_eq_of_lt h

def maphashLen : Nat := 4

/-- `isize::MAX`, the most bytes that a `Vec` can hold. -/
def isizeMax : Nat := 2 ^ 63 - 1

/-- The size of an `Option<Vec<u8>>`, an entry of `parts`. -/
def partSlotSize : Nat := 24

/-- What becomes of a hash of an update. -/
inductive Place
  | outside
  | entry (k : Nat)
  | panics
  deriving DecidableEq, Repr

/-- The body of the loop of `hashmap_update`: where the hash with index `i` of a segment goes in
a hashmap with that many entries. -/
def place (entries segment i : Nat) : Place :=
  let idx := usizeAdd i (usizeMul segment hashmapMaxLen)
  let targetIndex := usizeMul idx maphashLen
  let targetEnd := usizeAdd targetIndex maphashLen
  if targetEnd ≤ entries * maphashLen then
    if targetIndex ≤ targetEnd then .entry (targetIndex / maphashLen) else .panics
  else .outside

/-- The loop of `hashmap_update` from the hash with index `i` on. -/
def writeHashes64 (segment : Nat) :
    List MapHash → Nat → List MapHash × Nat → Option (List MapHash × Nat)
  | [], _, map => some map
  | h :: hashes, i, (hashmap, height) =>
      match place hashmap.length segment i with
      | .outside => writeHashes64 segment hashes (i + 1) (hashmap, height)
      | .entry k => writeHashes64 segment hashes (i + 1)
          (hashmap.set k h, if hashmap[k]? = some zeroHash then height + 1 else height)
      | .panics => none

/-- The start of `Resource::hashmap_update`. -/
def fillHashmap64 (r : Resource) (segment : Nat) (hashes : List MapHash) : Option Resource :=
  (writeHashes64 segment hashes 0 (r.hashmap, r.hashmapHeight)).map fun (hashmap, height) =>
    { r with status := .transferring, hashmap := hashmap, hashmapHeight := height }

/-- `Resource::hashmap_update`. -/
def hashmapUpdate64 (r : Resource) (segment : Nat) (hashmap : Bytes) (env : Readings) :
    Option (Resource × List Effect × Bool) :=
  if r.status = .failed then some (r, [], false)
  else
    let hashes := Bytes.blocks4 hashmap
    (r.fillHashmap64 segment hashes).map fun r =>
      if hashes.length < 1 then ((r.cancel env).1, (r.cancel env).2, false)
      else ({ r with waitingForHmu := false }, [], true)

/-- `Resource::hashmap_update_packet`. -/
def hashmapUpdatePacket64 (r : Resource) (update : Option (Nat × Bytes)) (env : Readings) :
    Option (Resource × List Effect × Bool) :=
  if r.status ≠ .failed ∧ r.waitingForHmu then
    let r := { r with retriesLeft := r.maxRetries }
    match update with
    | some (segment, hashmap) => r.hashmapUpdate64 segment hashmap env
    | none => some (r, [], false)
  else some (r, [], false)

/-- `Resource::accept`: `vec![None; total_parts]` panics when it is too large, and the loop is
that of segment 0. What is not part of the hashmap is as `accept` has it. -/
def accept64 (adv : Advertisement) (lastResourceWindow : Option Nat) (callback : Bool) :
    Option Resource :=
  (accept adv lastResourceWindow callback).bind fun r =>
    if r.totalParts * partSlotSize > isizeMax then none
    else
      let entries := usizeMul r.totalParts maphashLen / maphashLen
      (writeHashes64 0 (Bytes.blocks4 adv.m) 0 (List.replicate entries zeroHash, 0)).map
        fun (hashmap, height) => { r with hashmap := hashmap, hashmapHeight := height }

/-- The numbers of an advertisement are `u64`, and its hashmap is a MessagePack byte string. -/
structure Advertisement.Decoded (adv : Advertisement) : Prop where
  t : adv.t < 2 ^ 64
  n : adv.n < 2 ^ 64
  i : adv.i < 2 ^ 64
  l : adv.l < 2 ^ 64
  m : adv.m.length < 2 ^ 32

/-- The payload of an update, a `usize` and a MessagePack byte string. -/
structure UpdateDecoded (segment : Nat) (hashmap : Bytes) : Prop where
  segment : segment < 2 ^ 64
  hashmap : hashmap.length < 2 ^ 32

/-- The update of an event was decoded from a packet. -/
def ReceiverEvent.Decoded : ReceiverEvent → Prop
  | .hashmapUpdate (some (segment, hashmap)) _ => UpdateDecoded segment hashmap
  | _ => True

variable (fullHash : Bytes → Digest)

/-- One event of a receiving resource. -/
def Receiver.step64 (s : Receiver) : ReceiverEvent → Option Receiver
  | .hashmapUpdate update env =>
      (s.resource.hashmapUpdatePacket64 update env).map fun (resource, effects, _) =>
        { s with resource := resource, started := s.started + (assemblies effects).length }
  | event => some (s.step fullHash event)

/-! ## Where a hash goes -/

section Place

variable {segment count entries i k : Nat}

/-- No index computation for the hashes of an update wraps. -/
def Exact (segment count : Nat) : Prop :=
  ∀ i < count,
    usizeMul segment hashmapMaxLen = segment * hashmapMaxLen ∧
    usizeAdd i (segment * hashmapMaxLen) = i + segment * hashmapMaxLen ∧
    usizeMul (i + segment * hashmapMaxLen) maphashLen =
      (i + segment * hashmapMaxLen) * maphashLen ∧
    usizeAdd ((i + segment * hashmapMaxLen) * maphashLen) maphashLen =
      (i + segment * hashmapMaxLen) * maphashLen + maphashLen

/-- The last hash decides. -/
theorem exact_iff :
    Exact segment count ↔
      (0 < count → (count + segment * hashmapMaxLen) * maphashLen < 2 ^ 64) := by
  constructor
  · intro hexact hpos
    have hend : ((count - 1 + segment * hashmapMaxLen) * maphashLen + maphashLen) % 2 ^ 64 =
        (count - 1 + segment * hashmapMaxLen) * maphashLen + maphashLen :=
      (hexact (count - 1) (Nat.sub_lt hpos Nat.one_pos)).2.2.2
    calc (count + segment * hashmapMaxLen) * maphashLen
        = (count - 1 + segment * hashmapMaxLen) * maphashLen + maphashLen := by
          rw [← Nat.succ_mul]
          congr 1
          omega
      _ < 2 ^ 64 := by
          rw [← hend]
          exact Nat.mod_lt _ (Nat.two_pow_pos 64)
  · intro hfits i hi
    have hbound := hfits (Nat.zero_lt_of_lt hi)
    unfold maphashLen at hbound ⊢
    refine ⟨usizeMul_of_lt ?_, usizeAdd_of_lt ?_, usizeMul_of_lt ?_, usizeAdd_of_lt ?_⟩ <;> omega

theorem Exact.mono {count' : Nat} (h : Exact segment count) (hle : count' ≤ count) :
    Exact segment count' :=
  fun i hi => h i (hi.trans_le hle)

/-- Without a wrap, the hash goes to its true index if the hashmap has it. -/
theorem place_of_exact (h : Exact segment count) (hi : i < count) :
    place entries segment i =
      if i + segment * hashmapMaxLen < entries then .entry (i + segment * hashmapMaxLen)
      else .outside := by
  obtain ⟨hmul, hadd, htarget, hend⟩ := h i hi
  unfold place
  dsimp only
  rw [hmul, hadd, htarget, hend, if_pos (Nat.le_add_right _ _), ← Nat.succ_mul,
    Nat.mul_div_cancel _ (by decide : 0 < maphashLen)]
  congr 1
  exact propext (Nat.mul_le_mul_right_iff (by decide : 0 < maphashLen))

/-- A hash that goes to an entry goes to one that the hashmap has. -/
theorem lt_of_place (h : place entries segment i = .entry k) : k < entries := by
  unfold place at h
  dsimp only at h
  generalize usizeMul (usizeAdd i (usizeMul segment hashmapMaxLen)) maphashLen = target at h
  split at h
  · rename_i hend
    split at h
    · rename_i hle
      obtain rfl := Place.entry.inj h
      have hexact : usizeAdd target maphashLen = target + maphashLen := by
        unfold usizeAdd maphashLen at hle ⊢
        omega
      rw [hexact] at hend
      unfold maphashLen at hend ⊢
      omega
    · cases h
  · cases h

end Place

/-! ## Without a wrap -/

section Refinement

variable {fullHash} {r : Resource} {segment : Nat} {env : Readings}

theorem writeHashes64_eq (hashes : List MapHash) {i : Nat}
    (h : Exact segment (i + hashes.length)) (hashmap : List MapHash) (height : Nat) :
    writeHashes64 segment hashes i (hashmap, height) =
      some (writeHashes hashes (i + segment * hashmapMaxLen) (hashmap, height)) := by
  induction hashes generalizing i hashmap height with
  | nil => rfl
  | cons hash hashes ih =>
      rw [List.length_cons] at h
      have hrest : Exact segment (i + 1 + hashes.length) := h.mono (by omega)
      have hnext : i + 1 + segment * hashmapMaxLen = i + segment * hashmapMaxLen + 1 :=
        Nat.add_right_comm i 1 _
      rw [writeHashes64, place_of_exact h (by omega), writeHashes]
      by_cases hinside : i + segment * hashmapMaxLen < hashmap.length
      · have hget := List.getElem?_eq_getElem hinside
        rw [if_pos hinside, hget]
        dsimp only
        rw [ih hrest, hnext]
        simp only [hget, Option.some.injEq]
      · rw [if_neg hinside, List.getElem?_eq_none (Nat.le_of_not_lt hinside)]
        dsimp only
        rw [ih hrest, hnext]

theorem hashmapUpdate64_eq {hashmap : Bytes} (h : Exact segment (Bytes.blocks4 hashmap).length) :
    r.hashmapUpdate64 segment hashmap env = some (r.hashmapUpdate segment hashmap env) := by
  have hfill : r.fillHashmap64 segment (Bytes.blocks4 hashmap) =
      some (r.fillHashmap segment (Bytes.blocks4 hashmap)) := by
    unfold fillHashmap64 fillHashmap
    rw [writeHashes64_eq (Bytes.blocks4 hashmap) ((Nat.zero_add _).symm ▸ h), Nat.zero_add,
      Option.map_some]
  unfold hashmapUpdate64 hashmapUpdate
  split
  · rfl
  · dsimp only
    rw [hfill, Option.map_some]

/-- The index computations of an event do not wrap. -/
def ReceiverEvent.Exact : ReceiverEvent → Prop
  | .hashmapUpdate (some (segment, hashmap)) _ =>
      Resource.Exact segment (Bytes.blocks4 hashmap).length
  | _ => True

theorem hashmapUpdatePacket64_eq {update : Option (Nat × Bytes)}
    (h : (ReceiverEvent.hashmapUpdate update env).Exact) :
    r.hashmapUpdatePacket64 update env = some (r.hashmapUpdatePacket update env) := by
  unfold hashmapUpdatePacket64 hashmapUpdatePacket
  split
  · cases update with
    | none => rfl
    | some payload => exact hashmapUpdate64_eq h
  · rfl

/-- Without a wrap, an event does what it does in unbounded arithmetic. -/
theorem Receiver.step64_eq {s : Receiver} {event : ReceiverEvent} (h : event.Exact) :
    s.step64 fullHash event = some (s.step fullHash event) := by
  cases event with
  | hashmapUpdate update env =>
      show (s.resource.hashmapUpdatePacket64 update env).map _ = _
      rw [hashmapUpdatePacket64_eq h]
      rfl
  | _ => rfl

/-- A run without a wrap is the run of unbounded arithmetic, and does not panic. -/
theorem exec_step64_eq {events : List ReceiverEvent} (h : ∀ event ∈ events, event.Exact) :
    exec (Receiver.step64 fullHash) (.accepted r) events = some (.run fullHash r events) := by
  suffices hfrom : ∀ s : Receiver, exec (Receiver.step64 fullHash) s events =
      some (events.foldl (Receiver.step fullHash) s) from hfrom _
  induction events with
  | nil => exact fun s => rfl
  | cons event events ih =>
      intro s
      rw [exec_cons, Receiver.step64_eq (h event (by simp)), Option.bind_some]
      exact ih (fun event' hevent' => h event' (by simp [hevent'])) _

end Refinement

/-! ## The count of the known entries -/

section Counted

variable {fullHash} {r r' : Resource} {segment : Nat} {env : Readings} {s s' : Receiver}

theorem length_writeHashes64 {hashes : List MapHash} {i : Nat} {hashmap hashmap' : List MapHash}
    {height height' : Nat}
    (h : writeHashes64 segment hashes i (hashmap, height) = some (hashmap', height')) :
    hashmap'.length = hashmap.length := by
  induction hashes generalizing i hashmap height with
  | nil =>
      obtain ⟨rfl, -⟩ := Prod.mk.inj (Option.some.inj h)
      rfl
  | cons hash hashes ih =>
      rw [writeHashes64] at h
      split at h
      · exact ih h
      · exact (ih h).trans List.length_set
      · cases h

/-- The height is the number of entries that are not zero. -/
def Counted (hashmap : List MapHash) (height : Nat) : Prop :=
  height = hashmap.countP (· ≠ zeroHash)

/-- Writing a hash over an entry that is zero makes one more entry known. -/
theorem Counted.set {hashmap : List MapHash} {height k : Nat} {hash : MapHash}
    (h : Counted hashmap height) (hk : k < hashmap.length) (hne : hash ≠ zeroHash) :
    Counted (hashmap.set k hash)
      (if hashmap[k]? = some zeroHash then height + 1 else height) := by
  unfold Counted at h ⊢
  have hget := List.getElem?_eq_getElem hk
  rw [List.countP_set hk, hget, if_pos (decide_eq_true hne), ← h]
  by_cases hold : hashmap[k] = zeroHash
  · rw [hold, if_pos rfl, if_neg (by simp), Nat.sub_zero]
  · have hpos : 0 < hashmap.countP (· ≠ zeroHash) :=
      List.countP_pos_iff.mpr ⟨_, List.getElem_mem hk, decide_eq_true hold⟩
    rw [if_neg (fun heq => hold (Option.some.inj heq)), if_pos (decide_eq_true hold)]
    omega

/-- Wherever they go, hashes that are not zero are counted once. -/
theorem Counted.writeHashes64 {hashes : List MapHash} {i : Nat} {hashmap hashmap' : List MapHash}
    {height height' : Nat} (hcounted : Counted hashmap height) (hzero : zeroHash ∉ hashes)
    (h : writeHashes64 segment hashes i (hashmap, height) = some (hashmap', height')) :
    Counted hashmap' height' := by
  induction hashes generalizing i hashmap height with
  | nil =>
      obtain ⟨rfl, rfl⟩ := Prod.mk.inj (Option.some.inj h)
      exact hcounted
  | cons hash hashes ih =>
      have hrest : zeroHash ∉ hashes := fun hmem => hzero (List.mem_cons_of_mem _ hmem)
      have hne : hash ≠ zeroHash := fun heq => hzero (heq ▸ List.mem_cons_self)
      rw [Resource.writeHashes64] at h
      split at h
      · exact ih hcounted hrest h
      · rename_i hplace
        exact ih (hcounted.set (lt_of_place hplace) hne) hrest h
      · cases h

theorem Counted.le {hashmap : List MapHash} {height : Nat} (h : Counted hashmap height) :
    height ≤ hashmap.length :=
  h.trans_le List.countP_le_length

/-- What an update leaves: the slots, and the hashmap with or without the hashes. -/
structure Updated (update : Option (Nat × Bytes)) (r r' : Resource) : Prop where
  slots : SameSlots r r'
  hashmap : (r'.hashmap = r.hashmap ∧ r'.hashmapHeight = r.hashmapHeight) ∨
    ∃ segment hashmap, update = some (segment, hashmap) ∧
      writeHashes64 segment (Bytes.blocks4 hashmap) 0 (r.hashmap, r.hashmapHeight) =
        some (r'.hashmap, r'.hashmapHeight)

/-- An update that goes through. -/
theorem hashmapUpdatePacket64_spec {update : Option (Nat × Bytes)} {effects : List Effect}
    {asks : Bool} (h : r.hashmapUpdatePacket64 update env = some (r', effects, asks)) :
    Updated update r r' ∧ assemblies effects = [] := by
  have hkept : SameSlots r { r with retriesLeft := r.maxRetries } :=
    ⟨rfl, rfl, rfl, rfl, rfl, rfl, rfl⟩
  unfold hashmapUpdatePacket64 at h
  split at h
  · cases update with
    | none =>
        cases h
        exact ⟨⟨hkept, .inl ⟨rfl, rfl⟩⟩, rfl⟩
    | some payload =>
        obtain ⟨segment, hashmap⟩ := payload
        dsimp only at h
        unfold hashmapUpdate64 at h
        split at h
        · cases h
          exact ⟨⟨hkept, .inl ⟨rfl, rfl⟩⟩, rfl⟩
        · dsimp only at h
          obtain ⟨filled, hfilled, hout⟩ := Option.map_eq_some_iff.mp h
          obtain ⟨⟨map, height⟩, hwrite, rfl⟩ := Option.map_eq_some_iff.mp hfilled
          have hslots : SameSlots r { { r with retriesLeft := r.maxRetries } with
              status := .transferring, hashmap := map, hashmapHeight := height } :=
            ⟨rfl, length_writeHashes64 hwrite, rfl, rfl, rfl, rfl, rfl⟩
          dsimp only at hout
          split at hout
          · cases hout
            refine ⟨⟨hslots.trans (cancel_sameSlots _ env), .inr ⟨segment, hashmap, rfl, ?_⟩⟩,
              (cancel_facts _ env).2.2.2.1⟩
            rw [(cancel_sameMap _ env).hashmap, (cancel_sameMap _ env).hashmapHeight]
            exact hwrite
          · cases hout
            exact ⟨⟨hslots.trans ⟨rfl, rfl, rfl, rfl, rfl, rfl, rfl⟩,
              .inr ⟨segment, hashmap, rfl, hwrite⟩⟩, rfl⟩
  · cases h
    exact ⟨⟨SameSlots.refl r, .inl ⟨rfl, rfl⟩⟩, rfl⟩

end Counted

/-! ## Runs -/

section Runs

variable {fullHash} {r : Resource} {s s' : Receiver} {event : ReceiverEvent}

theorem BooksKept.of_same (h : BooksKept s) (hsame : SameSlots s.resource s'.resource)
    (hasked : s'.asked = s.asked) (hstarted : s'.started = s.started) : BooksKept s' where
  slotted := hasked ▸ h.slotted.of_same hsame
  full := by
    rw [hsame.assemblyLock, hsame.parts]
    exact h.full
  empty := by
    rw [hsame.assemblyLock, hsame.parts, hsame.totalParts]
    exact h.empty
  started := by
    rw [hstarted, hsame.assemblyLock]
    exact h.started

/-- What one event does to the hashmap. -/
theorem step64_hashmap (hstep : s.step64 fullHash event = some s') :
    (s'.resource.hashmap = s.resource.hashmap ∧
      s'.resource.hashmapHeight = s.resource.hashmapHeight) ∨
    ∃ segment hashmap env, event = .hashmapUpdate (some (segment, hashmap)) env ∧
      writeHashes64 segment (Bytes.blocks4 hashmap) 0
        (s.resource.hashmap, s.resource.hashmapHeight) =
          some (s'.resource.hashmap, s'.resource.hashmapHeight) := by
  cases event with
  | part data env =>
      obtain rfl := Option.some.inj hstep
      have hstored := (receivePart_spec fullHash s.resource data env).1
      exact .inl ⟨hstored.hashmap, hstored.hashmapHeight⟩
  | requestNext env =>
      obtain rfl := Option.some.inj hstep
      have hsame := (requestNext_spec s.resource env).1
      exact .inl ⟨hsame.hashmap, hsame.hashmapHeight⟩
  | hashmapUpdate update env =>
      obtain ⟨⟨resource, effects, asks⟩, hupdate, rfl⟩ := Option.map_eq_some_iff.mp hstep
      obtain hsame | ⟨segment, hashmap, rfl, hwrite⟩ :=
        (hashmapUpdatePacket64_spec hupdate).1.hashmap
      · exact .inl hsame
      · exact .inr ⟨segment, hashmap, env, rfl, hwrite⟩
  | watchdog env =>
      obtain rfl := Option.some.inj hstep
      have hsame := (watchdog_spec s.resource env).1
      exact .inl ⟨hsame.hashmap, hsame.hashmapHeight⟩
  | cancel env =>
      obtain rfl := Option.some.inj hstep
      have hsame := cancel_sameMap s.resource env
      exact .inl ⟨hsame.hashmap, hsame.hashmapHeight⟩

/-- Every event keeps the books. -/
theorem BooksKept.step64 (h : BooksKept s) (hstep : s.step64 fullHash event = some s') :
    BooksKept s' := by
  cases event with
  | hashmapUpdate update env =>
      obtain ⟨⟨resource, effects, asks⟩, hupdate, rfl⟩ := Option.map_eq_some_iff.mp hstep
      obtain ⟨hupdated, hnone⟩ := hashmapUpdatePacket64_spec hupdate
      refine h.of_same hupdated.slots rfl ?_
      dsimp only
      rw [hnone]
      rfl
  | _ =>
      obtain rfl := Option.some.inj hstep
      exact (h.step _).kept

/-- An update brings no hash that is all zero. -/
def ReceiverEvent.Nonzero : ReceiverEvent → Prop
  | .hashmapUpdate (some (_, hashmap)) _ => zeroHash ∉ Bytes.blocks4 hashmap
  | _ => True

/-- Every event that brings no zero hash keeps the count. -/
theorem Counted.step64 (h : Counted s.resource.hashmap s.resource.hashmapHeight)
    (hnonzero : event.Nonzero) (hstep : s.step64 fullHash event = some s') :
    Counted s'.resource.hashmap s'.resource.hashmapHeight := by
  obtain ⟨hmap, hheight⟩ | ⟨segment, hashmap, env, rfl, hwrite⟩ := step64_hashmap hstep
  · rw [hmap, hheight]
    exact h
  · exact h.writeHashes64 hnonzero hwrite

/-- The books are kept, and the known entries are counted. -/
structure Tallied (s : Receiver) : Prop where
  books : BooksKept s
  counted : Counted s.resource.hashmap s.resource.hashmapHeight

theorem Tallied.step64 (h : Tallied s) (hnonzero : event.Nonzero)
    (hstep : s.step64 fullHash event = some s') : Tallied s' :=
  ⟨h.books.step64 hstep, h.counted.step64 hnonzero hstep⟩

theorem Tallied.height_le (h : Tallied s) : s.resource.hashmapHeight ≤ s.resource.totalParts :=
  calc s.resource.hashmapHeight ≤ s.resource.hashmap.length := h.counted.le
    _ = s.resource.totalParts := h.books.slotted.hashmap

/-- A resource that was accepted: the slots of `accept`, and the advertised hashes. -/
theorem accept64_spec {adv : Advertisement} {last : Option Nat} {callback : Bool}
    (h : accept64 adv last callback = some r) :
    BooksKept (.accepted r) ∧ r.totalParts = adv.n ∧ adv.n * partSlotSize ≤ isizeMax ∧
      writeHashes64 0 (Bytes.blocks4 adv.m) 0 (List.replicate adv.n zeroHash, 0) =
        some (r.hashmap, r.hashmapHeight) := by
  obtain ⟨r₀, haccept, hrest⟩ := Option.bind_eq_some_iff.mp h
  have hkept := booksKept_accepted haccept
  have htotal : r₀.totalParts = adv.n := by
    unfold accept at haccept
    split at haccept
    · cases haccept
    · cases haccept
      rfl
  split at hrest
  · cases hrest
  rename_i hroom
  rw [htotal] at hroom
  have hentries : usizeMul r₀.totalParts maphashLen / maphashLen = adv.n := by
    have hsmall : adv.n * maphashLen < 2 ^ 64 := by
      unfold isizeMax partSlotSize at hroom
      unfold maphashLen
      omega
    rw [htotal, usizeMul_of_lt hsmall]
    exact Nat.mul_div_cancel _ (by decide)
  dsimp only at hrest
  rw [hentries] at hrest
  obtain ⟨⟨hashmap, height⟩, hwrite, rfl⟩ := Option.map_eq_some_iff.mp hrest
  refine ⟨hkept.of_same ⟨rfl, ?_, rfl, rfl, rfl, rfl, rfl⟩ rfl rfl, htotal,
    Nat.le_of_not_lt hroom, hwrite⟩
  calc hashmap.length = (List.replicate adv.n zeroHash).length := length_writeHashes64 hwrite
    _ = adv.n := List.length_replicate
    _ = r₀.totalParts := htotal.symm
    _ = r₀.hashmap.length := hkept.slotted.hashmap.symm

theorem Advertisement.Decoded.exact {adv : Advertisement} (h : adv.Decoded) :
    Exact 0 (Bytes.blocks4 adv.m).length := by
  refine exact_iff.mpr fun _ => ?_
  calc ((Bytes.blocks4 adv.m).length + 0 * hashmapMaxLen) * maphashLen
      = (Bytes.blocks4 adv.m).length * maphashLen := by rw [Nat.zero_mul, Nat.add_zero]
    _ ≤ adv.m.length := Bytes.length_blocks4_le adv.m
    _ < 2 ^ 64 := h.m.trans (by decide)

/-- An advertisement whose part table can be allocated is accepted as in unbounded arithmetic. -/
theorem accept64_eq {adv : Advertisement} (hadv : adv.Decoded)
    (hroom : adv.n * partSlotSize ≤ isizeMax) (last : Option Nat) (callback : Bool) :
    accept64 adv last callback = accept adv last callback := by
  have hsmall : adv.n * maphashLen < 2 ^ 64 := by
    unfold isizeMax partSlotSize at hroom
    unfold maphashLen
    omega
  unfold accept64 accept
  split
  · rfl
  · dsimp only
    rw [Option.bind_some, if_neg (Nat.not_lt.mpr hroom), usizeMul_of_lt hsmall,
      Nat.mul_div_cancel _ (by decide : 0 < maphashLen),
      writeHashes64_eq _ ((Nat.zero_add _).symm ▸ hadv.exact), Nat.zero_mul, Nat.zero_add]
    rfl

/-- Whatever update comes next, what it writes lies in the hashmap; and it goes to its true index
if the end of the last hash can be computed. -/
structure WritesHome (s : Receiver) : Prop where
  inMap : ∀ segment i k, place s.resource.hashmap.length segment i = .entry k →
    k < s.resource.totalParts
  exact : ∀ (segment : Nat) (hashmap : Bytes),
    ((Bytes.blocks4 hashmap).length + segment * hashmapMaxLen) * maphashLen < 2 ^ 64 →
      Exact segment (Bytes.blocks4 hashmap).length ∧
      ∀ i < (Bytes.blocks4 hashmap).length, ∀ k,
        place s.resource.hashmap.length segment i = .entry k →
          k = i + segment * hashmapMaxLen ∧ k < s.resource.totalParts

theorem BooksKept.writesHome (h : BooksKept s) : WritesHome s where
  inMap segment i k hplace := by
    rw [← h.slotted.hashmap]
    exact lt_of_place hplace
  exact segment hashmap hfits := by
    have hexact : Exact segment (Bytes.blocks4 hashmap).length := exact_iff.mpr fun _ => hfits
    refine ⟨hexact, fun i hi k hplace => ?_⟩
    rw [place_of_exact hexact hi] at hplace
    split at hplace
    · rename_i hinside
      obtain rfl := Place.entry.inj hplace
      exact ⟨rfl, h.slotted.hashmap ▸ hinside⟩
    · cases hplace

/-- For every advertisement that is accepted: the part count is the advertised one, and the size
of its hashmap is computed without a wrap. In every state of every run after it, an update writes
only to the hashmap, and to the true index of each hash if the end of the last one can be computed.
The known entries are never more than the parts, as long as no hash is all zero. -/
theorem hashmapWrites_sound (fullHash : Bytes → Digest) {adv : Advertisement}
    {last : Option Nat} {callback : Bool} {r : Resource} (hadv : adv.Decoded)
    (haccept : accept64 adv last callback = some r) (es : List ReceiverEvent) :
    r.totalParts = adv.n ∧ usizeMul r.totalParts maphashLen = r.totalParts * maphashLen ∧
      Exact 0 (Bytes.blocks4 adv.m).length ∧
      Always (Receiver.step64 fullHash) WritesHome (.accepted r) es ∧
      (zeroHash ∉ Bytes.blocks4 adv.m → (∀ event ∈ es, event.Nonzero) →
        Always (Receiver.step64 fullHash)
          (fun s => s.resource.hashmapHeight ≤ s.resource.totalParts) (.accepted r) es) := by
  obtain ⟨hkept, htotal, hroom, hwrite⟩ := accept64_spec haccept
  have hsmall : r.totalParts * maphashLen < 2 ^ 64 := by
    rw [htotal]
    unfold isizeMax partSlotSize at hroom
    unfold maphashLen
    omega
  refine ⟨htotal, usizeMul_of_lt hsmall, hadv.exact, ?_, fun hzero hnonzero => ?_⟩
  · intro done s hdone hrun
    exact (invariant_of_step (fun _ _ _ h hstep => h.step64 hstep) hkept hrun).writesHome
  · have hblank : Counted (List.replicate adv.n zeroHash) 0 :=
      (List.countP_eq_zero.mpr fun hash hhash => by
        rw [List.eq_of_mem_replicate hhash]
        simp).symm
    have hstart : Tallied (.accepted r) := ⟨hkept, hblank.writeHashes64 hzero hwrite⟩
    have hmeets : Meets (Receiver.step64 fullHash) (fun _ event => event.Nonzero)
        (.accepted r) es := meets_of_forall hnonzero _
    exact fun done s hdone hrun =>
      (always_of_meets (fun _ _ _ h hevent hstep => Tallied.step64 h hevent hstep) hstart hmeets
        done s hdone hrun).height_le

/-- Two parts of a transfer of no bytes, and two hashes that are all zero. -/
def zeroAdvertised : Advertisement :=
  { partsAdvertised 2 with t := 0, m := Bytes.ofBlocks [zeroHash, zeroHash] }

/-- Eighty parts, of which the advertisement has 74 hashes. -/
def eightyAdvertised : Advertisement :=
  { partsAdvertised 80 with m := Bytes.ofBlocks (List.replicate 74 sameMapHash) }

/-- A window of 75 parts asks for the second segment, whose hashes come twice. -/
def segmentEvents : List ReceiverEvent :=
  let update := .hashmapUpdate (some (1, Bytes.ofBlocks (List.replicate 6 sameMapHash)))
    slowReadings
  [.requestNext slowReadings, update, update]

theorem hashmapWrites_sound_segment : ∃ r, accept64 eightyAdvertised (some 75) false = some r ∧
    Always (Receiver.step64 sameHash) WritesHome (.accepted r) segmentEvents ∧
    Always (Receiver.step64 sameHash)
      (fun s => s.resource.hashmapHeight ≤ s.resource.totalParts) (.accepted r) segmentEvents ∧
    (exec (Receiver.step64 sameHash) (.accepted r) segmentEvents).map
      (·.resource.hashmapHeight) = some 80 := by
  have hadv : eightyAdvertised.Decoded := by constructor <;> decide +kernel
  obtain ⟨-, -, -, hhome, hheight⟩ := hashmapWrites_sound sameHash hadv
    (show accept64 eightyAdvertised (some 75) false = some _ from rfl) segmentEvents
  refine ⟨_, rfl, hhome, hheight (by decide +kernel) ?_, by decide +kernel⟩
  have hupdate : zeroHash ∉ Bytes.blocks4 (Bytes.ofBlocks (List.replicate 6 sameMapHash)) := by
    decide +kernel
  simp only [segmentEvents, List.forall_mem_cons]
  exact ⟨True.intro, hupdate, hupdate, List.forall_mem_nil _⟩

/-- There may be more parts than bytes, a large segment number wraps and points back to the first
entry, and a hash that is all zero is counted again when it is written over. -/
theorem hashmapWrites_false :
    (¬∀ (adv : Advertisement) (last : Option Nat) (callback : Bool) (r : Resource),
      adv.Decoded → accept64 adv last callback = some r → r.totalParts ≤ adv.t) ∧
    (¬∀ (segment : Nat) (hashmap : Bytes), UpdateDecoded segment hashmap →
      Exact segment (Bytes.blocks4 hashmap).length) ∧
    (¬∀ (adv : Advertisement) (last : Option Nat) (callback : Bool) (r : Resource),
      adv.Decoded → accept64 adv last callback = some r →
        ∀ (segment : Nat) (hashmap : Bytes), UpdateDecoded segment hashmap →
          ∀ i < (Bytes.blocks4 hashmap).length, ∀ k,
            place r.hashmap.length segment i = .entry k →
              i + segment * hashmapMaxLen < r.totalParts) ∧
    ¬∀ (fullHash : Bytes → Digest) (adv : Advertisement) (last : Option Nat) (callback : Bool)
      (r : Resource), adv.Decoded → accept64 adv last callback = some r →
        ∀ es : List ReceiverEvent, (∀ event ∈ es, event.Decoded) →
          Always (Receiver.step64 fullHash)
            (fun s => s.resource.hashmapHeight ≤ s.resource.totalParts) (.accepted r) es := by
  have hadv : zeroAdvertised.Decoded := by constructor <;> decide
  have hfar : UpdateDecoded (2 ^ 61) [1, 1, 1, 1] := by constructor <;> decide
  refine ⟨fun h => ?_, fun h => ?_, fun h => ?_, fun h => ?_⟩
  · have hbound := h zeroAdvertised none false _ hadv rfl
    revert hbound
    decide
  · have hexact := exact_iff.mp (h (2 ^ 61) [1, 1, 1, 1] hfar)
    revert hexact
    decide
  · have htrue := h zeroAdvertised none false _ hadv rfl (2 ^ 61) [1, 1, 1, 1] hfar 0 (by decide) 0
    revert htrue
    decide
  · have hevents : ∀ event ∈ [ReceiverEvent.requestNext slowReadings,
        .hashmapUpdate (some (0, zeroHash.1)) slowReadings], event.Decoded := by
      simp only [List.forall_mem_cons]
      exact ⟨True.intro, ⟨by decide, by decide⟩, List.forall_mem_nil _⟩
    have hheight := h sameHash zeroAdvertised none false _ hadv rfl _ hevents
      _ _ (List.prefix_refl _) rfl
    revert hheight
    decide

end Runs

end Reticulum.Resource
