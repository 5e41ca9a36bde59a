import Reticulum.Destination.Basic
import Reticulum.Lib.Runs

/-!
# Ratchets of a destination with clones

Rotations, announces, decryptions and write-backs of the clones of one destination
(`src/destination.rs`, `store_announced_ratchets` in `src/transport.rs`). A rotation
starts from the shared list, so that the lists form one history cut to the number of
ratchets that are retained. A copy takes the shared list when its generation differs
from the shared one. The reload of `decrypt` replaces the list of a copy and leaves
its generation, so the copy then holds whatever the file held: `retained_run` is
about the runs in which the file holds the shared list when a copy that is not
frozen reads it.

## Implementation notes

A copy that is written back was cloned from the slot, and a freeze is not lifted, so
that the slot is frozen when the copy is. An announce that is answered from a cache
puts no ratchet into anything.
-/

namespace Reticulum

/-- A ratchet whose public key was put into an announce, with the generation of the shared
list then, and whether the copy that announced was frozen. -/
structure AnnouncedRatchet where
  ratchet : Bytes
  generation : Nat
  byFrozen : Bool
  deriving DecidableEq

/-- The clones of a destination, what they share, the ratchets that were announced, and the
lists that rotations started from, the latest first. -/
structure Clones (ι : Type*) where
  clones : ι → Destination
  cell : RatchetCell
  announced : List AnnouncedRatchet
  starts : List (List Bytes)

/-- What can happen to the ratchets of a destination. -/
inductive RatchetEvent (ι : Type*)
  | clone (source target : ι)
  | rotate (copy : ι) (now : Nat) (key : Bytes) (writes : Bool)
  | announce (copy : ι) (now : Nat) (key : Bytes) (writes : Bool)
  | decrypt (copy : ι) (opens : List Bytes → Bool) (read : RatchetRead) (writes : Bool)
  | writeBack (slot copy : ι)
  | freeze (copy : ι)

section Step

variable {ι : Type*} [DecidableEq ι]

/-- The list that a rotation of a copy starts from, when one is made. -/
def rotationStart (d : Destination) (cell : RatchetCell) (now : Nat) (key : Bytes)
    (writes : Bool) : List (List Bytes) :=
  match (d.rotateRatchets cell now key writes).1 with
  | .ok true => [(d.adoptSharedRatchets cell.shared).ratchets.getD []]
  | _ => []

/-- The clones after an event. -/
def ratchetStep (w : Clones ι) : RatchetEvent ι → Option (Clones ι)
  | .clone source target =>
      some { w with clones := Function.update w.clones target (w.clones source) }
  | .rotate copy now key writes =>
      let (_, d, cell) := (w.clones copy).rotateRatchets w.cell now key writes
      some { w with
        clones := Function.update w.clones copy d
        cell := cell
        starts := rotationStart (w.clones copy) w.cell now key writes ++ w.starts }
  | .announce copy now key writes =>
      let (ratchet, d, cell) := (w.clones copy).rotateForAnnounce w.cell now key writes
      some
        { clones := Function.update w.clones copy d
          cell := cell
          announced := (match ratchet with
            | .ok (some ratchet) =>
                [{ ratchet := ratchet, generation := cell.shared.generation
                   byFrozen := (w.clones copy).ratchetsFrozen }]
            | _ => []) ++ w.announced
          starts := rotationStart (w.clones copy) w.cell now key writes ++ w.starts }
  | .decrypt copy opens read writes =>
      let (_, d, cell) := (w.clones copy).decrypt w.cell opens read writes
      some { w with clones := Function.update w.clones copy d, cell := cell }
  | .writeBack slot copy =>
      if (w.clones copy).ratchetsFrozen && !(w.clones slot).ratchetsFrozen then none
      else some { w with
        clones := Function.update w.clones slot
          ((w.clones slot).storeAnnouncedRatchets (w.clones copy)) }
  | .freeze copy =>
      some { w with
        clones := Function.update w.clones copy
          { w.clones copy with ratchetsFrozen := true } }

end Step

variable {ι : Type*}

/-- Every announced ratchet, of those that count, is tried by the next decryption of each copy
that is not frozen, until so many rotations have followed. -/
def AnnouncedTried (counts : AnnouncedRatchet → Prop) (retained : Nat) (w : Clones ι) : Prop :=
  ∀ a ∈ w.announced, counts a → w.cell.shared.generation < a.generation + retained →
    ∀ i, (w.clones i).ratchetsFrozen = false → ∀ opens read writes,
      a.ratchet ∈ ((w.clones i).decrypt w.cell opens read writes).1

/-- Of two rotations, the list that one started from contains that of the other. -/
def StartsContained (w : Clones ι) : Prop :=
  w.starts.Pairwise fun later earlier => later ⊆ earlier ∨ earlier ⊆ later

/-- Of two rotations, the later started from the list of the earlier with newer ratchets in
front, cut to the number that is retained. -/
def StartsExtend (retained : Nat) (w : Clones ι) : Prop :=
  w.starts.Pairwise fun later earlier => ∃ newer, later = (newer ++ earlier).take retained

/-- Clones of one destination with ratchets, before anything happens to them. -/
structure FreshClones (retained : Nat) (w : Clones ι) : Prop where
  same : ∃ (d : Destination) (frozen : ι → Bool), d.identity.isSome = true ∧
    d.retainedRatchets = retained ∧ d.ratchets.isSome = true ∧
    d.ratchets = w.cell.shared.ratchets ∧ d.ratchetGeneration = w.cell.shared.generation ∧
    w.clones = fun i => { d with ratchetsFrozen := frozen i }
  announced : w.announced = []
  starts : w.starts = []

/-- When a copy that is not frozen reads the file after a failed attempt, the file holds the
shared list. -/
def ReadsShared (w : Clones ι) : RatchetEvent ι → Prop
  | .decrypt copy opens read _ => (w.clones copy).ratchetsFrozen = false →
      opens (Destination.usableRatchets
        ((w.clones copy).synced w.cell.shared).ratchets) = false →
      w.cell.shared.ratchets = some (w.cell.read read)
  | _ => True

/-! ## One copy -/

variable {list : List Bytes}

namespace Destination

variable {d : Destination} {cell : RatchetCell} {now : Nat} {key : Bytes} {writes : Bool}

/-- A copy that agrees with the shared state: when its generation is the shared one, so is its
list. -/
structure Agrees (retained : Nat) (cell : RatchetCell) (d : Destination) : Prop where
  identity : d.identity.isSome = true
  retained : d.retainedRatchets = retained
  enabled : d.ratchets.isSome = true
  older : d.ratchetGeneration ≤ cell.shared.generation
  current : d.ratchetGeneration = cell.shared.generation → d.ratchets = cell.shared.ratchets

theorem adoptSharedRatchets_eq (d : Destination) (shared : SharedRatchetState) :
    ∃ ratchets time generation, d.adoptSharedRatchets shared =
      { d with
        ratchets := ratchets, latestRatchetTime := time, ratchetGeneration := generation } := by
  unfold adoptSharedRatchets
  split <;> exact ⟨_, _, _, rfl⟩

/-- A copy that agrees holds the shared list after it has synced. -/
theorem ratchets_adopt {retained : Nat} (h : Agrees retained cell d)
    (hshared : cell.shared.ratchets.isSome = true) :
    (d.adoptSharedRatchets cell.shared).ratchets = cell.shared.ratchets ∧
      (d.adoptSharedRatchets cell.shared).ratchetGeneration = cell.shared.generation := by
  unfold adoptSharedRatchets
  split
  · exact ⟨rfl, rfl⟩
  · rename_i hsame
    have hgeneration : d.ratchetGeneration = cell.shared.generation := by
      by_contra hne
      exact hsame ⟨Ne.symm hne, hshared⟩
    exact ⟨h.current hgeneration, hgeneration⟩

theorem shared_persistRatchets : (d.persistRatchets cell writes).shared = cell.shared := by
  unfold persistRatchets
  split
  · rfl
  · split <;> rfl

variable (now key writes) in
/-- What a rotation does to a copy that agrees: nothing but a sync, or a new ratchet in front of
the shared list. -/
theorem rotateRatchets_cases {retained : Nat} (h : Agrees retained cell d)
    (hlist : cell.shared.ratchets = some list) (hfrozen : d.ratchetsFrozen = false) :
    let result := d.rotateRatchets cell now key writes
    (result.1 = .ok false ∧ result.2.2 = cell ∧ result.2.1 = d.adoptSharedRatchets cell.shared) ∨
    (result.1 = .ok true ∧ result.2.2.shared.ratchets = some ((key :: list).take retained) ∧
      result.2.2.shared.generation = cell.shared.generation + 1 ∧
      result.2.1.ratchets = result.2.2.shared.ratchets ∧
      result.2.1.ratchetGeneration = result.2.2.shared.generation ∧
      result.2.1.identity = d.identity ∧ result.2.1.retainedRatchets = d.retainedRatchets ∧
      result.2.1.ratchetsFrozen = d.ratchetsFrozen) := by
  have hadopt := (ratchets_adopt h (by rw [hlist]; rfl)).1
  obtain ⟨ratchets, time, generation, heq⟩ := adoptSharedRatchets_eq d cell.shared
  dsimp only
  unfold rotateRatchets
  rw [hfrozen, Bool.and_false, if_neg Bool.false_ne_true,
    if_neg (by rw [Option.isNone_eq_false_iff.mpr h.enabled]; exact Bool.false_ne_true)]
  dsimp only
  split
  · right
    rw [heq] at hadopt ⊢
    dsimp only at hadopt
    refine ⟨rfl, ?_, ?_, rfl, rfl, rfl, rfl, hfrozen⟩
    · simp [cleanRatchets, hadopt, hlist, h.retained]
    · simp [shared_persistRatchets]
  · exact .inl ⟨rfl, rfl, rfl⟩

/-- A copy that agrees still does when it has synced. -/
theorem Agrees.adopt {retained : Nat} (h : Agrees retained cell d)
    (hshared : cell.shared.ratchets.isSome = true) :
    Agrees retained cell (d.adoptSharedRatchets cell.shared) := by
  obtain ⟨hratchets, hgeneration⟩ := ratchets_adopt h hshared
  obtain ⟨ratchets, time, generation, heq⟩ := adoptSharedRatchets_eq d cell.shared
  rw [heq] at hratchets hgeneration ⊢
  refine ⟨h.identity, h.retained, ?_, hgeneration.le, fun _ => hratchets⟩
  dsimp only at hratchets ⊢
  rw [hratchets]
  exact hshared

/-- The first attempt of `decrypt` tries the shared list. -/
theorem synced_eq_adopt {retained : Nat} (h : Agrees retained cell d) :
    d.synced cell.shared = d.adoptSharedRatchets cell.shared := if_pos h.enabled

theorem mem_decrypt {retained : Nat} (h : Agrees retained cell d)
    (hlist : cell.shared.ratchets = some list) {ratchet : Bytes} (hmem : ratchet ∈ list)
    (hlength : ratchet.length = 32) (opens : List Bytes → Bool) (read : RatchetRead) :
    ratchet ∈ (d.decrypt cell opens read writes).1 := by
  have hadopted := h.adopt (by rw [hlist]; rfl)
  have hratchets := (ratchets_adopt h (by rw [hlist]; rfl)).1
  have hfirst : ratchet ∈ usableRatchets (d.adoptSharedRatchets cell.shared).ratchets := by
    unfold usableRatchets
    rw [hratchets, hlist]
    exact List.mem_filter.mpr ⟨hmem, by simpa using hlength⟩
  unfold decrypt
  dsimp only
  rw [synced_eq_adopt h, if_neg (by simp [Option.isNone_eq_false_iff.mpr hadopted.identity])]
  split
  · exact hfirst
  · split
    · exact hfirst
    · exact List.mem_append_left _ hfirst

/-- The copy holds the list of the file after a reload; a file that is missing counts as
empty. -/
theorem reloadRatchets_eq (d : Destination) (cell : RatchetCell) (path : String)
    (read : RatchetRead) (writes : Bool) :
    (d.reloadRatchets cell path read writes).1 =
        { d with ratchets := some (cell.read read), ratchetsPath := some path } ∧
      (d.reloadRatchets cell path read writes).2.shared = cell.shared := by
  unfold reloadRatchets
  split
  · rename_i hmissing
    have hread : cell.read read = [] := by
      cases read with
      | version age => simp [RatchetCell.read, List.isEmpty_iff.mp hmissing]
      | unreadable => rfl
    exact ⟨by rw [hread], shared_persistRatchets⟩
  · exact ⟨rfl, rfl⟩

/-- What `decrypt` does to a copy: it syncs, and after a failure the file is read. -/
theorem decrypt_cases (d : Destination) (cell : RatchetCell) (opens : List Bytes → Bool)
    (read : RatchetRead) (writes : Bool) :
    (d.decrypt cell opens read writes).2 = (d.synced cell.shared, cell) ∨
    ∃ path, opens (usableRatchets (d.synced cell.shared).ratchets) = false ∧
      (d.decrypt cell opens read writes).2 =
        (d.synced cell.shared).reloadRatchets cell path read writes := by
  unfold decrypt
  dsimp only
  split
  · exact .inl rfl
  split
  · exact .inl rfl
  rename_i hfailed
  split
  · exact .inl rfl
  · rename_i path _
    refine .inr ⟨path, ?_, rfl⟩
    simp only [Bool.or_eq_true, not_or, Bool.not_eq_true] at hfailed
    exact hfailed.1

/-- `decrypt` leaves the shared state. -/
theorem shared_decrypt (opens : List Bytes → Bool) (read : RatchetRead) :
    (d.decrypt cell opens read writes).2.2.shared = cell.shared := by
  obtain heq | ⟨path, -, heq⟩ := decrypt_cases d cell opens read writes
  · rw [heq]
  · rw [heq]
    exact (reloadRatchets_eq _ _ _ _ _).2

theorem frozen_synced (shared : SharedRatchetState) :
    (d.synced shared).ratchetsFrozen = d.ratchetsFrozen := by
  unfold synced adoptSharedRatchets
  repeat' split
  all_goals rfl

theorem frozen_decrypt (opens : List Bytes → Bool) (read : RatchetRead) :
    (d.decrypt cell opens read writes).2.1.ratchetsFrozen = d.ratchetsFrozen := by
  obtain heq | ⟨path, -, heq⟩ := decrypt_cases d cell opens read writes
  · rw [heq]
    exact frozen_synced _
  · rw [heq, (reloadRatchets_eq _ _ _ _ _).1]
    exact frozen_synced _

/-- A copy agrees after `decrypt`, when the file that is read holds the shared list. -/
theorem Agrees.decrypt {retained : Nat} (h : Agrees retained cell d)
    (hshared : cell.shared.ratchets.isSome = true) {opens : List Bytes → Bool} {read : RatchetRead}
    (hread : opens (usableRatchets (d.synced cell.shared).ratchets) = false →
      cell.shared.ratchets = some (cell.read read)) :
    Agrees retained cell (d.decrypt cell opens read writes).2.1 := by
  have hadopted := h.adopt hshared
  rw [← synced_eq_adopt h] at hadopted
  obtain heq | ⟨path, hfailed, heq⟩ := decrypt_cases d cell opens read writes
  · rw [heq]
    exact hadopted
  · rw [heq, (reloadRatchets_eq _ _ _ _ _).1]
    exact ⟨hadopted.identity, hadopted.retained, rfl, hadopted.older,
      fun _ => (hread hfailed).symm⟩

/-- A frozen copy does not rotate. -/
theorem rotateRatchets_frozen (cell : RatchetCell) (now : Nat) (key : Bytes) (writes : Bool)
    (hfrozen : d.ratchetsFrozen = true) :
    (d.rotateRatchets cell now key writes).2 = (d, cell) ∧
      rotationStart d cell now key writes = [] := by
  unfold rotationStart rotateRatchets
  rw [hfrozen, Bool.and_true]
  cases hratchets : d.ratchets with
  | none => exact ⟨rfl, rfl⟩
  | some list => exact ⟨rfl, rfl⟩

variable (now key writes) in
/-- A copy that agrees holds the shared list after a rotation. -/
theorem ratchets_rotateRatchets {retained : Nat} (h : Agrees retained cell d)
    (hshared : cell.shared.ratchets.isSome = true) (hfrozen : d.ratchetsFrozen = false) :
    (d.rotateRatchets cell now key writes).2.1.ratchets =
      (d.rotateRatchets cell now key writes).2.2.shared.ratchets := by
  obtain ⟨list, hlist⟩ := Option.isSome_iff_exists.mp hshared
  obtain ⟨-, hcell, hd⟩ | ⟨-, -, -, hratchets, -⟩ :=
    rotateRatchets_cases now key writes h hlist hfrozen
  · rw [hcell, hd]
    exact (ratchets_adopt h hshared).1
  · exact hratchets

theorem frozen_storeAnnouncedRatchets (slot announced : Destination) :
    (slot.storeAnnouncedRatchets announced).ratchetsFrozen = slot.ratchetsFrozen := by
  unfold storeAnnouncedRatchets
  split <;> rfl

/-- A slot agrees after a copy that does was written back to it. -/
theorem Agrees.storeAnnouncedRatchets {retained : Nat} {slot : Destination}
    (h : Agrees retained cell slot) (hd : Agrees retained cell d) :
    Agrees retained cell (slot.storeAnnouncedRatchets d) := by
  unfold Destination.storeAnnouncedRatchets
  split
  · exact ⟨h.identity, h.retained, hd.enabled, hd.older, hd.current⟩
  · exact h

/-- An announce rotates as a rotation does, and carries the newest ratchet then. -/
theorem rotateForAnnounce_spec (d : Destination) (cell : RatchetCell) (now : Nat) (key : Bytes)
    (writes : Bool) :
    (d.rotateForAnnounce cell now key writes).2 = (d.rotateRatchets cell now key writes).2 ∧
      ∀ ratchet, (d.rotateForAnnounce cell now key writes).1 = .ok (some ratchet) →
        ratchet.length = 32 ∧
          ((d.rotateRatchets cell now key writes).2.1.ratchets.getD [])[0]? = some ratchet := by
  unfold rotateForAnnounce
  split
  · rename_i hnone
    refine ⟨?_, fun _ hok => by cases hok⟩
    unfold rotateRatchets
    rw [Option.isNone_iff_eq_none.mp hnone]
    rfl
  · generalize d.rotateRatchets cell now key writes = result
    obtain ⟨outcome, d', cell'⟩ := result
    cases outcome with
    | error e => exact ⟨rfl, fun _ hok => by cases hok⟩
    | ok rotated =>
        dsimp only
        split
        · exact ⟨rfl, fun _ hok => by cases hok⟩
        · rename_i ratchet rest hlist
          split
          · rename_i hlength
            refine ⟨rfl, ?_⟩
            rintro _ ⟨⟩
            rw [hlist]
            exact ⟨hlength, rfl⟩
          · exact ⟨rfl, fun _ hok => by cases hok⟩

theorem Agrees.of_shared {retained : Nat} {cell' : RatchetCell} (h : Agrees retained cell d)
    (hshared : cell'.shared = cell.shared) : Agrees retained cell' d :=
  ⟨h.identity, h.retained, h.enabled, hshared ▸ h.older, hshared ▸ h.current⟩

end Destination

/-! ## Runs -/

section Runs

variable {retained : Nat} {w w' : Clones ι}

/-- What a run keeps: the copies that are not frozen agree with the shared state, each announced
ratchet stands as far back in the shared list as rotations have followed it, and the shared list
extends those that rotations started from. -/
structure OneHistory (retained : Nat) (w : Clones ι) (list : List Bytes) : Prop where
  shared : w.cell.shared.ratchets = some list
  agrees : ∀ i, (w.clones i).ratchetsFrozen = false → (w.clones i).Agrees retained w.cell
  announced : ∀ a ∈ w.announced, a.byFrozen = false → a.ratchet.length = 32 ∧
    a.generation ≤ w.cell.shared.generation ∧
    (w.cell.shared.generation < a.generation + retained →
      list[w.cell.shared.generation - a.generation]? = some a.ratchet)
  extends_ : ∀ start ∈ w.starts, ∃ newer, list = (newer ++ start).take retained
  starts : StartsExtend retained w

theorem oneHistory_fresh (h : FreshClones retained w) : ∃ list, OneHistory retained w list := by
  obtain ⟨d, frozen, hidentity, hretained, henabled, hratchets, hgeneration, hclones⟩ := h.same
  obtain ⟨list, hlist⟩ := Option.isSome_iff_exists.mp henabled
  refine ⟨list, hratchets ▸ hlist, ?_, ?_, ?_, ?_⟩
  · intro i _
    rw [hclones]
    exact ⟨hidentity, hretained, henabled, hgeneration.le, fun _ => hratchets⟩
  · rw [h.announced]
    intro a hmem
    cases hmem
  · rw [h.starts]
    intro start hmem
    cases hmem
  · unfold StartsExtend
    rw [h.starts]
    exact List.Pairwise.nil

variable [DecidableEq ι]

/-- Only one copy changes, and the shared state does not. -/
theorem OneHistory.update (h : OneHistory retained w list) (copy : ι) {d : Destination}
    (cell : RatchetCell) (hshared : cell.shared = w.cell.shared)
    (hd : d.ratchetsFrozen = false → d.Agrees retained w.cell) :
    OneHistory retained { w with clones := Function.update w.clones copy d, cell := cell }
      list where
  shared := by rw [hshared, h.shared]
  agrees := by
    intro i hi
    dsimp only at hi ⊢
    by_cases heq : i = copy
    · subst heq
      rw [Function.update_self] at hi ⊢
      exact (hd hi).of_shared hshared
    · rw [Function.update_of_ne heq] at hi ⊢
      exact (h.agrees i hi).of_shared hshared
  announced := by
    rw [hshared]
    exact h.announced
  extends_ := h.extends_
  starts := h.starts

/-- The clones after a rotation of a copy. -/
def Clones.rotated (w : Clones ι) (copy : ι) (now : Nat) (key : Bytes) (writes : Bool) :
    Clones ι :=
  { w with
    clones := Function.update w.clones copy
      ((w.clones copy).rotateRatchets w.cell now key writes).2.1
    cell := ((w.clones copy).rotateRatchets w.cell now key writes).2.2
    starts := rotationStart (w.clones copy) w.cell now key writes ++ w.starts }

/-- A copy that rotates does so from the shared list, and the others are behind it then. -/
theorem OneHistory.rotated (h : OneHistory retained w list) (copy : ι) (now : Nat) (key : Bytes)
    (writes : Bool) : ∃ list', OneHistory retained (w.rotated copy now key writes) list' := by
  cases hfrozen : (w.clones copy).ratchetsFrozen with
  | true =>
      obtain ⟨hsame, hstart⟩ := Destination.rotateRatchets_frozen w.cell now key writes hfrozen
      have hupdate := h.update copy w.cell rfl (h.agrees copy)
      refine ⟨list, ?_⟩
      unfold Clones.rotated
      rw [hsame, hstart]
      exact hupdate
  | false =>
      have hagrees := h.agrees copy hfrozen
      have hadopt := (Destination.ratchets_adopt hagrees (by rw [h.shared]; rfl)).1
      obtain ⟨hresult, hcell, hd⟩ | ⟨hresult, hlist, hgeneration, hratchets, hsynced, hidentity,
          hretained, hfrozen'⟩ :=
        Destination.rotateRatchets_cases now key writes hagrees h.shared hfrozen
      · have hstart : rotationStart (w.clones copy) w.cell now key writes = [] := by
          unfold rotationStart
          rw [hresult]
        have hupdate := h.update copy w.cell rfl
          fun _ => hagrees.adopt (by rw [h.shared]; rfl)
        refine ⟨list, ?_⟩
        unfold Clones.rotated
        rw [hcell, hd, hstart]
        exact hupdate
      · have hstart : rotationStart (w.clones copy) w.cell now key writes = [list] := by
          unfold rotationStart
          rw [hresult, hadopt, h.shared]
          rfl
        refine ⟨(key :: list).take retained, hlist, ?_, ?_, ?_, ?_⟩
        · intro i hi
          unfold Clones.rotated at hi ⊢
          dsimp only at hi ⊢
          by_cases heq : i = copy
          · subst heq
            rw [Function.update_self] at hi ⊢
            refine ⟨hidentity ▸ hagrees.identity, hretained.trans hagrees.retained, ?_,
              hsynced.le, fun _ => hratchets⟩
            rw [hratchets, hlist]
            rfl
          · rw [Function.update_of_ne heq] at hi ⊢
            have hother := h.agrees i hi
            have hbehind := hother.older
            refine ⟨hother.identity, hother.retained, hother.enabled, ?_, ?_⟩
            · omega
            · intro hcurrent
              omega
        · intro a ha hcounts
          obtain ⟨hlength, hle, hplace⟩ := h.announced a ha hcounts
          refine ⟨hlength, ?_, ?_⟩
          · unfold Clones.rotated
            dsimp only
            omega
          · unfold Clones.rotated
            dsimp only
            rw [hgeneration]
            intro hlater
            have hback : w.cell.shared.generation + 1 - a.generation =
                w.cell.shared.generation - a.generation + 1 := by omega
            rw [hback, List.getElem?_take_of_lt (by omega), List.getElem?_cons_succ]
            exact hplace (by omega)
        · intro start hmem
          unfold Clones.rotated at hmem
          dsimp only at hmem
          rw [hstart, List.singleton_append, List.mem_cons] at hmem
          rcases hmem with rfl | hmem
          · exact ⟨[key], rfl⟩
          · obtain ⟨newer, heq⟩ := h.extends_ start hmem
            refine ⟨key :: newer, ?_⟩
            rw [heq, List.cons_append]
            cases retained with
            | zero => rfl
            | succ retained => simp [List.take_succ_cons, List.take_take]
        · unfold StartsExtend Clones.rotated
          dsimp only
          rw [hstart, List.singleton_append, List.pairwise_cons]
          exact ⟨h.extends_, h.starts⟩

/-- What an announce adds to the announced ratchets. -/
def announcedBy (d : Destination) (cell : RatchetCell) (now : Nat) (key : Bytes) (writes : Bool) :
    List AnnouncedRatchet :=
  match (d.rotateForAnnounce cell now key writes).1 with
  | .ok (some ratchet) =>
      [{ ratchet := ratchet
         generation := (d.rotateForAnnounce cell now key writes).2.2.shared.generation
         byFrozen := d.ratchetsFrozen }]
  | _ => []

/-- The ratchet that a copy announces is the first of the shared list. -/
theorem OneHistory.announced_head {copy : ι} {now : Nat} {key : Bytes} {writes : Bool}
    (hagrees : (w.clones copy).ratchetsFrozen = false → (w.clones copy).Agrees retained w.cell)
    (hshared : w.cell.shared.ratchets.isSome = true)
    (h : OneHistory retained (w.rotated copy now key writes) list) {a : AnnouncedRatchet}
    (ha : a ∈ announcedBy (w.clones copy) w.cell now key writes) (hcounts : a.byFrozen = false) :
    a.ratchet.length = 32 ∧
      a.generation = (w.rotated copy now key writes).cell.shared.generation ∧
      list[0]? = some a.ratchet := by
  obtain ⟨hsame, hratchet⟩ :=
    Destination.rotateForAnnounce_spec (w.clones copy) w.cell now key writes
  unfold announcedBy at ha
  split at ha
  · rename_i ratchet hok
    obtain rfl := List.mem_singleton.mp ha
    obtain ⟨hlength, hfirst⟩ := hratchet ratchet hok
    have hheld := Destination.ratchets_rotateRatchets now key writes (hagrees hcounts) hshared
      hcounts
    refine ⟨hlength, by rw [hsame]; rfl, ?_⟩
    have hlist : ((w.clones copy).rotateRatchets w.cell now key writes).2.2.shared.ratchets =
      some list := h.shared
    rw [hheld, hlist] at hfirst
    exact hfirst
  · cases ha

/-- A ratchet that a copy announces joins the history. -/
theorem OneHistory.announce (h : OneHistory retained w list) (copy : ι) (now : Nat) (key : Bytes)
    (writes : Bool) :
    ∃ list', OneHistory retained
      { w.rotated copy now key writes with
        announced := announcedBy (w.clones copy) w.cell now key writes ++ w.announced } list' := by
  obtain ⟨list', hrotated⟩ := h.rotated copy now key writes
  refine ⟨list', hrotated.shared, hrotated.agrees, ?_, hrotated.extends_, hrotated.starts⟩
  intro a ha hcounts
  rcases List.mem_append.mp ha with ha | ha
  · obtain ⟨hlength, hgeneration, hfirst⟩ := OneHistory.announced_head (h.agrees copy)
      (by rw [h.shared]; rfl) hrotated ha hcounts
    refine ⟨hlength, hgeneration.le, fun _ => ?_⟩
    rw [hgeneration]
    dsimp only
    rw [Nat.sub_self]
    exact hfirst
  · exact hrotated.announced a ha hcounts

theorem ratchetStep_announce (w : Clones ι) (copy : ι) (now : Nat) (key : Bytes) (writes : Bool) :
    ratchetStep w (.announce copy now key writes) = some
      { w.rotated copy now key writes with
        announced := announcedBy (w.clones copy) w.cell now key writes ++ w.announced } := by
  obtain ⟨hsame, -⟩ := Destination.rotateForAnnounce_spec (w.clones copy) w.cell now key writes
  unfold ratchetStep Clones.rotated announcedBy
  rw [← hsame]

theorem ratchetStep_decrypt (w : Clones ι) (copy : ι) (opens : List Bytes → Bool)
    (read : RatchetRead) (writes : Bool) :
    ratchetStep w (.decrypt copy opens read writes) = some
      { w with
        clones := Function.update w.clones copy
          ((w.clones copy).decrypt w.cell opens read writes).2.1
        cell := ((w.clones copy).decrypt w.cell opens read writes).2.2 } := rfl

/-- An event keeps the one history. -/
theorem oneHistory_step (w : Clones ι) (event : RatchetEvent ι) (w' : Clones ι)
    (h : ∃ list, OneHistory retained w list) (hevent : ReadsShared w event)
    (hstep : ratchetStep w event = some w') : ∃ list, OneHistory retained w' list := by
  obtain ⟨list, h⟩ := h
  cases event with
  | clone source target =>
      obtain rfl := Option.some.inj hstep
      exact ⟨list, h.update target w.cell rfl (h.agrees source)⟩
  | rotate copy now key writes =>
      obtain rfl := Option.some.inj hstep
      exact h.rotated copy now key writes
  | announce copy now key writes =>
      rw [ratchetStep_announce] at hstep
      obtain rfl := Option.some.inj hstep
      exact h.announce copy now key writes
  | decrypt copy opens read writes =>
      have hagrees : ((w.clones copy).decrypt w.cell opens read writes).2.1.ratchetsFrozen = false →
          ((w.clones copy).decrypt w.cell opens read writes).2.1.Agrees retained w.cell := by
        intro hfrozen
        rw [Destination.frozen_decrypt] at hfrozen
        exact (h.agrees copy hfrozen).decrypt (by rw [h.shared]; rfl) (hevent hfrozen)
      rw [ratchetStep_decrypt] at hstep
      have hnext := Option.some.inj hstep
      rw [← hnext]
      exact ⟨list, h.update copy _ (Destination.shared_decrypt opens read) hagrees⟩
  | writeBack slot copy =>
      simp only [ratchetStep] at hstep
      by_cases hlifted :
          ((w.clones copy).ratchetsFrozen && !(w.clones slot).ratchetsFrozen) = true
      · rw [if_pos hlifted] at hstep
        cases hstep
      · rw [if_neg hlifted] at hstep
        obtain rfl := Option.some.inj hstep
        refine ⟨list, h.update slot w.cell rfl ?_⟩
        intro hfrozen
        rw [Destination.frozen_storeAnnouncedRatchets] at hfrozen
        have hcopy : (w.clones copy).ratchetsFrozen = false := by simpa [hfrozen] using hlifted
        exact (h.agrees slot hfrozen).storeAnnouncedRatchets (h.agrees copy hcopy)
  | freeze copy =>
      obtain rfl := Option.some.inj hstep
      exact ⟨list, h.update copy w.cell rfl fun hfrozen => by cases hfrozen⟩

omit [DecidableEq ι] in
/-- The shared list holds every ratchet that was announced and is not past its time. -/
theorem OneHistory.tried (h : OneHistory retained w list) :
    AnnouncedTried (·.byFrozen = false) retained w := by
  intro a ha hcounts hlater i hi opens read writes
  obtain ⟨hlength, -, hplace⟩ := h.announced a ha hcounts
  exact Destination.mem_decrypt (h.agrees i hi) h.shared
    (List.mem_of_getElem? (hplace hlater)) hlength opens read

/-- In a run in which a copy that is not frozen finds the shared list in the file when it reads it,
a ratchet that such a copy announced is tried by the next decryption of every other until
`retained` rotations have followed, and rotations start from lists of one history. -/
theorem retained_run (w : Clones ι) (events : List (RatchetEvent ι)) (h : FreshClones retained w)
    (hmeets : Runs.Meets ratchetStep ReadsShared w events) :
    Runs.Always ratchetStep
      (fun w => AnnouncedTried (·.byFrozen = false) retained w ∧ StartsExtend retained w) w
      events := by
  have hhistory := Runs.always_of_meets oneHistory_step (oneHistory_fresh h) hmeets
  intro done w' hdone hrun
  obtain ⟨list, hlist⟩ := hhistory done w' hdone hrun
  exact ⟨hlist.tried, hlist.starts⟩

end Runs

/-- A destination with ratchets that were just enabled. -/
def freshlyEnabled (retained : Nat) : Destination where
  hash := List.replicate 16 0
  nameHash := List.replicate 10 0
  destType := .single
  direction := .inbound
  identity := some
    { publicKey := ⟨List.replicate 64 0, rfl⟩
      sign := fun _ => ⟨List.replicate 64 0, rfl⟩ }
  ratchets := some []
  latestRatchetTime := 0
  ratchetInterval := defaultRatchetInterval
  retainedRatchets := retained
  pathResponses := fun _ => none
  defaultAppData := none
  ratchetsPath := some "ratchets"
  ratchetsFrozen := false
  ratchetGeneration := 0

/-- Two clones of it, and an empty ratchet file. -/
def freshlyCloned (retained : Nat) : Clones Bool where
  clones := fun _ => freshlyEnabled retained
  cell := { shared := { ratchets := some [], latestRatchetTime := 0, generation := 0 }
            files := [[]] }
  announced := []
  starts := []

theorem freshlyCloned_fresh (retained : Nat) : FreshClones retained (freshlyCloned retained) :=
  ⟨⟨freshlyEnabled retained, fun _ => false, rfl, rfl, rfl, rfl, rfl, rfl⟩, rfl, rfl⟩

/-- A clone announces, the other fails to decrypt and reads the file, and both rotate. -/
def announcedAndRead : List (RatchetEvent Bool) :=
  [.announce false 1801 (List.replicate 32 1) true,
   .decrypt true (fun _ => false) (.version 0) true,
   .rotate true 3602 (List.replicate 32 2) true,
   .rotate false 5403 (List.replicate 32 3) true]

theorem retained_run_two_clones :
    Runs.Always ratchetStep
      (fun w => AnnouncedTried (·.byFrozen = false) 512 w ∧ StartsExtend 512 w)
      (freshlyCloned 512) announcedAndRead := by
  refine retained_run _ _ (freshlyCloned_fresh 512) ?_
  intro w₁ h₁
  obtain rfl := Option.some.inj h₁
  refine ⟨True.intro, ?_⟩
  intro w₂ h₂
  refine ⟨fun _ _ => by decide +kernel, ?_⟩
  intro w₃ h₃
  refine ⟨True.intro, ?_⟩
  intro w₄ h₄
  exact ⟨True.intro, True.intro⟩

/-- With one ratchet retained, the lists that three rotations start from do not contain each
other. -/
theorem starts_contained_false :
    ¬ ∀ (retained : Nat) (w : Clones Bool) (events : List (RatchetEvent Bool)),
      FreshClones retained w →
        Runs.Always ratchetStep
          (fun w => AnnouncedTried (fun _ => True) retained w ∧ StartsContained w) w events := by
  intro h
  have hall := h 1 (freshlyCloned 1)
    [.rotate false 1801 (List.replicate 32 1) true, .rotate false 3602 (List.replicate 32 2) true,
     .rotate false 5403 (List.replicate 32 3) true] (freshlyCloned_fresh 1) _ _ (List.prefix_refl _)
    rfl
  have hstarts := hall.2
  unfold StartsContained at hstarts
  revert hstarts
  decide +kernel

end Reticulum
