import Mathlib.Data.List.Perm.Basic
import Reticulum.Lib.Coalesce
import Reticulum.Transport.OwnAnnounces

/-!
# The pacing of own announces on one interface

Any calls of `admit_own_announce` and `next_own_announce` (`src/transport.rs`): what
leaves the interface is spaced, destinations leave in the order in which they came, and
each announce leaves, waits, or was replaced by a newer one of its destination.

## Implementation notes

Announces are numbered in the order of the calls. `OwnPacing` notes the number of each
announce beside the queue of the interface and what leaves it; `Paced` says that the
notes are those of the queue.
-/

namespace Reticulum.Transport

/-- An announce in the queue: with which number its destination came, and its own number. -/
structure WaitingAnnounce where
  destination : Bytes
  raw : Bytes
  entered : Nat
  number : Nat
  deriving DecidableEq

/-- An announce that left. -/
structure Departure extends WaitingAnnounce where
  time : ℚ
  deriving DecidableEq

/-- An interface and what happened on it: the announces that were admitted, those that wait,
those that left, and those that were replaced, each with what replaced it. -/
structure OwnPacing where
  interface : PacedInterface
  admitted : List (Bytes × Bytes)
  waiting : List WaitingAnnounce
  left : List Departure
  replaced : List (Nat × Nat)

/-- A call on the interface. -/
inductive PacingCall
  | admitOwnAnnounce (destination raw : Bytes) (now : ℚ)
  | nextOwnAnnounce (now : ℚ)
  deriving DecidableEq

namespace OwnPacing

/-- An interface on which nothing waits. -/
def start (i : PacedInterface) : OwnPacing :=
  { interface := { i with ownAnnounceQueue := [] }
    admitted := [], waiting := [], left := [], replaced := [] }

/-- A newer announce takes the place of the one that waits. -/
def takePlace (old new : WaitingAnnounce) : WaitingAnnounce :=
  { old with raw := new.raw, number := new.number }

/-- An announce is queued, with its number. -/
def queue (s : OwnPacing) (announce : WaitingAnnounce) : OwnPacing :=
  { s with
    waiting := Coalesce.offer WaitingAnnounce.destination takePlace s.waiting announce
    replaced := s.replaced ++
      (s.waiting.filter fun w => w.destination == announce.destination).map fun w =>
        (w.number, announce.number) }

/-- The announce of a call, with its number. -/
def numbered (s : OwnPacing) (destination raw : Bytes) : WaitingAnnounce :=
  { destination := destination, raw := raw
    entered := s.admitted.length, number := s.admitted.length }

/-- One call. -/
def step (s : OwnPacing) : PacingCall → OwnPacing
  | .admitOwnAnnounce destination raw now =>
      let (outcome, i) := s.interface.admitOwnAnnounce destination raw now
      let announce := s.numbered destination raw
      let s := { s with interface := i, admitted := s.admitted ++ [(destination, raw)] }
      match outcome with
      | .sent => { s with left := s.left ++ [{ announce with time := now }] }
      | .queued => s.queue announce
  | .nextOwnAnnounce now =>
      let (next, i) := s.interface.nextOwnAnnounce now
      let s := { s with interface := i }
      match next, s.waiting with
      | some (destination, raw), w :: waiting => { s with
          waiting := waiting
          left := s.left ++
            [{ destination := destination, raw := raw
               entered := w.entered, number := w.number, time := now }] }
      | _, _ => s

/-- The calls of a run. -/
def run (i : PacedInterface) (calls : List PacingCall) : OwnPacing := calls.foldl step (start i)

end OwnPacing

/-- The announce with a number that waits or left is the one that was admitted with it, and its
destination came with an announce of that destination. -/
structure WaitingAnnounce.IsOf (admitted : List (Bytes × Bytes)) (w : WaitingAnnounce) : Prop where
  announce : admitted[w.number]? = some (w.destination, w.raw)
  came : (admitted[w.entered]?).map Prod.fst = some w.destination

/-- What holds of an interface after any calls. -/
structure Paced (s : OwnPacing) : Prop where
  spacing : s.left.Pairwise fun a b => a.time + ownAnnounceSpacing ≤ b.time
  oneEach : (s.interface.ownAnnounceQueue.map Prod.fst).Nodup
  queue : s.interface.ownAnnounceQueue = s.waiting.map fun w => (w.destination, w.raw)
  waiting : ∀ w ∈ s.waiting, w.IsOf s.admitted
  left : ∀ x ∈ s.left, x.toWaitingAnnounce.IsOf s.admitted
  inOrder : (s.left.map (·.entered) ++ s.waiting.map (·.entered)).Pairwise (· < ·)
  newest : s.left.Pairwise fun a b => a.destination = b.destination → a.number < b.number
  accounted : (s.left.map (·.number) ++ s.waiting.map (·.number) ++
    s.replaced.map Prod.fst).Perm (List.range s.admitted.length)
  replaced : ∀ p ∈ s.replaced, p.1 < p.2 ∧ p.2 < s.admitted.length ∧
    (s.admitted[p.1]?).map Prod.fst = (s.admitted[p.2]?).map Prod.fst

/-! ## The calls -/

namespace PacedInterface

variable (i : PacedInterface) (destination raw : Bytes) (now : ℚ)

/-- An announce leaves at once when nothing waits and the window is open, and is queued
otherwise. -/
theorem admitOwnAnnounce_eq : i.admitOwnAnnounce destination raw now =
    if i.ownAnnounceQueue = [] ∧ i.ownAnnounceAllowedAt ≤ now then
      (.sent, { i with ownAnnounceAllowedAt := now + ownAnnounceSpacing })
    else
      (.queued, { i with
        ownAnnounceQueue := Coalesce.offer Prod.fst (fun old new => (old.1, new.2))
          i.ownAnnounceQueue (destination, raw) }) := by
  unfold admitOwnAnnounce
  simp only [List.isEmpty_iff]
  split
  · rfl
  · have hmatch : ∀ e : Bytes × Bytes, (e.1 == destination) = true ↔ e.1 = (destination, raw).1 :=
      fun _ => beq_iff_eq
    cases hfind : i.ownAnnounceQueue.findIdx? fun e => e.1 == destination with
    | none => rw [← Coalesce.append_eq_offer hmatch hfind]
    | some k => rw [← Coalesce.modify_eq_offer hmatch hfind]

/-- The first of the queue is released once the window is open. -/
theorem nextOwnAnnounce_cons {next : Bytes × Bytes} {rest : List (Bytes × Bytes)}
    (hqueue : i.ownAnnounceQueue = next :: rest) (hopen : i.ownAnnounceAllowedAt ≤ now) :
    i.nextOwnAnnounce now = (some next, { i with
      ownAnnounceQueue := rest, ownAnnounceAllowedAt := now + ownAnnounceSpacing }) := by
  simp [nextOwnAnnounce, not_lt.mpr hopen, hqueue]

theorem nextOwnAnnounce_none (h : now < i.ownAnnounceAllowedAt ∨ i.ownAnnounceQueue = []) :
    i.nextOwnAnnounce now = (none, i) := by
  unfold nextOwnAnnounce
  split
  · rfl
  · rename_i hopen
    rw [h.resolve_left hopen]

end PacedInterface

/-! ## What the calls keep -/

variable {admitted : List (Bytes × Bytes)} {w : WaitingAnnounce}

theorem WaitingAnnounce.IsOf.append (h : w.IsOf admitted) (more : List (Bytes × Bytes)) :
    w.IsOf (admitted ++ more) where
  announce := by
    rw [List.getElem?_append_left (List.getElem?_eq_some_iff.mp h.announce).1]
    exact h.announce
  came := by
    obtain ⟨entry, hentry, hdest⟩ := Option.map_eq_some_iff.mp h.came
    rw [List.getElem?_append_left (List.getElem?_eq_some_iff.mp hentry).1, hentry]
    exact congrArg some hdest

theorem WaitingAnnounce.IsOf.number_lt (h : w.IsOf admitted) : w.number < admitted.length :=
  (List.getElem?_eq_some_iff.mp h.announce).1

theorem WaitingAnnounce.IsOf.entered_lt (h : w.IsOf admitted) : w.entered < admitted.length := by
  obtain ⟨entry, hentry, -⟩ := Option.map_eq_some_iff.mp h.came
  exact (List.getElem?_eq_some_iff.mp hentry).1

namespace OwnPacing

/-- `Paced`, with what the window and the queue say of what left. -/
structure Kept (s : OwnPacing) : Prop extends Paced s where
  window : ∀ x ∈ s.left, x.time + ownAnnounceSpacing ≤ s.interface.ownAnnounceAllowedAt
  newer : ∀ x ∈ s.left, ∀ w ∈ s.waiting, x.destination = w.destination → x.number < w.number

theorem kept_start (i : PacedInterface) : (start i).Kept where
  spacing := .nil
  oneEach := .nil
  queue := rfl
  waiting := fun _ h => absurd h List.not_mem_nil
  left := fun _ h => absurd h List.not_mem_nil
  inOrder := .nil
  newest := .nil
  accounted := .nil
  replaced := fun _ h => absurd h List.not_mem_nil
  window := fun _ h => absurd h List.not_mem_nil
  newer := fun _ h => absurd h List.not_mem_nil

variable {s : OwnPacing}

/-- The announce that is being admitted is the last one. -/
theorem isOf_numbered (s : OwnPacing) (destination raw : Bytes) :
    (s.numbered destination raw).IsOf (s.admitted ++ [(destination, raw)]) where
  announce := by simp [numbered]
  came := by simp [numbered]

section

variable (h : s.Kept)

include h

/-- The destinations that wait are distinct. -/
theorem Kept.nodup : (s.waiting.map (·.destination)).Nodup := by
  have hnodup := h.oneEach
  rw [h.queue, List.map_map] at hnodup
  exact hnodup

/-- What was replaced stays noted while announces are admitted. -/
theorem replaced_append (entry : Bytes × Bytes) {p : Nat × Nat} (hp : p ∈ s.replaced) :
    p.1 < p.2 ∧ p.2 < (s.admitted ++ [entry]).length ∧
      ((s.admitted ++ [entry])[p.1]?).map Prod.fst =
        ((s.admitted ++ [entry])[p.2]?).map Prod.fst := by
  obtain ⟨hlt, hlast, hsame⟩ := h.replaced p hp
  rw [List.length_append]
  refine ⟨hlt, hlast.trans_le (Nat.le_add_right _ _), ?_⟩
  rwa [List.getElem?_append_left (hlt.trans hlast), List.getElem?_append_left hlast]

/-- An announce leaves at once. -/
theorem Kept.sent (destination raw : Bytes) {now : ℚ}
    (hqueue : s.interface.ownAnnounceQueue = []) (hopen : s.interface.ownAnnounceAllowedAt ≤ now) :
    Kept { s with
      interface := { s.interface with ownAnnounceAllowedAt := now + ownAnnounceSpacing }
      admitted := s.admitted ++ [(destination, raw)]
      left := s.left ++ [{ s.numbered destination raw with time := now }] } := by
  have hwaiting : s.waiting = [] := by
    have hmap := h.queue
    rw [hqueue] at hmap
    exact List.map_eq_nil_iff.mp hmap.symm
  refine
    { spacing := Coalesce.pairwise_concat h.spacing fun x hx => (h.window x hx).trans hopen
      oneEach := h.oneEach
      queue := h.queue
      waiting := fun w hw => (h.waiting w hw).append _
      left := ?left, inOrder := ?inOrder
      newest := Coalesce.pairwise_concat h.newest fun x hx _ => (h.left x hx).number_lt
      accounted := ?accounted
      replaced := fun _ hp => replaced_append h _ hp
      window := ?window
      newer := fun _ _ w hw => absurd (hwaiting ▸ hw) List.not_mem_nil }
  case left =>
    intro x hx
    rcases List.mem_append.mp hx with hx | hx
    · exact (h.left x hx).append _
    · obtain rfl := List.mem_singleton.mp hx
      exact isOf_numbered s destination raw
  case inOrder =>
    have horder := h.inOrder
    simp only [hwaiting, List.map_nil, List.append_nil, List.map_append, List.map_singleton]
      at horder ⊢
    refine Coalesce.pairwise_concat horder fun k hk => ?_
    obtain ⟨x, hx, rfl⟩ := List.mem_map.mp hk
    exact (h.left x hx).entered_lt
  case accounted =>
    have haccounted := h.accounted
    simp only [hwaiting, List.map_nil, List.append_nil, List.map_append, List.map_singleton,
      List.length_append, List.length_singleton, List.range_succ] at haccounted ⊢
    rw [List.append_assoc]
    exact (List.Perm.append_left _ List.perm_append_comm).trans
      (by rw [← List.append_assoc]; exact haccounted.append_right _)
  case window =>
    intro x hx
    rcases List.mem_append.mp hx with hx | hx
    · refine ((h.window x hx).trans hopen).trans ?_
      exact le_add_of_nonneg_right (by norm_num [ownAnnounceSpacing])
    · obtain rfl := List.mem_singleton.mp hx
      exact le_rfl

/-- An announce is queued, in the place of an older one of its destination or at the end. -/
theorem Kept.queued (destination raw : Bytes) {i : PacedInterface}
    (hwindow : i.ownAnnounceAllowedAt = s.interface.ownAnnounceAllowedAt)
    (hqueue : i.ownAnnounceQueue = Coalesce.offer Prod.fst (fun old new => (old.1, new.2))
      s.interface.ownAnnounceQueue (destination, raw)) :
    Kept (queue { s with interface := i, admitted := s.admitted ++ [(destination, raw)] }
      (s.numbered destination raw)) := by
  have hkeys : (i.ownAnnounceQueue.map Prod.fst).Nodup := by
    rw [hqueue]
    exact Coalesce.keys_offer (fun _ => rfl) h.oneEach
  have hnotes : i.ownAnnounceQueue =
      (Coalesce.offer WaitingAnnounce.destination takePlace s.waiting
        (s.numbered destination raw)).map fun w => (w.destination, w.raw) := by
    have hmap : (Coalesce.offer WaitingAnnounce.destination takePlace s.waiting
          (s.numbered destination raw)).map (fun w => (w.destination, w.raw)) =
        Coalesce.offer Prod.fst (fun old new => (old.1, new.2))
          (s.waiting.map fun w => (w.destination, w.raw)) (destination, raw) := by
      refine Coalesce.map_offer (a := s.numbered destination raw) ?_ ?_ s.waiting
      · exact fun _ => rfl
      · exact fun _ => rfl
    rw [hqueue, h.queue, hmap]
  have hmatch : ∀ w : WaitingAnnounce,
      (w.destination == (s.numbered destination raw).destination) = true ↔
        w.destination = (s.numbered destination raw).destination := fun _ => beq_iff_eq
  refine
    { spacing := h.spacing, oneEach := hkeys, queue := hnotes
      waiting := ?waiting
      left := fun x hx => (h.left x hx).append _
      inOrder := ?inOrder
      newest := h.newest
      accounted := ?accounted, replaced := ?replaced
      window := fun x hx => hwindow ▸ h.window x hx
      newer := ?newer }
  case waiting =>
    intro w hw
    rcases Coalesce.mem_offer hw with hw | ⟨rfl, -⟩ | ⟨c, hc, hdest, rfl⟩
    · exact (h.waiting w hw).append _
    · exact isOf_numbered s destination raw
    · refine ⟨?_, ((h.waiting c hc).append _).came⟩
      rw [show (takePlace c (s.numbered destination raw)).destination = destination from hdest]
      exact (isOf_numbered s destination raw).announce
  case newer =>
    intro x hx w hw hsame
    rcases Coalesce.mem_offer hw with hw | ⟨rfl, -⟩ | ⟨c, -, -, rfl⟩
    · exact h.newer x hx w hw hsame
    · exact (h.left x hx).number_lt
    · exact (h.left x hx).number_lt
  case inOrder =>
    dsimp only [queue]
    by_cases hmem : destination ∈ s.waiting.map (·.destination)
    · obtain ⟨as, c, bs, hsplit, -, hoffer⟩ :=
        Coalesce.offer_of_mem (a := s.numbered destination raw) takePlace hmem
      have horder := h.inOrder
      rw [hsplit] at horder
      rw [hoffer]
      simpa only [List.map_append, List.map_cons, takePlace] using horder
    · rw [Coalesce.offer_of_not_mem (a := s.numbered destination raw) hmem, List.map_append,
        ← List.append_assoc]
      refine Coalesce.pairwise_concat h.inOrder fun k hk => ?_
      rcases List.mem_append.mp hk with hk | hk
      · obtain ⟨x, hx, rfl⟩ := List.mem_map.mp hk
        exact (h.left x hx).entered_lt
      · obtain ⟨w, hw, rfl⟩ := List.mem_map.mp hk
        exact (h.waiting w hw).entered_lt
  case accounted =>
    have haccounted := h.accounted
    dsimp only [queue]
    rw [List.length_append, List.length_singleton, List.range_succ]
    refine List.Perm.trans ?_ (haccounted.append_right [s.admitted.length])
    by_cases hmem : destination ∈ s.waiting.map (·.destination)
    · obtain ⟨as, c, bs, hsplit, hc, hoffer⟩ :=
        Coalesce.offer_of_mem (a := s.numbered destination raw) takePlace hmem
      have hnodup := h.nodup
      rw [hsplit] at hnodup
      -- The number of the announce that is replaced goes from one list to the other.
      rw [hoffer, hsplit, Coalesce.filter_of_nodup hmatch hnodup hc, List.perm_iff_count]
      intro k
      simp only [List.map_append, List.map_cons, List.map_nil, List.count_append, List.count_cons,
        List.count_nil, takePlace, numbered]
      omega
    · rw [Coalesce.offer_of_not_mem (a := s.numbered destination raw) hmem,
        Coalesce.filter_of_not_mem hmatch hmem, List.perm_iff_count]
      intro k
      simp only [List.map_append, List.map_cons, List.map_nil, List.count_append, List.count_cons,
        List.count_nil, numbered]
      omega
  case replaced =>
    intro p hp
    rcases List.mem_append.mp hp with hp | hp
    · exact replaced_append h _ hp
    · obtain ⟨w, hw, rfl⟩ := List.mem_map.mp hp
      obtain ⟨hw, hdest⟩ := List.mem_filter.mp hw
      have hlt := (h.waiting w hw).number_lt
      have hold := ((h.waiting w hw).append [(destination, raw)]).announce
      have hnew := (isOf_numbered s destination raw).announce
      dsimp only [queue]
      refine ⟨hlt, by simp [numbered], ?_⟩
      rw [hold, hnew]
      exact congrArg some ((hmatch w).mp hdest)

/-- The first of the queue is released. -/
theorem Kept.released {waiting : List WaitingAnnounce} {now : ℚ}
    (hwaiting : s.waiting = w :: waiting) (hopen : s.interface.ownAnnounceAllowedAt ≤ now) :
    Kept { s with
      interface := { s.interface with
        ownAnnounceQueue := waiting.map fun w => (w.destination, w.raw)
        ownAnnounceAllowedAt := now + ownAnnounceSpacing }
      waiting := waiting
      left := s.left ++ [{ w with time := now }] } := by
  have hw : w ∈ s.waiting := hwaiting ▸ List.mem_cons_self
  have hrest : ∀ v ∈ waiting, v ∈ s.waiting := fun v hv =>
    hwaiting ▸ List.mem_cons_of_mem w hv
  have hnodup := h.nodup
  rw [hwaiting, List.map_cons, List.nodup_cons] at hnodup
  have horder := h.inOrder
  rw [hwaiting] at horder
  have haccounted := h.accounted
  rw [hwaiting] at haccounted
  refine
    { spacing := Coalesce.pairwise_concat h.spacing fun x hx => (h.window x hx).trans hopen
      oneEach := ?oneEach
      queue := rfl
      waiting := fun v hv => h.waiting v (hrest v hv)
      left := ?left, inOrder := ?inOrder
      newest := Coalesce.pairwise_concat h.newest fun x hx hsame => h.newer x hx w hw hsame
      accounted := ?accounted
      replaced := h.replaced
      window := ?window, newer := ?newer }
  case oneEach =>
    rw [List.map_map]
    exact hnodup.2
  case left =>
    intro x hx
    rcases List.mem_append.mp hx with hx | hx
    · exact h.left x hx
    · obtain rfl := List.mem_singleton.mp hx
      exact h.waiting w hw
  case inOrder =>
    rw [List.map_append, List.append_assoc]
    exact horder
  case accounted =>
    rw [List.map_append, List.append_assoc (s.left.map _)]
    exact haccounted
  case window =>
    intro x hx
    rcases List.mem_append.mp hx with hx | hx
    · refine ((h.window x hx).trans hopen).trans ?_
      exact le_add_of_nonneg_right (by norm_num [ownAnnounceSpacing])
    · obtain rfl := List.mem_singleton.mp hx
      exact le_rfl
  case newer =>
    intro x hx v hv hsame
    rcases List.mem_append.mp hx with hx | hx
    · exact h.newer x hx v (hrest v hv) hsame
    · obtain rfl := List.mem_singleton.mp hx
      exact absurd (List.mem_map.mpr ⟨v, hv, hsame.symm⟩) hnodup.1

/-- Every call keeps the invariant. -/
theorem Kept.step (call : PacingCall) : (s.step call).Kept := by
  cases call with
  | admitOwnAnnounce destination raw now =>
      have hadmit := s.interface.admitOwnAnnounce_eq destination raw now
      rw [OwnPacing.step, hadmit]
      by_cases hopen : s.interface.ownAnnounceQueue = [] ∧ s.interface.ownAnnounceAllowedAt ≤ now
      · rw [if_pos hopen]
        exact h.sent destination raw hopen.1 hopen.2
      · rw [if_neg hopen]
        exact h.queued destination raw rfl rfl
  | nextOwnAnnounce now =>
      by_cases hclosed : now < s.interface.ownAnnounceAllowedAt
      · rw [OwnPacing.step, s.interface.nextOwnAnnounce_none now (.inl hclosed)]
        exact h
      · cases hwaiting : s.waiting with
        | nil =>
            have hqueue : s.interface.ownAnnounceQueue = [] := by rw [h.queue, hwaiting]; rfl
            rw [OwnPacing.step, s.interface.nextOwnAnnounce_none now (.inr hqueue)]
            exact h
        | cons w waiting =>
            have hqueue : s.interface.ownAnnounceQueue =
                (w.destination, w.raw) :: waiting.map fun w => (w.destination, w.raw) := by
              rw [h.queue, hwaiting]
              rfl
            have hnext := s.interface.nextOwnAnnounce_cons now hqueue (not_lt.mp hclosed)
            rw [OwnPacing.step, hnext, hwaiting]
            exact h.released hwaiting (not_lt.mp hclosed)

end

/-- After any calls on an interface on which nothing waits, whatever the clock reads: what left
is spaced, at most one announce of each destination waits, destinations leave in the order in
which they came, and every announce has left, waits, or was replaced by a newer one. -/
theorem ownAnnounces_paced (i : PacedInterface) (calls : List PacingCall) : Paced (run i calls) := by
  have hkept : ∀ s : OwnPacing, s.Kept → (calls.foldl OwnPacing.step s).Kept := by
    induction calls with
    | nil => exact fun _ h => h
    | cons call calls ih => exact fun s h => ih (s.step call) (h.step call)
  exact (hkept (start i) (kept_start i)).toPaced

end OwnPacing

end Reticulum.Transport
