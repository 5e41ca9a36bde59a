import Reticulum.Transport.ProofFilter

/-!
# No receipt is lost

A receipt leaves the list when it is delivered or culled, or when it has failed and the
list is too long. A check leaves at most `MAX_RECEIPTS`, and what it pushes out while it
is SENT is culled, provided that the clock is not set back by a second: `check_timeout`
then finds the timeout of -1.0 not over.
-/

namespace Reticulum.Receipt.Tracking

variable {F K : Type*} {debug : Bool} {c : Crypto} {t : Clock F} {s : Core F K}
  {inner : Inner F K} {nows : Nat → F} {r : Tracked} {receipts : List Tracked}
  {cells : Nat → Inner F K} {f : Inner F K → F → Inner F K}

/-! ## One pass over some receipts -/

theorem sweep_of_not_mem {cell : Nat} (h : cell ∉ receipts.map Tracked.cell) :
    sweep f nows cells receipts cell = cells cell := by
  induction receipts generalizing cells with
  | nil => rfl
  | cons r receipts ih =>
      rw [List.map_cons, List.mem_cons, not_or] at h
      change sweep f nows (Function.update cells r.cell _) receipts cell = _
      rw [ih h.2, Function.update_of_ne h.1]

theorem sweep_of_mem (hnodup : (receipts.map Tracked.cell).Nodup) (hr : r ∈ receipts) :
    sweep f nows cells receipts r.cell = f (cells r.cell) (nows r.cell) := by
  induction receipts generalizing cells with
  | nil => cases hr
  | cons r' receipts ih =>
      rw [List.map_cons, List.nodup_cons] at hnodup
      change sweep f nows (Function.update cells r'.cell _) receipts r.cell = _
      rcases List.mem_cons.mp hr with rfl | hr
      · rw [sweep_of_not_mem hnodup.1, Function.update_self]
      · have hne : r.cell ≠ r'.cell := fun heq =>
          hnodup.1 (heq ▸ List.mem_map_of_mem hr)
        rw [ih hnodup.2 hr, Function.update_of_ne hne]

/-- What an operation keeps, a pass keeps. -/
theorem sweep_keeps {P : Inner F K → Prop} (hf : ∀ inner now, P inner → P (f inner now))
    {cell : Nat} (h : P (cells cell)) : P (sweep f nows cells receipts cell) := by
  induction receipts generalizing cells with
  | nil => exact h
  | cons r receipts ih =>
      change P (sweep f nows (Function.update cells r.cell _) receipts cell)
      apply ih
      by_cases hcell : cell = r.cell
      · subst hcell
        rw [Function.update_self]
        exact hf _ _ h
      · rw [Function.update_of_ne hcell]
        exact h

/-- A delivered receipt has no timeout. -/
theorem delivered_checkTimeout (times : Times F) (inner : Inner F K) (now : F)
    (h : inner.status = .delivered) : (checkTimeout times inner now).status = .delivered := by
  unfold checkTimeout
  rw [if_pos (by rw [h]; decide)]
  exact h

theorem pushedOut_append_kept (s : Core F K) : pushedOut s ++ kept s = s.receipts :=
  List.take_append_drop _ _

theorem cells_checkReceipts (s : Core F K) : (checkReceipts t nows s).cells =
    sweep (checkTimeout t.toTimes) nows (sweep (cull t) nows s.cells (pushedOut s)) (kept s) := by
  rw [checkReceipts]

theorem receipts_checkReceipts (s : Core F K) : (checkReceipts t nows s).receipts =
    (kept s).filter fun r => provable ((checkReceipts t nows s).cells r.cell) := by
  rw [checkReceipts]

theorem next_checkReceipts (s : Core F K) : (checkReceipts t nows s).next = s.next := by
  rw [checkReceipts]

section Check

variable (hnodup : (s.receipts.map Tracked.cell).Nodup)

include hnodup

theorem nodup_split : ((pushedOut s).map Tracked.cell ++ (kept s).map Tracked.cell).Nodup := by
  rwa [← List.map_append, pushedOut_append_kept]

/-- What a check does to a receipt that it pushes out. -/
theorem cells_pushedOut (hr : r ∈ pushedOut s) :
    (checkReceipts t nows s).cells r.cell = cull t (s.cells r.cell) (nows r.cell) := by
  have hsplit := List.nodup_append.mp (nodup_split hnodup)
  have hnot : r.cell ∉ (kept s).map Tracked.cell := fun hmem =>
    hsplit.2.2 _ (List.mem_map_of_mem hr) _ hmem rfl
  rw [cells_checkReceipts, sweep_of_not_mem hnot, sweep_of_mem hsplit.1 hr]

/-- What is pushed out is not in the list any more. -/
theorem not_mem_of_pushedOut (hr : r ∈ pushedOut s) : r ∉ (checkReceipts t nows s).receipts := by
  intro hmem
  rw [receipts_checkReceipts] at hmem
  exact (List.nodup_append.mp (nodup_split hnodup)).2.2 _ (List.mem_map_of_mem hr) _
    (List.mem_map_of_mem (List.mem_of_mem_filter hmem)) rfl

end Check

/-- A receipt that is not pushed out leaves the list only when it is not provable. -/
theorem leaves_check (hr : r ∈ s.receipts) (hgone : r ∉ (checkReceipts t nows s).receipts) :
    r ∈ pushedOut s ∨ provable ((checkReceipts t nows s).cells r.cell) = false := by
  rw [← pushedOut_append_kept s, List.mem_append] at hr
  rcases hr with hr | hr
  · exact .inl hr
  · right
    by_contra hprovable
    rw [receipts_checkReceipts] at hgone
    exact hgone (List.mem_filter.mpr ⟨hr, Bool.eq_true_of_not_eq_false hprovable⟩)

theorem status_of_not_provable (h : provable inner = false) :
    inner.status = .delivered ∨ inner.status = .culled := by
  cases hstatus : inner.status with
  | delivered => exact .inl rfl
  | culled => exact .inr rfl
  | sent => rw [provable_iff.mpr (.inl hstatus)] at h; cases h
  | failed => rw [provable_iff.mpr (.inr hstatus)] at h; cases h

theorem length_checkReceipts (s : Core F K) :
    (checkReceipts t nows s).receipts.length ≤ maxReceipts := by
  rw [receipts_checkReceipts]
  refine (List.length_filter_le _ _).trans ?_
  rw [kept, List.length_drop]
  omega

/-- A SENT receipt is culled and its callback is started, exactly when the clock is not back
by the timeout of -1.0. -/
theorem cull_sent (h : inner.status = .sent) (now : F) :
    (t.waits inner.sentAt t.minusOne now = false ∧ (cull t inner now).status = .culled ∧
      (cull t inner now).timeoutThreads =
        inner.timeoutThreads ++ inner.timeoutCallback.toList) ∨
    (t.waits inner.sentAt t.minusOne now = true ∧ (cull t inner now).status = .sent) := by
  unfold cull checkTimeout
  dsimp only
  rw [if_neg (not_not.mpr h)]
  cases t.waits inner.sentAt t.minusOne now with
  | true => exact .inr ⟨rfl, h⟩
  | false => exact .inl ⟨rfl, if_pos t.isMinusOne_minusOne, rfl⟩

theorem cull_of_ne (h : inner.status ≠ .sent) (now : F) :
    (cull t inner now).status = inner.status := by
  unfold cull checkTimeout
  rw [if_pos h]

/-! ## What holds between the steps -/

/-- Each receipt of the list has a cell of its own, and a receipt that a proof is about to
remove is delivered. -/
structure Sound (s : Core F K) (pending : List (Task F K)) : Prop where
  nodup : (s.receipts.map Tracked.cell).Nodup
  used : ∀ r ∈ s.receipts, r.cell < s.next
  validates : ∀ kind proof r, .validate kind proof r ∈ pending → r.cell < s.next
  forgets : ∀ cell, .forget cell ∈ pending →
    cell < s.next ∧ (s.cells cell).status = .delivered

theorem Sound.perm {pending pending' : List (Task F K)} (hperm : List.Perm pending pending')
    (h : Sound s pending) : Sound s pending' where
  nodup := h.nodup
  used := h.used
  validates kind proof r hmem := h.validates kind proof r (hperm.mem_iff.mpr hmem)
  forgets cell hmem := h.forgets cell (hperm.mem_iff.mpr hmem)

/-- Tasks go, a list gets shorter, and delivered receipts stay delivered. -/
theorem Sound.move {s' : Core F K} {pending pending' : List (Task F K)} (h : Sound s pending)
    (hlist : List.Sublist s'.receipts s.receipts) (hnext : s'.next = s.next)
    (hkeep : ∀ cell, (s.cells cell).status = .delivered → (s'.cells cell).status = .delivered)
    (hvalidates : ∀ kind proof r, .validate kind proof r ∈ pending' →
      .validate kind proof r ∈ pending ∨ r ∈ s.receipts)
    (hforgets : ∀ cell, .forget cell ∈ pending' → .forget cell ∈ pending ∨
      cell < s.next ∧ (s'.cells cell).status = .delivered) : Sound s' pending' where
  nodup := h.nodup.sublist (hlist.map _)
  used r hr := by
    rw [hnext]
    exact h.used r (hlist.subset hr)
  validates kind proof r hmem := by
    rw [hnext]
    rcases hvalidates kind proof r hmem with hmem | hmem
    · exact h.validates kind proof r hmem
    · exact h.used r hmem
  forgets cell hmem := by
    rw [hnext]
    rcases hforgets cell hmem with hmem | hmem
    · exact ⟨(h.forgets cell hmem).1, hkeep cell (h.forgets cell hmem).2⟩
    · exact hmem

theorem delivered_cull (inner : Inner F K) (now : F) (h : inner.status = .delivered) :
    (cull t inner now).status = .delivered :=
  delivered_checkTimeout _ _ _ h

theorem delivered_checkReceipts {cell : Nat} (h : (s.cells cell).status = .delivered) :
    ((checkReceipts t nows s).cells cell).status = .delivered := by
  rw [cells_checkReceipts]
  exact sweep_keeps (P := fun inner => inner.status = .delivered)
    (fun inner now => delivered_checkTimeout _ inner now)
    (sweep_keeps (P := fun inner => inner.status = .delivered)
      (fun inner now => delivered_cull inner now) h)

/-- No operation on a receipt undoes its delivery. -/
theorem delivered_step {receipt : PacketReceipt} {event : Event F K}
    (h : inner.status = .delivered) :
    ((step debug c t.toTimes receipt inner event).getD inner).status = .delivered := by
  cases hstep : step debug c t.toTimes receipt inner event with
  | none => exact h
  | some inner' =>
      rcases moves_of_does (does_of_step hstep) with heq | hmoves
      · exact heq.trans h
      · rw [h] at hmoves
        cases hmoves

theorem delivered_put {cell : Nat} {inner' : Inner F K}
    (hput : (s.cells cell).status = .delivered → inner'.status = .delivered) (other : Nat)
    (h : (s.cells other).status = .delivered) :
    ((s.put cell inner').cells other).status = .delivered := by
  change (Function.update s.cells cell inner' other).status = .delivered
  by_cases hother : other = cell
  · subst hother
    rw [Function.update_self]
    exact hput h
  · rw [Function.update_of_ne hother]
    exact h

/-- What validating one candidate does. -/
theorem validateCandidate_cases (c : Crypto) (kind : ProofKind) (proof : Bytes) (s : Core F K)
    (r : Tracked) (now : F) :
    validateCandidate c kind proof s r now = (false, s) ∨
    provable (s.cells r.cell) = true ∧ ∃ inner', inner'.status = .delivered ∧
      validateCandidate c kind proof s r now = (true, s.put r.cell inner') := by
  unfold validateCandidate
  cases hprovable : provable (s.cells r.cell) with
  | false => exact .inl rfl
  | true =>
      simp only [if_true]
      cases hfst : (kind.validate c r.receipt proof (s.cells r.cell) now).1 with
      | true => exact .inr ⟨trivial, _, (ProofKind.validate_fst hfst).2, rfl⟩
      | false =>
          rw [ProofKind.validate_snd hfst]
          exact .inl (Prod.ext rfl (put_self s r.cell))

/-- A new receipt has a cell that no task knows of. -/
theorem sound_send {pending : List (Task F K)} (h : Sound s pending) (receipt : PacketReceipt)
    (sentAt timeout : F) : Sound (pushReceipt s receipt sentAt timeout) pending where
  nodup := by
    change ((s.receipts ++ [_]).map Tracked.cell).Nodup
    rw [List.map_append]
    refine List.nodup_append.mpr ⟨h.nodup, List.nodup_singleton _, ?_⟩
    rintro cell hcell _ hnew rfl
    obtain ⟨r, hr, rfl⟩ := List.mem_map.mp hcell
    exact absurd (List.mem_singleton.mp hnew) (Nat.ne_of_lt (h.used r hr))
  used r hr := by
    rcases List.mem_append.mp hr with hr | hr
    · exact Nat.lt_succ_of_lt (h.used r hr)
    · rw [List.mem_singleton.mp hr]
      exact Nat.lt_succ_self s.next
  validates kind proof r hmem := Nat.lt_succ_of_lt (h.validates kind proof r hmem)
  forgets cell hmem := by
    obtain ⟨hcell, hstatus⟩ := h.forgets cell hmem
    refine ⟨Nat.lt_succ_of_lt hcell, ?_⟩
    change (Function.update s.cells s.next _ cell).status = .delivered
    rwa [Function.update_of_ne (Nat.ne_of_lt hcell)]

/-- Every task keeps what holds between the steps. -/
theorem sound_exec {others : List (Task F K)} (task : Task F K) (nows : Nat → F)
    (h : Sound s (task :: others)) :
    Sound (exec debug c t task nows s).core ((exec debug c t task nows s).next ++
      ((exec debug c t task nows s).started.flatten ++ others)) := by
  cases task with
  | select kind proof addressed =>
      refine h.move (List.Sublist.refl _) rfl (fun _ hcell => hcell) ?_ ?_
      · intro kind' proof' r hmem
        rcases List.mem_append.mp hmem with hmem | hmem
        · obtain ⟨r', hr', heq⟩ := List.mem_map.mp hmem
          cases heq
          exact .inr (List.mem_of_mem_filter hr')
        · exact .inl (List.mem_cons_of_mem _ hmem)
      · intro cell hmem
        rcases List.mem_append.mp hmem with hmem | hmem
        · obtain ⟨r', -, heq⟩ := List.mem_map.mp hmem
          cases heq
        · exact .inl (List.mem_cons_of_mem _ hmem)
  | validate kind proof r =>
      simp only [exec]
      obtain heq | ⟨hprovable, inner', hstatus, heq⟩ :=
        validateCandidate_cases c kind proof s r (nows r.cell)
      · rw [heq]
        exact h.move (List.Sublist.refl _) rfl (fun _ hcell => hcell)
          (fun _ _ _ hmem => .inl (List.mem_cons_of_mem _ hmem))
          (fun _ hmem => .inl (List.mem_cons_of_mem _ hmem))
      · rw [heq]
        refine h.move (List.Sublist.refl _) rfl (delivered_put fun _ => hstatus) ?_ ?_
        · intro kind' proof' r' hmem
          rcases List.mem_cons.mp hmem with heq | hmem
          · cases heq
          · exact .inl (List.mem_cons_of_mem _ hmem)
        · intro cell hmem
          rcases List.mem_cons.mp hmem with heq | hmem
          · cases heq
            refine .inr ⟨h.validates kind proof r List.mem_cons_self, ?_⟩
            change (Function.update s.cells r.cell inner' r.cell).status = .delivered
            rwa [Function.update_self]
          · exact .inl (List.mem_cons_of_mem _ hmem)
  | forget cell =>
      exact h.move List.filter_sublist rfl (fun _ hcell => hcell)
        (fun _ _ _ hmem => .inl (List.mem_cons_of_mem _ hmem))
        (fun _ hmem => .inl (List.mem_cons_of_mem _ hmem))
  | send receipt sentAt timeout =>
      refine sound_send ?_ receipt sentAt timeout
      exact h.move (List.Sublist.refl _) rfl (fun _ hcell => hcell)
        (fun _ _ _ hmem => .inl (List.mem_cons_of_mem _ hmem))
        (fun _ hmem => .inl (List.mem_cons_of_mem _ hmem))
  | check =>
      simp only [exec]
      refine h.move ?_ (next_checkReceipts s) (fun _ hcell => delivered_checkReceipts hcell)
        (fun _ _ _ hmem => .inl (List.mem_cons_of_mem _ hmem))
        (fun _ hmem => .inl (List.mem_cons_of_mem _ hmem))
      rw [receipts_checkReceipts]
      exact List.filter_sublist.trans (List.drop_sublist _ _)
  | hold r event =>
      exact h.move (List.Sublist.refl _) rfl (delivered_put delivered_step)
        (fun _ _ _ hmem => .inl (List.mem_cons_of_mem _ hmem))
        (fun _ hmem => .inl (List.mem_cons_of_mem _ hmem))

/-- The list, its cells and the threads. -/
abbrev State (F K : Type*) := Threads.Pool (Core F K) (Task F K)

/-- No receipt is tracked yet. -/
def State.initial (cells : Nat → Inner F K) : State F K where
  core := { receipts := [], cells := cells, next := 0 }
  threads := []

theorem sound_initial (cells : Nat → Inner F K) :
    Sound (State.initial cells).core (State.initial cells).pending where
  nodup := List.nodup_nil
  used _ hr := absurd hr List.not_mem_nil
  validates _ _ _ hmem := absurd hmem List.not_mem_nil
  forgets _ hmem := absurd hmem List.not_mem_nil

variable {e : Threads.Event (Call F K) (Nat → F)}

theorem sound_step {s s' : State F K} (h : Sound s.core s.pending)
    (hstep : Threads.step (system debug c t) s e = some s') : Sound s'.core s'.pending := by
  have hfree : Threads.Guarded (fun (_ : Task F K) (_ : Core F K) _ => True) s e := by
    cases e with
    | call call => trivial
    | run i nows => exact fun _ _ _ => trivial
  refine Threads.invariant_step (I := Sound) (fun _ _ _ hperm h => h.perm hperm)
    (fun _ _ _ _ _ h => h) ?_ ?_ h hfree hstep
  · intro call core pending h
    refine h.move (List.Sublist.refl _) rfl (fun _ hcell => hcell) ?_ ?_
    · intro kind proof r hmem
      rcases List.mem_append.mp hmem with hmem | hmem
      · cases call <;> cases List.mem_singleton.mp hmem
      · exact .inl hmem
    · intro cell hmem
      rcases List.mem_append.mp hmem with hmem | hmem
      · cases call <;> cases List.mem_singleton.mp hmem
      · exact .inl hmem
  · intro task nows core others h _
    exact sound_exec task nows h

/-! ## What a step does to the list -/

/-- The step is a check of the receipts, with what the clock shows. -/
def Checks (s : State F K) (e : Threads.Event (Call F K) (Nat → F)) (nows : Nat → F) : Prop :=
  ∃ i rest, e = .run i nows ∧ s.threads[i]? = some (.check :: rest)

/-- A receipt leaves the list only when it is delivered or culled, or when it has failed and a
check finds more than `MAX_RECEIPTS`. What a check pushes out while it is SENT is culled, and its
timeout callback is started. After a check at most `MAX_RECEIPTS` remain. -/
structure KeepsReceipts (s : State F K) (e : Threads.Event (Call F K) (Nat → F))
    (s' : State F K) : Prop where
  leaves : ∀ r ∈ s.core.receipts, r ∉ s'.core.receipts →
    (s'.core.cells r.cell).status = .delivered ∨ (s'.core.cells r.cell).status = .culled ∨
      (s'.core.cells r.cell).status = .failed ∧ (∃ nows, Checks s e nows) ∧
        maxReceipts < s.core.receipts.length
  culled : ∀ nows, Checks s e nows → ∀ r ∈ pushedOut s.core,
    (s.core.cells r.cell).status = .sent → (s'.core.cells r.cell).status = .culled ∧
      (s'.core.cells r.cell).timeoutThreads =
        (s.core.cells r.cell).timeoutThreads ++ (s.core.cells r.cell).timeoutCallback.toList
  bounded : ∀ nows, Checks s e nows → s'.core.receipts.length ≤ maxReceipts

/-- A check that pushes out a SENT receipt finds the clock less than a second before the time of
sending. -/
def ClockHolds (t : Clock F) (s : State F K) (e : Threads.Event (Call F K) (Nat → F)) : Prop :=
  ∀ nows, Checks s e nows → ∀ r ∈ pushedOut s.core, (s.core.cells r.cell).status = .sent →
    t.waits (s.core.cells r.cell).sentAt t.minusOne (nows r.cell) = false

theorem length_of_mem_pushedOut (hr : r ∈ pushedOut s) : maxReceipts < s.receipts.length := by
  by_contra hle
  rw [pushedOut, Nat.sub_eq_zero_of_le (Nat.le_of_not_lt hle), List.take_zero] at hr
  exact absurd hr List.not_mem_nil

/-- The list after a task that is no check. -/
theorem leaves_exec {others : List (Task F K)} {task : Task F K} (h : Sound s (task :: others))
    (htask : task ≠ .check) (hr : r ∈ s.receipts)
    (hgone : r ∉ (exec debug c t task nows s).core.receipts) :
    ((exec debug c t task nows s).core.cells r.cell).status = .delivered := by
  cases task with
  | select kind proof addressed => exact absurd hr hgone
  | validate kind proof r' =>
      simp only [exec] at hgone
      obtain heq | ⟨-, inner', -, heq⟩ :=
        validateCandidate_cases c kind proof s r' (nows r'.cell)
      · rw [heq] at hgone
        exact absurd hr hgone
      · rw [heq] at hgone
        exact absurd hr hgone
  | forget cell =>
      have hcell : r.cell = cell := by
        by_contra hne
        exact hgone (List.mem_filter.mpr ⟨hr, bne_iff_ne.mpr hne⟩)
      rw [hcell]
      exact (h.forgets cell List.mem_cons_self).2
  | send receipt sentAt timeout => exact absurd (List.mem_append_left _ hr) hgone
  | check => exact absurd rfl htask
  | hold r' event => exact absurd hr hgone

/-- A check keeps the receipts exactly when the clock holds. -/
theorem keepsReceipts_check {s : State F K} {s' : State F K} (h : Sound s.core s.pending)
    (hcheck : Checks s e nows) (hcore : s'.core = checkReceipts t nows s.core) :
    KeepsReceipts s e s' ↔ ClockHolds t s e := by
  have hnows : ∀ nows', Checks s e nows' → nows' = nows := by
    rintro nows' ⟨i', rest', heq', -⟩
    obtain ⟨i, rest, heq, -⟩ := hcheck
    rw [heq] at heq'
    cases heq'
    rfl
  have hpushed : ∀ r ∈ pushedOut s.core,
      s'.core.cells r.cell = cull t (s.core.cells r.cell) (nows r.cell) := by
    intro r hr
    rw [hcore]
    exact cells_pushedOut h.nodup hr
  constructor
  · intro hkeeps nows' hcheck' r hr hsent
    rw [hnows nows' hcheck']
    obtain ⟨hstatus, -⟩ := hkeeps.culled nows hcheck r hr hsent
    rcases cull_sent hsent (t := t) (nows r.cell) with ⟨hwaits, -⟩ | ⟨-, hstill⟩
    · exact hwaits
    · rw [hpushed r hr, hstill] at hstatus
      cases hstatus
  · intro hclock
    have hculled : ∀ r ∈ pushedOut s.core, (s.core.cells r.cell).status = .sent →
        (s'.core.cells r.cell).status = .culled ∧ (s'.core.cells r.cell).timeoutThreads =
          (s.core.cells r.cell).timeoutThreads ++
            (s.core.cells r.cell).timeoutCallback.toList := by
      intro r hr hsent
      rcases cull_sent hsent (t := t) (nows r.cell) with ⟨-, hstatus, hthreads⟩ | ⟨hwaits, -⟩
      · rw [hpushed r hr]
        exact ⟨hstatus, hthreads⟩
      · rw [hclock nows hcheck r hr hsent] at hwaits
        cases hwaits
    refine ⟨fun r hr hgone => ?_, fun _ _ => hculled, fun _ _ => ?_⟩
    · rw [hcore] at hgone
      rcases leaves_check hr hgone with hout | hprovable
      · cases hstatus : (s.core.cells r.cell).status with
        | sent => exact .inr (.inl (hculled r hout hstatus).1)
        | delivered =>
            left
            rw [hpushed r hout, cull_of_ne (by rw [hstatus]; decide), hstatus]
        | culled =>
            right
            left
            rw [hpushed r hout, cull_of_ne (by rw [hstatus]; decide), hstatus]
        | failed =>
            refine .inr (.inr ⟨?_, ⟨nows, hcheck⟩, length_of_mem_pushedOut hout⟩)
            rw [hpushed r hout, cull_of_ne (by rw [hstatus]; decide), hstatus]
      · rw [← hcore] at hprovable
        rcases status_of_not_provable hprovable with hstatus | hstatus
        · exact .inl hstatus
        · exact .inr (.inl hstatus)
    · rw [hcore]
      exact length_checkReceipts s.core

/-- A step that is no check keeps the receipts. -/
theorem keepsReceipts_other {s s' : State F K}
    (hother : ∀ nows, ¬ Checks s e nows)
    (hleaves : ∀ r ∈ s.core.receipts, r ∉ s'.core.receipts →
      (s'.core.cells r.cell).status = .delivered) :
    KeepsReceipts s e s' ↔ ClockHolds t s e := by
  refine iff_of_true ⟨fun r hr hgone => .inl (hleaves r hr hgone), ?_, ?_⟩ ?_
  · exact fun nows hcheck => absurd hcheck (hother nows)
  · exact fun nows hcheck => absurd hcheck (hother nows)
  · exact fun nows hcheck => absurd hcheck (hother nows)

theorem keepsReceipts_iff {s s' : State F K} (h : Sound s.core s.pending)
    (hstep : Threads.step (system debug c t) s e = some s') :
    KeepsReceipts s e s' ↔ ClockHolds t s e := by
  rcases Threads.step_cases hstep with ⟨call, rfl, hcore, -⟩ |
    ⟨i, nows, task, rest, others, rfl, hthread, hcore, hbefore, -⟩
  · refine keepsReceipts_other ?_ fun r hr hgone => ?_
    · rintro nows ⟨i, rest, heq, -⟩
      cases heq
    · rw [hcore] at hgone
      exact absurd hr hgone
  · by_cases htask : task = .check
    · subst htask
      exact keepsReceipts_check h ⟨i, rest, rfl, hthread⟩ hcore
    · refine keepsReceipts_other ?_ fun r hr hgone => ?_
      · rintro nows' ⟨i', rest', heq, hthread'⟩
        cases heq
        rw [hthread] at hthread'
        exact htask (List.cons.inj (Option.some.inj hthread')).1
      · rw [hcore] at hgone ⊢
        exact leaves_exec (h.perm hbefore) htask hr hgone

/-- A proof that goes by its candidates does what validating every receipt does: the same receipts
are delivered, those leave the list, and nothing else changes. After any steps, the next one keeps
the receipts exactly when the clock holds. -/
theorem receipts_kept (debug : Bool) (c : Crypto) (t : Clock F) :
    (∀ (s : Core F K) (proof : Bytes) (addressed : Option Bytes) (now : F),
      AddressedToProved c proof addressed →
      let after := concludeProvedReceipts c .plain proof now s (proofCandidates s proof addressed)
      after.cells = validateAll c proof now s.cells s.receipts ∧
        Delivers s.cells after.cells ∧
        after.receipts = s.receipts.filter (undelivered s.cells after.cells)) ∧
    ∀ (cells : Nat → Inner F K) (es : List (Threads.Event (Call F K) (Nat → F)))
      (s s' : State F K) (e : Threads.Event (Call F K) (Nat → F)),
      Runs.exec (Threads.step (system debug c t)) (State.initial cells) es = some s →
      Threads.step (system debug c t) s e = some s' →
        (KeepsReceipts s e s' ↔ ClockHolds t s e) := by
  constructor
  · intro s proof addressed now hproof
    obtain ⟨hcells, hdelivers, hlist⟩ := proof_filter hproof s now
    dsimp only
    rw [hcells]
    exact ⟨rfl, hdelivers, hlist⟩
  · intro cells es s s' e hrun hstep
    refine keepsReceipts_iff ?_ hstep
    exact Runs.invariant_of_step (P := fun s : State F K => Sound s.core s.pending)
      (fun _ _ _ hs he => sound_step hs he) (sound_initial cells) hrun

/-! ## A clock that is set back -/

/-- Times in whole seconds. -/
def secondsClock : Clock Int where
  waits sentAt timeout now := now ≤ sentAt + timeout
  isMinusOne timeout := timeout = -1
  inTime sentAt now := now ≤ sentAt + 5
  minusOne := -1
  isMinusOne_minusOne := rfl

/-- The receipt of a packet sent at 10. -/
def sentAtTen : Inner Int Nat := Inner.fromParts 10 3600

/-- The receipt with a number. -/
def numbered (i : Nat) : Tracked where
  cell := i
  receipt := sampleReceipt
  truncatedHash := sampleReceipt.hash.take 16
  truncated_eq := rfl

/-- Nothing but receipts of packets sent at 10. -/
def sentCore (n : Nat) : Core Int Nat where
  receipts := (List.range n).map numbered
  cells := fun _ => sentAtTen
  next := n

theorem nodup_sentCore (n : Nat) : ((sentCore n).receipts.map Tracked.cell).Nodup := by
  rw [sentCore, List.map_map]
  exact List.nodup_range.map fun _ _ heq => heq

/-- The steps of sending so many packets. -/
def sends (n : Nat) : List (Threads.Event (Call Int Nat) (Nat → Int)) :=
  (List.range n).flatMap fun i => [.call (.send sampleReceipt 10 3600), .run i fun _ => 10]

theorem pushReceipt_sentCore (n : Nat) :
    pushReceipt (sentCore n) sampleReceipt 10 3600 = sentCore (n + 1) := by
  unfold pushReceipt sentCore
  rw [List.range_succ, List.map_append]
  congr 1
  exact Function.update_eq_self n _

/-- The thread that comes after so many. -/
theorem last_thread (n : Nat) (tasks : List (Task Int Nat)) :
    (List.replicate n [] ++ [tasks])[n]? = some tasks := by
  rw [List.getElem?_append_right (by rw [List.length_replicate]), List.length_replicate,
    Nat.sub_self]
  rfl

theorem exec_sends (n : Nat) :
    Runs.exec (Threads.step (system false (Link.sampleCrypto [sampleReceipt.hash]) secondsClock))
      (State.initial fun _ => sentAtTen) (sends n) =
        some { core := sentCore n, threads := List.replicate n [] } := by
  induction n with
  | zero => rfl
  | succ n ih =>
      have hsends : sends (n + 1) = sends n ++
          [.call (.send sampleReceipt 10 3600), .run n fun _ => 10] := by
        rw [sends, List.range_succ, List.flatMap_append]
        rfl
      rw [hsends, Runs.exec_append_of_eq ih]
      have hset : (List.replicate n ([] : List (Task Int Nat)) ++
          [[Task.send sampleReceipt 10 3600]]).set n [] = List.replicate (n + 1) [] := by
        rw [List.set_append_right _ _ (by rw [List.length_replicate]), List.length_replicate,
          Nat.sub_self, List.replicate_succ']
        rfl
      simp only [Runs.exec_cons, Threads.step, system, start, exec, last_thread,
        Option.bind_some, Runs.exec_nil, pushReceipt_sentCore, List.append_nil, hset]

/-- So many packets were sent, and a check is about to run. -/
def checking (n : Nat) : State Int Nat :=
  { core := sentCore n, threads := List.replicate n [] ++ [[.check]] }

theorem exec_checking (n : Nat) :
    Runs.exec (Threads.step (system false (Link.sampleCrypto [sampleReceipt.hash]) secondsClock))
      (State.initial fun _ => sentAtTen) (sends n ++ [.call .check]) = some (checking n) := by
  rw [Runs.exec_append_of_eq (exec_sends n)]
  rfl

/-- The check has run while the clock showed this. -/
def checked (n : Nat) (now : Int) : State Int Nat :=
  { core := checkReceipts secondsClock (fun _ => now) (sentCore n)
    threads := (List.replicate n [] ++ [[Task.check]]).set n [] }

theorem step_checking (n : Nat) (now : Int) :
    Threads.step (system false (Link.sampleCrypto [sampleReceipt.hash]) secondsClock) (checking n)
      (.run n fun _ => now) = some (checked n now) := by
  simp only [Threads.step, checking, checked, last_thread, system, exec, List.append_nil]

theorem mem_pushedOut_sentCore : numbered 0 ∈ pushedOut (sentCore 1025) := by
  have hlength : (sentCore 1025).receipts.length - maxReceipts = 1 := by
    rw [sentCore, List.length_map, List.length_range, maxReceipts]
  rw [pushedOut, hlength, sentCore, ← List.map_take, List.take_range]
  exact List.mem_singleton_self _

theorem not_mem_checked (now : Int) : numbered 0 ∉ (checked 1025 now).core.receipts :=
  not_mem_of_pushedOut (nodup_sentCore 1025) mem_pushedOut_sentCore

/-- The proof of one of three receipts; and, with one receipt too many, sent at 10, a check at 11
that pushes the oldest out. -/
theorem receipts_kept_pushedOut :
    (concludeProvedReceipts (Link.sampleCrypto [sampleReceipt.hash]) .plain sampleProof 12
      (sentCore 3) (proofCandidates (sentCore 3) sampleProof none)).cells =
        validateAll (Link.sampleCrypto [sampleReceipt.hash]) sampleProof 12 (sentCore 3).cells
          (sentCore 3).receipts ∧
    numbered 0 ∉ (checked 1025 11).core.receipts ∧
    KeepsReceipts (checking 1025) (.run 1025 fun _ => 11) (checked 1025 11) := by
  obtain ⟨hproof, hsteps⟩ :=
    receipts_kept false (Link.sampleCrypto [sampleReceipt.hash]) secondsClock
  refine ⟨(hproof (sentCore 3) sampleProof none 12 fun _ _ h => by cases h).1, not_mem_checked 11,
    (hsteps _ _ _ _ _ (exec_checking 1025) (step_checking 1025 11)).mpr ?_⟩
  rintro nows ⟨i, rest, hrun, -⟩ r - -
  cases hrun
  rfl

/-- With one receipt too many, sent at 10, a check at 5 pushes the oldest out: it stays SENT, and
no callback is started. -/
theorem receipts_kept_false : ∃ (es : List (Threads.Event (Call Int Nat) (Nat → Int)))
    (s s' : State Int Nat) (e : Threads.Event (Call Int Nat) (Nat → Int)),
    Runs.exec (Threads.step (system false (Link.sampleCrypto [sampleReceipt.hash]) secondsClock))
      (State.initial fun _ => sentAtTen) es = some s ∧
    Threads.step (system false (Link.sampleCrypto [sampleReceipt.hash]) secondsClock) s e =
      some s' ∧
    numbered 0 ∈ s.core.receipts ∧ numbered 0 ∉ s'.core.receipts ∧
    (s'.core.cells (numbered 0).cell).status = .sent ∧ ¬ KeepsReceipts s e s' := by
  have hstatus : ((checked 1025 5).core.cells (numbered 0).cell).status = .sent := by
    refine (congrArg Inner.status
      (cells_pushedOut (nodup_sentCore 1025) mem_pushedOut_sentCore)).trans ?_
    rfl
  refine ⟨_, _, checked 1025 5, .run 1025 fun _ => 5, exec_checking 1025, step_checking 1025 5,
    List.mem_of_mem_take mem_pushedOut_sentCore, not_mem_checked 5, hstatus, ?_⟩
  intro hkeeps
  have hcheck : Checks (checking 1025) (.run 1025 fun _ => 5) fun _ => 5 :=
    ⟨1025, [], rfl, last_thread 1025 _⟩
  have hculled := (hkeeps.culled _ hcheck (numbered 0) mem_pushedOut_sentCore rfl).1
  rw [hstatus] at hculled
  cases hculled

end Reticulum.Receipt.Tracking
