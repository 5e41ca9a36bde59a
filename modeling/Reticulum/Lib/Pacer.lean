import Mathlib.Algebra.Order.Group.Defs
import Mathlib.Data.List.Basic
import Mathlib.Order.MinMax

/-!
# A pacer

Items go out at least `pace` apart. One that is accepted goes out at once when its
scheduled time has come, up to a tolerance; otherwise it waits, and a drain sends
the first one that waits. The schedule knows nothing of when items were drained. So
an item may overtake those that wait or follow the last one too closely, unless the
pacer is rested whenever an item goes out at once (`good_accept`).

## Implementation notes

Zero stands for a time before all others, as the source has it: a drain at time zero
would not be remembered.
-/

/-- What a pacer keeps: the time scheduled last, what waits, and the last drain. -/
structure Pacer (T β : Type*) where
  scheduled : Option T
  pending : List (T × β)
  lastSent : Option T

namespace Pacer

variable {T β : Type*} [AddCommGroup T] [LinearOrder T] (pace tolerance : T)

/-- Nothing was ever accepted. -/
def idle : Pacer T β := { scheduled := none, pending := [], lastSent := none }

/-- The time that the next item is scheduled for. -/
def dispatchAt (p : Pacer T β) (now : T) : T := max now (p.scheduled.getD (now - pace) + pace)

/-- The next item goes out at once. -/
def AtOnce (p : Pacer T β) (now : T) : Prop := p.dispatchAt pace now ≤ now + tolerance

instance (p : Pacer T β) (now : T) : Decidable (p.AtOnce pace tolerance now) :=
  inferInstanceAs (Decidable (_ ≤ _))

/-- An item is accepted: it goes out, or waits for its time. -/
def accept (p : Pacer T β) (now : T) (b : β) : Pacer T β × List β :=
  if p.AtOnce pace tolerance now then
    ({ p with scheduled := some (p.dispatchAt pace now) }, [b])
  else
    ({ p with
        scheduled := some (p.dispatchAt pace now)
        pending := p.pending ++ [(p.dispatchAt pace now, b)] }, [])

/-- Items that are accepted at the same time. -/
def acceptAll (p : Pacer T β) (now : T) : List β → Pacer T β × List β
  | [] => (p, [])
  | b :: bs =>
      let (p, sent) := p.accept pace tolerance now b
      let (p, rest) := acceptAll p now bs
      (p, sent ++ rest)

/-- The last drain was too recent. -/
def recent (p : Pacer T β) (now : T) : Bool :=
  0 < p.lastSent.getD 0 && now - p.lastSent.getD 0 < pace

/-- The first item that waits goes out, if its time has come. -/
def drain (p : Pacer T β) (now : T) : Pacer T β × List β :=
  match p.pending with
  | [] => (p, [])
  | (t, b) :: rest =>
      if now < t || p.recent pace now then (p, [])
      else ({ p with pending := rest, lastSent := some now }, [b])

/-- Drains at these times, one after the other. -/
def drainAll (p : Pacer T β) : List T → Pacer T β × List (T × β)
  | [] => (p, [])
  | now :: times =>
      let (p, sent) := p.drain pace now
      let (p, rest) := drainAll p times
      (p, sent.map (now, ·) ++ rest)

/-- Nothing waits, and the schedule and the last drain are `pace` back. -/
structure Rested (p : Pacer T β) (now : T) : Prop where
  scheduled : ∀ t, p.scheduled = some t → t + pace ≤ now
  pending : p.pending = []
  lastSent : ∀ t, p.lastSent = some t → t + pace ≤ now

/-- The items went out in the order in which they were accepted, `pace` apart, and those that
have not still wait. The rest says what keeps it so. -/
structure Good (p : Pacer T β) (accepted : List β) (dispatched : List (T × β)) : Prop where
  order : accepted = dispatched.map Prod.snd ++ p.pending.map Prod.snd
  apart : dispatched.Pairwise fun x y => x.1 + pace ≤ y.1
  spaced : p.pending.Pairwise fun x y => x.1 + pace ≤ y.1
  scheduled : ∀ e ∈ p.pending, ∃ t, p.scheduled = some t ∧ e.1 ≤ t
  sent : ∀ d ∈ dispatched, (∃ t, p.lastSent = some t ∧ 0 < t ∧ d.1 ≤ t) ∨
    (∃ t, p.scheduled = some t ∧ d.1 ≤ t) ∧ ∀ e ∈ p.pending, d.1 + pace ≤ e.1

variable {pace tolerance} {p : Pacer T β} {accepted : List β} {dispatched : List (T × β)}
  {now : T}

theorem good_idle : Good pace (idle : Pacer T β) [] [] where
  order := rfl
  apart := List.Pairwise.nil
  spaced := List.Pairwise.nil
  scheduled := fun _ hmem => absurd hmem List.not_mem_nil
  sent := fun _ hmem => absurd hmem List.not_mem_nil

variable (now) in
theorem scheduled_le_dispatchAt {t : T} (h : p.scheduled = some t) :
    t + pace ≤ p.dispatchAt pace now := by
  unfold dispatchAt
  rw [h, Option.getD_some]
  exact le_max_right _ _

theorem dispatchAt_of_rested (h : p.Rested pace now) : p.dispatchAt pace now = now := by
  unfold dispatchAt
  apply max_eq_left
  cases hscheduled : p.scheduled with
  | none => exact (sub_add_cancel now pace).le
  | some t => exact h.scheduled t hscheduled

theorem acceptAll_append (bs bs' : List β) :
    p.acceptAll pace tolerance now (bs ++ bs') =
      (((p.acceptAll pace tolerance now bs).1.acceptAll pace tolerance now bs').1,
        (p.acceptAll pace tolerance now bs).2 ++
          ((p.acceptAll pace tolerance now bs).1.acceptAll pace tolerance now bs').2) := by
  induction bs generalizing p with
  | nil => rfl
  | cons b bs ih =>
      simp only [List.cons_append, acceptAll, ih, List.append_assoc]

theorem pairwise_snoc {l : List (T × β)} {x : T × β}
    (h : l.Pairwise fun x y => x.1 + pace ≤ y.1) (hx : ∀ d ∈ l, d.1 + pace ≤ x.1) :
    (l ++ [x]).Pairwise fun x y => x.1 + pace ≤ y.1 := by
  rw [List.pairwise_append]
  refine ⟨h, List.pairwise_singleton _ _, ?_⟩
  intro d hd y hy
  obtain rfl := List.mem_singleton.mp hy
  exact hx d hd

variable (pace now) in
theorem drain_of_pending {t : T} {b : β} {rest : List (T × β)} (h : p.pending = (t, b) :: rest) :
    p.drain pace now = if now < t || p.recent pace now then (p, [])
      else ({ p with pending := rest, lastSent := some now }, [b]) := by
  unfold drain
  rw [h]

variable [IsOrderedAddMonoid T]

/-- What has gone out is `pace` back when the pacer is rested. -/
theorem apart_of_rested (h : Good pace p accepted dispatched) (hrested : p.Rested pace now) :
    ∀ d ∈ dispatched, d.1 + pace ≤ now := by
  intro d hd
  obtain ⟨t, ht, -, hle⟩ | ⟨⟨t, ht, hle⟩, -⟩ := h.sent d hd
  · exact (add_le_add_left hle pace).trans (hrested.lastSent t ht)
  · exact (add_le_add_left hle pace).trans (hrested.scheduled t ht)

/-- An item that goes out at once does so from a rested pacer, or waits behind the others. -/
theorem good_accept (hpace : 0 ≤ pace) (h : Good pace p accepted dispatched)
    (hrested : p.AtOnce pace tolerance now → p.Rested pace now) (b : β) :
    Good pace (p.accept pace tolerance now b).1 (accepted ++ [b])
      (dispatched ++ (p.accept pace tolerance now b).2.map (now, ·)) := by
  have hmono : ∀ t, p.scheduled = some t → t ≤ p.dispatchAt pace now := fun t ht =>
    (le_add_of_nonneg_right hpace).trans (scheduled_le_dispatchAt now ht)
  unfold accept
  by_cases honce : p.AtOnce pace tolerance now
  · have hrest := hrested honce
    have hnil := hrest.pending
    rw [if_pos honce, dispatchAt_of_rested hrest]
    constructor
    · simp [h.order, hnil]
    · exact pairwise_snoc h.apart (apart_of_rested h hrest)
    · exact h.spaced
    · intro e he
      rw [hnil] at he
      cases he
    · intro d hd
      rw [hnil]
      rcases List.mem_append.mp hd with hd | hd
      · have hle := apart_of_rested h hrest d hd
        exact .inr ⟨⟨now, rfl, (le_add_of_nonneg_right hpace).trans hle⟩,
          fun e he => absurd he List.not_mem_nil⟩
      · obtain rfl := List.mem_singleton.mp hd
        exact .inr ⟨⟨now, rfl, le_rfl⟩, fun e he => absurd he List.not_mem_nil⟩
  · rw [if_neg honce]
    constructor
    · simp [h.order]
    · simpa using h.apart
    · refine pairwise_snoc h.spaced ?_
      intro e he
      obtain ⟨t, ht, hle⟩ := h.scheduled e he
      exact (add_le_add_left hle pace).trans (scheduled_le_dispatchAt now ht)
    · intro e he
      refine ⟨_, rfl, ?_⟩
      rcases List.mem_append.mp he with he | he
      · obtain ⟨t, ht, hle⟩ := h.scheduled e he
        exact hle.trans (hmono t ht)
      · obtain rfl := List.mem_singleton.mp he
        exact le_rfl
    · intro d hd
      have hd : d ∈ dispatched := by simpa using hd
      obtain hsent | ⟨⟨t, ht, hle⟩, hpending⟩ := h.sent d hd
      · exact .inl hsent
      · refine .inr ⟨⟨_, rfl, hle.trans (hmono t ht)⟩, ?_⟩
        intro e he
        rcases List.mem_append.mp he with he | he
        · exact hpending e he
        · obtain rfl := List.mem_singleton.mp he
          exact (add_le_add_left hle pace).trans (scheduled_le_dispatchAt now ht)

/-- Only the first of the items that are accepted at one time may go out at once. -/
theorem not_atOnce_accept (hshort : tolerance < pace) (b : β) :
    ¬ (p.accept pace tolerance now b).1.AtOnce pace tolerance now := by
  have hscheduled : (p.accept pace tolerance now b).1.scheduled = some (p.dispatchAt pace now) := by
    unfold accept
    split <;> rfl
  intro honce
  have hnow : now ≤ p.dispatchAt pace now := le_max_left _ _
  have hnext := (scheduled_le_dispatchAt now hscheduled).trans honce
  have hlate : now + tolerance < now + pace := add_lt_add_right hshort now
  exact absurd ((add_le_add_left hnow pace).trans hnext) (not_le.mpr hlate)

theorem good_acceptAll (hpace : 0 ≤ pace) (hshort : tolerance < pace) {bs : List β}
    (h : Good pace p accepted dispatched)
    (hrested : bs ≠ [] → p.AtOnce pace tolerance now → p.Rested pace now) :
    Good pace (p.acceptAll pace tolerance now bs).1 (accepted ++ bs)
      (dispatched ++ (p.acceptAll pace tolerance now bs).2.map (now, ·)) := by
  induction bs generalizing p accepted dispatched with
  | nil => simpa [acceptAll] using h
  | cons b bs ih =>
      have hfirst := good_accept hpace h (hrested (List.cons_ne_nil _ _)) b
      have hrest := ih hfirst fun _ honce => absurd honce (not_atOnce_accept hshort b)
      simpa [acceptAll, List.append_assoc] using hrest

/-- A drain sends the first item that waits, `pace` after the last one. -/
theorem good_drain (hpace : 0 ≤ pace) (hnow : 0 < now) (h : Good pace p accepted dispatched) :
    Good pace (p.drain pace now).1 accepted
      (dispatched ++ (p.drain pace now).2.map (now, ·)) := by
  unfold drain
  split
  · simpa using h
  rename_i t b rest hpending
  split
  · simpa using h
  rename_i hdue
  rw [Bool.or_eq_true, not_or, decide_eq_true_eq, not_lt] at hdue
  obtain ⟨hle, hrecent⟩ := hdue
  have hapart : ∀ d ∈ dispatched, d.1 + pace ≤ now := by
    intro d hd
    obtain ⟨last, hlast, hpos, hd⟩ | ⟨-, hd⟩ := h.sent d hd
    · unfold recent at hrecent
      rw [hlast, Option.getD_some, Bool.and_eq_true, not_and, decide_eq_true_eq, decide_eq_true_eq,
        not_lt] at hrecent
      have hlast : last + pace ≤ now := by
        rw [add_comm]
        exact le_sub_iff_add_le.mp (hrecent hpos)
      exact (add_le_add_left hd pace).trans hlast
    · exact (hd (t, b) (hpending ▸ List.mem_cons_self)).trans hle
  have hspaced := h.spaced
  rw [hpending, List.pairwise_cons] at hspaced
  constructor
  · simp [h.order, hpending]
  · exact pairwise_snoc h.apart hapart
  · exact hspaced.2
  · intro e he
    exact h.scheduled e (hpending ▸ List.mem_cons_of_mem _ he)
  · intro d hd
    refine .inl ⟨now, rfl, hnow, ?_⟩
    rcases List.mem_append.mp hd with hd | hd
    · exact (le_add_of_nonneg_right hpace).trans (hapart d hd)
    · obtain rfl := List.mem_singleton.mp hd
      exact le_rfl

theorem not_recent (h : ∀ t, p.lastSent = some t → t + pace ≤ now) : p.recent pace now = false := by
  unfold recent
  cases hlast : p.lastSent with
  | none => simp
  | some t =>
      have hle : pace ≤ now - t := le_sub_iff_add_le.mpr (add_comm t pace ▸ h t hlast)
      simp [hle]

/-- Enough drains, `pace` apart and after every item is due, send all that waits. -/
theorem drainAll_pending {times : List T} (htimes : times.Pairwise fun x y => x + pace ≤ y)
    (hdue : ∀ now ∈ times, ∀ e ∈ p.pending, e.1 ≤ now)
    (hlast : ∀ now ∈ times, ∀ t, p.lastSent = some t → t + pace ≤ now)
    (hlength : p.pending.length ≤ times.length) :
    (p.drainAll pace times).1.pending = [] ∧
      (p.drainAll pace times).2.map Prod.snd = p.pending.map Prod.snd := by
  induction times generalizing p with
  | nil =>
      have hnil : p.pending = [] := List.eq_nil_of_length_eq_zero (Nat.le_zero.mp hlength)
      exact ⟨hnil, by rw [hnil]; rfl⟩
  | cons now times ih =>
      obtain ⟨hnext, htimes⟩ := List.pairwise_cons.mp htimes
      have hlater : ∀ {l : List (T × β)}, (∀ e ∈ l, e ∈ p.pending) →
          ∀ later ∈ times, ∀ e ∈ l, e.1 ≤ later :=
        fun hsub later hmem e he => hdue later (List.mem_cons_of_mem _ hmem) e (hsub e he)
      cases hpending : p.pending with
      | nil =>
          have hdrain : p.drain pace now = (p, []) := by
            unfold drain
            rw [hpending]
          have hrest := ih (p := p) htimes (hlater fun _ he => he)
            (fun later hmem => hlast later (List.mem_cons_of_mem _ hmem))
            (by simp [hpending])
          rw [hpending] at hrest
          unfold drainAll
          rw [hdrain]
          exact hrest
      | cons e rest =>
          have hrecent : p.recent pace now = false := not_recent (hlast now List.mem_cons_self)
          have hdrain : p.drain pace now =
              ({ p with pending := rest, lastSent := some now }, [e.2]) := by
            have hle : ¬ now < e.1 :=
              not_lt.mpr (hdue now List.mem_cons_self e (hpending ▸ List.mem_cons_self))
            rw [drain_of_pending pace now hpending]
            simp [hle, hrecent]
          have hrest := ih (p := { p with pending := rest, lastSent := some now }) htimes
            (hlater fun e' he' => hpending ▸ List.mem_cons_of_mem _ he')
            (fun later hmem t ht => Option.some.inj ht ▸ hnext later hmem)
            (by simpa [hpending] using hlength)
          unfold drainAll
          rw [hdrain]
          exact ⟨hrest.1, congrArg (e.2 :: ·) hrest.2⟩

end Pacer
