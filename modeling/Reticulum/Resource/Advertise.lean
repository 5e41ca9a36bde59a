import Mathlib.Logic.Function.Basic
import Mathlib.Data.List.Count
import Reticulum.Lib.Runs

/-!
# Advertising resources on one link

Every outgoing resource runs `advertise_job` on a thread of its own: it asks
the link's actor whether the link is ready for a new resource, sends its
advertisement, and then registers itself with the link. The question and the
registration are two messages to the actor's mailbox, with the advertisement
between them.

## Implementation notes

Resources are numbered. A question is answered when the actor takes it from
the mailbox; when the actor is gone the answer is "ready", and the job then
finds the link not active. The actor removes a concluded resource unless it
cannot lock it, and then a thread removes it later. Other messages to the
actor touch none of this and are left out.
-/

namespace Reticulum.Resource.Advertise

open Runs

/-- Where the `advertise_job` of a resource stands. -/
inductive Stage
  /-- before the question, or QUEUED between two questions -/
  | waiting
  /-- the question is in the mailbox -/
  | asking
  /-- the answer of `ready_for_new_resource` -/
  | answered (ready : Bool)
  /-- the advertisement was sent -/
  | advertised
  /-- the registration was sent; the job is over -/
  | registered
  /-- the resource failed before its advertisement -/
  | failed
  deriving DecidableEq, Repr

/-- The messages to the link's actor that concern outgoing resources. -/
inductive LinkMsg
  | readyForNewResource (j : Nat)
  | registerOutgoingResource (j : Nat)
  /-- `CancelOutgoingResource`, or `ResourceConcluded` -/
  | cancelOutgoingResource (j : Nat)
  deriving DecidableEq, Repr

/-- The jobs, the mailbox and `outgoing_resources`. -/
structure Jobs where
  stage : Nat → Stage
  concluded : Nat → Bool
  mailbox : List LinkMsg
  outgoingResources : List Nat
  linkActive : Bool
  exited : Bool

/-- Before any job has started, on an active link. -/
def Jobs.start : Jobs :=
  { stage := fun _ => .waiting, concluded := fun _ => false, mailbox := []
    outgoingResources := [], linkActive := true, exited := false }

/-- A step of a job, of the actor, or of the link. -/
inductive Event
  | ask (j : Nat)
  | queue (j : Nat)
  | advertise (j : Nat) (sendOk : Bool)
  | register (j : Nat)
  | conclude (j : Nat)
  | sweep (j : Nat)
  | actor (locked : Bool)
  | link (active : Bool)
  | exit

/-- `tx.send`: lost when the actor is gone. -/
def Jobs.post (s : Jobs) (m : LinkMsg) : Jobs :=
  { s with mailbox := if s.exited then [] else s.mailbox ++ [m] }

/-- Move job `j` to a stage. -/
def Jobs.setStage (s : Jobs) (j : Nat) (stage : Stage) : Jobs :=
  { s with stage := Function.update s.stage j stage }

/-- Resource `j` concludes: the link is told. -/
def Jobs.setConcluded (s : Jobs) (j : Nat) : Jobs :=
  { s with concluded := Function.update s.concluded j true }.post (.cancelOutgoingResource j)

/-- `cancel_outgoing_resource`. -/
def Jobs.remove (s : Jobs) (j : Nat) : Jobs :=
  { s with outgoingResources := s.outgoingResources.filter (· ≠ j) }

/-- `actor_handle_message` for the message at the head of the mailbox. -/
def handle (s : Jobs) (locked : Bool) : LinkMsg → Jobs
  | .readyForNewResource j => s.setStage j (.answered s.outgoingResources.isEmpty)
  | .registerOutgoingResource j => { s with outgoingResources := s.outgoingResources ++ [j] }
  | .cancelOutgoingResource j => if locked then s else s.remove j

/-- One step. -/
def step (s : Jobs) : Event → Option Jobs
  | .ask j =>
      if s.stage j = .waiting then
        if s.exited then some (s.setStage j (.answered true))
        else some ((s.setStage j .asking).post (.readyForNewResource j))
      else none
  | .queue j => if s.stage j = .answered false then some (s.setStage j .waiting) else none
  | .advertise j sendOk =>
      if s.stage j = .answered true then
        if s.linkActive ∧ sendOk then some (s.setStage j .advertised)
        else some ((s.setStage j .failed).setConcluded j)
      else none
  | .register j =>
      if s.stage j = .advertised then
        some ((s.setStage j .registered).post (.registerOutgoingResource j))
      else none
  | .conclude j =>
      if (s.stage j = .advertised ∨ s.stage j = .registered) ∧ s.concluded j = false then
        some (s.setConcluded j)
      else none
  | .sweep j => if s.concluded j then some (s.remove j) else none
  | .actor locked =>
      match s.mailbox with
      | [] => none
      | m :: rest => some (handle { s with mailbox := rest } locked m)
  | .link active => if s.exited then none else some { s with linkActive := active }
  | .exit =>
      if s.exited then none
      else some { s with
        mailbox := [], linkActive := false, exited := true
        stage := fun j => if s.stage j = .asking then .answered true else s.stage j }

/-- Resource `j` is between its advertisement and its conclusion. -/
def InFlight (s : Jobs) (j : Nat) : Prop :=
  (s.stage j = .advertised ∨ s.stage j = .registered) ∧ s.concluded j = false

/-- At most one resource is registered, and at most one is in flight. -/
def OneAtATime (s : Jobs) : Prop :=
  s.outgoingResources.length ≤ 1 ∧ ∀ i j, InFlight s i → InFlight s j → i = j

/-- Job `i` was told that the link is ready, and the link does not know of its
resource yet. -/
def InGap (s : Jobs) (i : Nat) : Prop :=
  s.stage i = .answered true ∨ s.stage i = .advertised ∨
    .registerOutgoingResource i ∈ s.mailbox

/-- The actor answers "ready" only when no job is in the gap between such an
answer and its registration. -/
def NoGap (s : Jobs) : Event → Prop
  | .actor _ => ∀ j rest, s.mailbox = .readyForNewResource j :: rest →
      s.outgoingResources = [] → ∀ i, ¬ InGap s i
  | _ => True

/-! ## The invariant -/

/-- Job `i` holds the link's slot, or is about to take it. -/
def Holds (s : Jobs) (i : Nat) : Prop := InGap s i ∨ i ∈ s.outgoingResources

/-- What holds along a run without gaps. -/
structure Inv (s : Jobs) : Prop where
  asked : ∀ j, .readyForNewResource j ∈ s.mailbox → s.stage j = .asking
  askedOnce : ∀ j, s.mailbox.count (.readyForNewResource j) ≤ 1
  early : ∀ i, s.stage i ≠ .registered →
    .registerOutgoingResource i ∉ s.mailbox ∧ i ∉ s.outgoingResources
  once : ∀ i, s.mailbox.count (.registerOutgoingResource i) + s.outgoingResources.count i ≤ 1
  cancelled : ∀ i, .cancelOutgoingResource i ∈ s.mailbox → s.concluded i = true
  held : s.exited = false → ∀ i, InFlight s i → Holds s i
  unique : s.exited = false → ∀ i j, Holds s i → Holds s j → i = j
  flight : ∀ i j, InFlight s i → InFlight s j → i = j
  length : s.outgoingResources.length ≤ 1
  closed : s.exited = true → s.linkActive = false
  dead : s.exited = true → s.mailbox = []

theorem inv_start : Inv Jobs.start := by
  constructor <;> simp [Jobs.start, InFlight, Holds, InGap]

variable {s : Jobs} {i j : Nat} {stage : Stage}

/-! ## One job moves -/

@[simp] theorem setStage_self : (s.setStage j stage).stage j = stage := by
  simp [Jobs.setStage]

theorem setStage_other (h : i ≠ j) : (s.setStage j stage).stage i = s.stage i := by
  simp [Jobs.setStage, h]

theorem holds_setStage_other (h : i ≠ j) : Holds (s.setStage j stage) i ↔ Holds s i := by
  simp only [Holds, InGap, setStage_other h]
  rfl

theorem inFlight_setStage_other (h : i ≠ j) :
    InFlight (s.setStage j stage) i ↔ InFlight s i := by
  simp only [InFlight, setStage_other h]
  rfl

/-- A job that has no question pending and is not registered may move to a
stage before registration. To take the slot, no other job may hold it. -/
theorem Inv.setStage (h : Inv s) (hasked : .readyForNewResource j ∉ s.mailbox)
    (hj : s.stage j ≠ .registered) (hstage : stage ≠ .registered)
    (hunique : s.exited = false → stage = .answered true ∨ stage = .advertised →
      ∀ i, Holds s i → i = j)
    (hflight : stage = .advertised → ∀ i, InFlight s i → i = j) :
    Inv (s.setStage j stage) := by
  have hearly : ∀ i, (s.setStage j stage).stage i ≠ .registered →
      .registerOutgoingResource i ∉ s.mailbox ∧ i ∉ s.outgoingResources := by
    intro i hi
    by_cases hij : i = j
    · exact hij ▸ h.early j hj
    · exact h.early i (setStage_other hij ▸ hi)
  have hself : Holds (s.setStage j stage) j →
      stage = .answered true ∨ stage = .advertised := by
    obtain ⟨hmailbox, houtgoing⟩ := h.early j hj
    rintro ((hready | hadv | hmem) | hmem)
    · exact .inl (setStage_self.symm.trans hready)
    · exact .inr (setStage_self.symm.trans hadv)
    · exact absurd hmem hmailbox
    · exact absurd hmem houtgoing
  have hselfFlight : InFlight (s.setStage j stage) j → stage = .advertised := by
    rintro ⟨hadv | hreg, -⟩
    · exact setStage_self.symm.trans hadv
    · exact absurd (setStage_self.symm.trans hreg) hstage
  refine ⟨?_, h.askedOnce, hearly, h.once, h.cancelled, ?_, ?_, ?_, h.length, h.closed, h.dead⟩
  · intro i hi
    have hij : i ≠ j := fun hij => hasked (hij ▸ hi)
    rw [setStage_other hij]
    exact h.asked i hi
  · intro hopen i hi
    by_cases hij : i = j
    · subst hij
      exact .inl (.inr (.inl (by rw [setStage_self]; exact hselfFlight hi)))
    · exact (holds_setStage_other hij).mpr (h.held hopen i ((inFlight_setStage_other hij).mp hi))
  · intro hopen i k hi hk
    by_cases hij : i = j <;> by_cases hkj : k = j
    · rw [hij, hkj]
    · subst hij
      exact (hunique hopen (hself hi) k ((holds_setStage_other hkj).mp hk)).symm
    · subst hkj
      exact hunique hopen (hself hk) i ((holds_setStage_other hij).mp hi)
    · exact h.unique hopen i k ((holds_setStage_other hij).mp hi)
        ((holds_setStage_other hkj).mp hk)
  · intro i k hi hk
    by_cases hij : i = j <;> by_cases hkj : k = j
    · rw [hij, hkj]
    · subst hij
      exact (hflight (hselfFlight hi) k ((inFlight_setStage_other hkj).mp hk)).symm
    · subst hkj
      exact hflight (hselfFlight hk) i ((inFlight_setStage_other hij).mp hi)
    · exact h.flight i k ((inFlight_setStage_other hij).mp hi)
        ((inFlight_setStage_other hkj).mp hk)

/-- Only a job that is asking has its question in the mailbox. -/
theorem Inv.notAsked (h : Inv s) (hj : s.stage j ≠ .asking) :
    .readyForNewResource j ∉ s.mailbox :=
  fun hmem => hj (h.asked j hmem)

/-! ## Messages -/

theorem setStage_post_mailbox (m : LinkMsg) :
    ((s.setStage j stage).post m).mailbox = if s.exited then [] else s.mailbox ++ [m] := rfl

/-- Posting a message that is no registration. -/
theorem Inv.post (h : Inv s) {m : LinkMsg} (hm : ∀ i, m ≠ .registerOutgoingResource i)
    (hready : ∀ i, m = .readyForNewResource i →
      s.stage i = .asking ∧ .readyForNewResource i ∉ s.mailbox)
    (hcancel : ∀ i, m = .cancelOutgoingResource i → s.concluded i = true) :
    Inv (s.post m) := by
  by_cases hexited : s.exited = true
  · have hdead := h.dead hexited
    have hsame : s.post m = s := by
      cases s
      simp_all [Jobs.post]
    rw [hsame]
    exact h
  · have hpost : s.post m = { s with mailbox := s.mailbox ++ [m] } := by
      simp [Jobs.post, hexited]
    have hregister : ∀ i, .registerOutgoingResource i ∈ s.mailbox ++ [m] ↔
        .registerOutgoingResource i ∈ s.mailbox := by
      intro i
      simp [(hm i).symm]
    have hholds : ∀ i, Holds { s with mailbox := s.mailbox ++ [m] } i ↔ Holds s i := by
      intro i
      simp only [Holds, InGap, hregister]
    rw [hpost]
    refine ⟨?_, ?_, ?_, ?_, ?_, ?_, ?_, h.flight, h.length, h.closed, fun he => absurd he hexited⟩
    · intro i hi
      rcases List.mem_append.mp hi with hi | hi
      · exact h.asked i hi
      · exact (hready i (List.mem_singleton.mp hi).symm).1
    · intro i
      rw [List.count_append]
      by_cases hmi : m = .readyForNewResource i
      · rw [List.count_eq_zero_of_not_mem (hready i hmi).2]
        exact (Nat.zero_add _).symm ▸ List.count_le_length
      · rw [List.count_singleton, if_neg (by simpa using hmi)]
        exact h.askedOnce i
    · intro i hi
      exact ⟨fun hmem => (h.early i hi).1 ((hregister i).mp hmem), (h.early i hi).2⟩
    · intro i
      rw [List.count_append, List.count_singleton, if_neg (by simpa using hm i)]
      exact h.once i
    · intro i hi
      rcases List.mem_append.mp hi with hi | hi
      · exact h.cancelled i hi
      · exact hcancel i (List.mem_singleton.mp hi).symm
    · intro hopen i hi
      exact (hholds i).mpr (h.held hopen i hi)
    · intro hopen i k hi hk
      exact h.unique hopen i k ((hholds i).mp hi) ((hholds k).mp hk)

/-- A resource concludes, and the link is told. -/
theorem Inv.setConcluded (h : Inv s) (j : Nat) : Inv (s.setConcluded j) := by
  have hmono : ∀ i, s.concluded i = true → Function.update s.concluded j true i = true := by
    intro i hi
    by_cases hij : i = j <;> simp [hij, hi]
  have hflight : ∀ i, InFlight { s with concluded := Function.update s.concluded j true } i →
      InFlight s i := by
    rintro i ⟨hstage, hconcluded⟩
    refine ⟨hstage, ?_⟩
    by_contra hi
    dsimp only at hconcluded
    rw [hmono i (by simpa using hi)] at hconcluded
    cases hconcluded
  have h' : Inv { s with concluded := Function.update s.concluded j true } :=
    { asked := h.asked, askedOnce := h.askedOnce, early := h.early, once := h.once
      cancelled := fun i hi => hmono i (h.cancelled i hi)
      held := fun hopen i hi => h.held hopen i (hflight i hi)
      unique := h.unique
      flight := fun i k hi hk => h.flight i k (hflight i hi) (hflight k hk)
      length := h.length, closed := h.closed, dead := h.dead }
  apply h'.post
  · intro i hi
    cases hi
  · intro i hi
    cases hi
  · intro i hi
    cases hi
    simp

/-- A concluded resource is dropped from the link's list. -/
theorem Inv.remove (h : Inv s) (hj : s.concluded j = true) : Inv (s.remove j) := by
  have hsub : ∀ i, i ∈ (s.remove j).outgoingResources → i ∈ s.outgoingResources :=
    fun i hi => List.mem_of_mem_filter hi
  have hholds : ∀ i, Holds (s.remove j) i → Holds s i :=
    fun i hi => hi.imp_right (hsub i)
  refine ⟨h.asked, h.askedOnce, ?_, ?_, h.cancelled, ?_, ?_, h.flight, ?_, h.closed, h.dead⟩
  · intro i hi
    exact ⟨(h.early i hi).1, fun hmem => (h.early i hi).2 (hsub i hmem)⟩
  · intro i
    have hcount : (s.remove j).outgoingResources.count i ≤ s.outgoingResources.count i :=
      List.filter_sublist.count_le i
    have := h.once i
    show s.mailbox.count _ + _ ≤ 1
    omega
  · intro hopen i hi
    have hij : i ≠ j := by
      rintro rfl
      rw [show s.concluded i = false from hi.2] at hj
      cases hj
    exact (h.held hopen i hi).imp_right fun hmem => List.mem_filter.mpr ⟨hmem, by simpa using hij⟩
  · intro hopen i k hi hk
    exact h.unique hopen i k (hholds i hi) (hholds k hk)
  · exact (List.length_filter_le _ _).trans h.length

/-- A message that is no registration is taken from the mailbox. -/
theorem Inv.pop (h : Inv s) {m : LinkMsg} {rest : List LinkMsg} (hmailbox : s.mailbox = m :: rest)
    (hm : ∀ i, m ≠ .registerOutgoingResource i) : Inv { s with mailbox := rest } := by
  have hmem : ∀ x ∈ rest, x ∈ s.mailbox := fun x hx => by rw [hmailbox]; simp [hx]
  have hregister : ∀ i, .registerOutgoingResource i ∈ rest ↔
      .registerOutgoingResource i ∈ s.mailbox := by
    intro i
    simp [hmailbox, (hm i).symm]
  have hholds : ∀ i, Holds { s with mailbox := rest } i ↔ Holds s i := by
    intro i
    simp only [Holds, InGap, hregister]
  have hcount : ∀ x, rest.count x ≤ s.mailbox.count x := by
    intro x
    rw [hmailbox, List.count_cons]
    omega
  refine ⟨fun i hi => h.asked i (hmem _ hi), fun i => (hcount _).trans (h.askedOnce i), ?_, ?_,
    fun i hi => h.cancelled i (hmem _ hi), ?_, ?_, h.flight, h.length, h.closed, ?_⟩
  · intro i hi
    exact ⟨fun hi' => (h.early i hi).1 (hmem _ hi'), (h.early i hi).2⟩
  · intro i
    have := h.once i
    have := hcount (.registerOutgoingResource i)
    show rest.count _ + s.outgoingResources.count i ≤ 1
    omega
  · intro hopen i hi
    exact (hholds i).mpr (h.held hopen i hi)
  · intro hopen i k hi hk
    exact h.unique hopen i k ((hholds i).mp hi) ((hholds k).mp hk)
  · intro hexited
    have := h.dead hexited
    rw [hmailbox] at this
    cases this

/-- The registration of the one job that holds the slot. -/
theorem Inv.registered (h : Inv s) {rest : List LinkMsg}
    (hmailbox : s.mailbox = .registerOutgoingResource j :: rest) :
    Inv { s with mailbox := rest, outgoingResources := s.outgoingResources ++ [j] } := by
  have hopen : s.exited = false := by
    by_contra hexited
    have := h.dead (by simpa using hexited)
    rw [hmailbox] at this
    cases this
  have hmem : ∀ x ∈ rest, x ∈ s.mailbox := fun x hx => by rw [hmailbox]; simp [hx]
  have hcount : ∀ x, s.mailbox.count x =
      rest.count x + if LinkMsg.registerOutgoingResource j == x then 1 else 0 := by
    intro x
    rw [hmailbox, List.count_cons]
  have hj : Holds s j := .inl (.inr (.inr (by simp [hmailbox])))
  have hholds : ∀ i, Holds { s with
      mailbox := rest, outgoingResources := s.outgoingResources ++ [j] } i ↔ Holds s i := by
    intro i
    constructor
    · rintro ((hi | hi | hi) | hi)
      · exact .inl (.inl hi)
      · exact .inl (.inr (.inl hi))
      · exact .inl (.inr (.inr (hmem _ hi)))
      · rcases List.mem_append.mp hi with hi | hi
        · exact .inr hi
        · rw [List.mem_singleton.mp hi]
          exact hj
    · rintro ((hi | hi | hi) | hi)
      · exact .inl (.inl hi)
      · exact .inl (.inr (.inl hi))
      · rw [hmailbox] at hi
        rcases List.mem_cons.mp hi with hi | hi
        · obtain rfl := LinkMsg.registerOutgoingResource.inj hi
          exact .inr (by simp)
        · exact .inl (.inr (.inr hi))
      · exact .inr (by simp [hi])
  have hempty : s.outgoingResources = [] := by
    apply List.eq_nil_iff_forall_not_mem.mpr
    intro i hi
    obtain rfl := h.unique hopen i j (.inr hi) hj
    have honce := h.once i
    have hpos : 0 < s.outgoingResources.count i := List.count_pos_iff.mpr hi
    rw [hcount] at honce
    simp at honce
    omega
  refine ⟨fun i hi => h.asked i (hmem _ hi), ?_, ?_, ?_, fun i hi => h.cancelled i (hmem _ hi),
    ?_, ?_, h.flight, by simp [hempty], h.closed, fun he => by simp [hopen] at he⟩
  · intro i
    have := h.askedOnce i
    rw [hcount] at this
    simpa using this
  · intro i hi
    refine ⟨fun hi' => (h.early i hi).1 (hmem _ hi'), ?_⟩
    intro hi'
    rcases List.mem_append.mp hi' with hi' | hi'
    · exact (h.early i hi).2 hi'
    · rw [List.mem_singleton.mp hi'] at hi
      exact (h.early j hi).1 (by simp [hmailbox])
  · intro i
    have honce := h.once i
    rw [hcount] at honce
    rw [List.count_append, List.count_singleton]
    by_cases hij : j = i <;> simp [hij] at honce ⊢ <;> omega
  · intro _ i hi
    exact (hholds i).mpr (h.held hopen i hi)
  · intro _ i k hi hk
    exact h.unique hopen i k ((hholds i).mp hi) ((hholds k).mp hk)

theorem mem_postRegister {m : LinkMsg}
    (hm : m ∈ ((s.setStage j .registered).post (.registerOutgoingResource j)).mailbox) :
    m ∈ s.mailbox ∨ m = .registerOutgoingResource j := by
  rw [setStage_post_mailbox] at hm
  split at hm
  · simp at hm
  · simpa using hm

theorem count_postRegister (s : Jobs) (j : Nat) (m : LinkMsg) :
    ((s.setStage j .registered).post (.registerOutgoingResource j)).mailbox.count m ≤
      s.mailbox.count m + if LinkMsg.registerOutgoingResource j == m then 1 else 0 := by
  rw [setStage_post_mailbox]
  split
  · simp
  · rw [List.count_append, List.count_singleton]

theorem inFlight_of_postRegister (hj : s.stage j = .advertised)
    (h : InFlight ((s.setStage j .registered).post (.registerOutgoingResource j)) i) :
    InFlight s i := by
  obtain ⟨hstage, hconcluded⟩ := h
  refine ⟨?_, hconcluded⟩
  by_cases hij : i = j
  · exact .inl (hij ▸ hj)
  · exact setStage_other hij ▸ hstage

theorem holds_of_postRegister (hj : s.stage j = .advertised)
    (h : Holds ((s.setStage j .registered).post (.registerOutgoingResource j)) i) :
    Holds s i := by
  by_cases hij : i = j
  · exact .inl (.inr (.inl (hij ▸ hj)))
  · rcases h with (hi | hi | hi) | hi
    · exact .inl (.inl (setStage_other hij ▸ hi))
    · exact .inl (.inr (.inl (setStage_other hij ▸ hi)))
    · rcases mem_postRegister hi with hi | hi
      · exact .inl (.inr (.inr hi))
      · exact absurd (LinkMsg.registerOutgoingResource.inj hi) hij
    · exact .inr hi

section

variable (h : Inv s)

include h

/-- The registration of an advertised resource is posted. -/
theorem Inv.postRegister (hj : s.stage j = .advertised) :
    Inv ((s.setStage j .registered).post (.registerOutgoingResource j)) := by
  obtain ⟨hmailbox, houtgoing⟩ := h.early j (by rw [hj]; decide)
  have hasked := h.notAsked (show s.stage j ≠ .asking by simp [hj])
  have hj' : ((s.setStage j .registered).post (.registerOutgoingResource j)).stage j =
      .registered := setStage_self
  have hother : ∀ i, i ≠ j →
      ((s.setStage j .registered).post (.registerOutgoingResource j)).stage i = s.stage i :=
    fun i hij => setStage_other hij
  refine ⟨?_, ?_, ?_, ?_, ?_, ?_, ?_, ?_, h.length, h.closed, ?_⟩
  · intro i hi
    have hi' : .readyForNewResource i ∈ s.mailbox := by simpa using mem_postRegister hi
    have hij : i ≠ j := fun hij => hasked (hij ▸ hi')
    rw [hother i hij]
    exact h.asked i hi'
  · intro i
    exact (count_postRegister s j _).trans (by simpa using h.askedOnce i)
  · intro i hi
    have hij : i ≠ j := fun hij => hi (hij ▸ hj')
    rw [hother i hij] at hi
    refine ⟨fun hi' => ?_, (h.early i hi).2⟩
    rcases mem_postRegister hi' with hi' | hi'
    · exact (h.early i hi).1 hi'
    · exact hij (LinkMsg.registerOutgoingResource.inj hi')
  · intro i
    have honce := h.once i
    have hle := count_postRegister s j (.registerOutgoingResource i)
    by_cases hij : j = i
    · subst hij
      rw [List.count_eq_zero_of_not_mem hmailbox] at hle
      have hzero : s.outgoingResources.count j = 0 := List.count_eq_zero_of_not_mem houtgoing
      simp only [beq_self_eq_true, if_true] at hle
      show _ + s.outgoingResources.count j ≤ 1
      omega
    · rw [if_neg (by simpa using hij)] at hle
      show _ + s.outgoingResources.count i ≤ 1
      omega
  · intro i hi
    exact h.cancelled i (by simpa using mem_postRegister hi)
  · intro hopen i hi
    have hpost : ((s.setStage j .registered).post (.registerOutgoingResource j)).mailbox =
        s.mailbox ++ [.registerOutgoingResource j] := by
      have hopen' : s.exited = false := hopen
      rw [setStage_post_mailbox, hopen']
      rfl
    by_cases hij : i = j
    · subst hij
      exact .inl (.inr (.inr (by simp [hpost])))
    · rcases h.held hopen i (inFlight_of_postRegister hj hi) with (hi | hi | hi) | hi
      · exact .inl (.inl (hother i hij ▸ hi))
      · exact .inl (.inr (.inl (hother i hij ▸ hi)))
      · exact .inl (.inr (.inr (by simp [hpost, hi])))
      · exact .inr hi
  · intro hopen i k hi hk
    exact h.unique hopen i k (holds_of_postRegister hj hi) (holds_of_postRegister hj hk)
  · intro i k hi hk
    exact h.flight i k (inFlight_of_postRegister hj hi) (inFlight_of_postRegister hj hk)
  · intro hexited
    rw [setStage_post_mailbox]
    exact if_pos hexited

/-- The actor exits: the questions left in its mailbox count as "ready". -/
theorem Inv.exit : Inv { s with
    mailbox := [], linkActive := false, exited := true
    stage := fun j => if s.stage j = .asking then .answered true else s.stage j } := by
  have hstage : ∀ i (target : Stage), target = .advertised ∨ target = .registered →
      (if s.stage i = .asking then Stage.answered true else s.stage i) = target →
        s.stage i = target := by
    intro i target htarget hi
    split at hi
    · rcases htarget with rfl | rfl <;> cases hi
    · exact hi
  have hflight : ∀ i, InFlight { s with
      mailbox := [], linkActive := false, exited := true
      stage := fun j => if s.stage j = .asking then .answered true else s.stage j } i →
        InFlight s i :=
    fun i hi => ⟨hi.1.imp (hstage i _ (.inl rfl)) (hstage i _ (.inr rfl)), hi.2⟩
  refine ⟨by simp, by simp, ?_, ?_, by simp, fun he => (nomatch he), fun he => (nomatch he), ?_,
    h.length, fun _ => rfl, fun _ => rfl⟩
  · intro i hi
    refine ⟨by simp, (h.early i fun hreg => hi ?_).2⟩
    simp [hreg]
  · intro i
    have := h.once i
    simp only [List.count_nil]
    omega
  · exact fun i k hi hk => h.flight i k (hflight i hi) (hflight k hk)

/-- The actor handles a message. It grants the slot only outside a gap. -/
theorem Inv.actor {locked : Bool} {m : LinkMsg} {rest : List LinkMsg}
    (hmailbox : s.mailbox = m :: rest)
    (hok : ∀ j, m = .readyForNewResource j → s.outgoingResources = [] → ∀ i, ¬ InGap s i) :
    Inv (handle { s with mailbox := rest } locked m) := by
  cases m with
  | readyForNewResource j =>
      have hpop := h.pop hmailbox (by simp)
      have hj : s.stage j = .asking := h.asked j (by simp [hmailbox])
      have hgone : .readyForNewResource j ∉ rest := by
        have honce := h.askedOnce j
        rw [hmailbox, List.count_cons_self] at honce
        exact List.count_eq_zero.mp (by omega)
      refine hpop.setStage hgone (by simp [hj]) (by simp) ?_ (by simp)
      intro _ hready i hi
      have hempty : s.outgoingResources = [] := by simpa using hready
      rcases hi with (hi | hi | hi) | hi
      · exact absurd (.inl hi) (hok j rfl hempty i)
      · exact absurd (.inr (.inl hi)) (hok j rfl hempty i)
      · exact absurd (.inr (.inr (by simp [hmailbox, hi]))) (hok j rfl hempty i)
      · simp [hempty] at hi
  | registerOutgoingResource j => exact h.registered hmailbox
  | cancelOutgoingResource j =>
      have hpop := h.pop hmailbox (by simp)
      have hj : s.concluded j = true := h.cancelled j (by simp [hmailbox])
      simp only [handle]
      split
      · exact hpop
      · exact hpop.remove hj

/-- A job asks: its question is posted, or it is told "ready" by a link that is gone. -/
theorem Inv.ask (hj : s.stage j = .waiting) :
    Inv (if s.exited then s.setStage j (.answered true)
      else (s.setStage j .asking).post (.readyForNewResource j)) := by
  have hasked := h.notAsked (show s.stage j ≠ .asking by simp [hj])
  split
  · rename_i hexited
    refine h.setStage hasked (by simp [hj]) (by simp) ?_ (by simp)
    intro hopen
    rw [hexited] at hopen
    cases hopen
  · have h' : Inv (s.setStage j .asking) :=
      h.setStage hasked (by simp [hj]) (by simp) (by simp) (by simp)
    apply h'.post
    · intro i hi
      cases hi
    · intro i hi
      cases hi
      exact ⟨setStage_self, hasked⟩
    · intro i hi
      cases hi

/-- A job that was told "ready" sends its advertisement, or its resource fails. -/
theorem Inv.advertise (hj : s.stage j = .answered true) (sendOk : Bool) :
    Inv (if s.linkActive ∧ sendOk then s.setStage j .advertised
      else (s.setStage j .failed).setConcluded j) := by
  have hasked := h.notAsked (show s.stage j ≠ .asking by simp [hj])
  have hholds : Holds s j := .inl (.inl hj)
  split
  · rename_i hsent
    have hopen : s.exited = false := by
      by_contra hexited
      have := h.closed (by simpa using hexited)
      rw [hsent.1] at this
      cases this
    apply h.setStage hasked (by simp [hj]) (by simp)
    · exact fun _ _ i hi => h.unique hopen i j hi hholds
    · exact fun _ i hi => h.unique hopen i j (h.held hopen i hi) hholds
  · exact (h.setStage hasked (by simp [hj]) (by simp) (by simp) (by simp)).setConcluded j

/-- A step without a gap keeps the invariant. -/
theorem inv_step {s' : Jobs} {e : Event} (hok : NoGap s e)
    (hstep : step s e = some s') : Inv s' := by
  cases e with
  | ask j =>
      obtain ⟨hj, hs'⟩ := Option.ite_none_right_eq_some.mp hstep
      rw [← apply_ite some] at hs'
      exact Option.some.inj hs' ▸ h.ask hj
  | queue j =>
      obtain ⟨hj, hs'⟩ := Option.ite_none_right_eq_some.mp hstep
      exact Option.some.inj hs' ▸
        h.setStage (h.notAsked (by simp [hj])) (by simp [hj]) (by simp) (by simp) (by simp)
  | advertise j sendOk =>
      obtain ⟨hj, hs'⟩ := Option.ite_none_right_eq_some.mp hstep
      rw [← apply_ite some] at hs'
      exact Option.some.inj hs' ▸ h.advertise hj sendOk
  | register j =>
      obtain ⟨hj, hs'⟩ := Option.ite_none_right_eq_some.mp hstep
      exact Option.some.inj hs' ▸ h.postRegister hj
  | conclude j =>
      obtain ⟨-, hs'⟩ := Option.ite_none_right_eq_some.mp hstep
      exact Option.some.inj hs' ▸ h.setConcluded j
  | sweep j =>
      obtain ⟨hj, hs'⟩ := Option.ite_none_right_eq_some.mp hstep
      exact Option.some.inj hs' ▸ h.remove hj
  | actor locked =>
      simp only [step] at hstep
      split at hstep
      · cases hstep
      · rename_i m rest hmailbox
        obtain rfl := Option.some.inj hstep
        exact h.actor hmailbox fun j hm => hok j rest (hm ▸ hmailbox)
  | link active =>
      obtain ⟨hopen, hs'⟩ := Option.ite_none_left_eq_some.mp hstep
      exact Option.some.inj hs' ▸ ⟨h.asked, h.askedOnce, h.early, h.once, h.cancelled, h.held,
        h.unique, h.flight, h.length, fun he => absurd he hopen, h.dead⟩
  | exit =>
      obtain ⟨-, hs'⟩ := Option.ite_none_left_eq_some.mp hstep
      exact Option.some.inj hs' ▸ h.exit

end

/-- In every run in which the actor answers "ready" only outside a gap, at
most one resource is registered and at most one is in flight. -/
theorem oneAtATime_of_noGap {s : Jobs} {es : List Event}
    (hok : Meets step NoGap Jobs.start es) (hrun : exec step Jobs.start es = some s) :
    OneAtATime s := by
  have h : Inv s :=
    invariant (fun _ _ _ h hok hstep => inv_step h hok hstep) inv_start hok hrun
  exact ⟨h.length, h.flight⟩

/-- Two resources on one link: the second asks while the first is registered and is told to wait,
and asks again when the first has concluded. -/
def takingTurns : List Event :=
  [.ask 0, .actor false, .advertise 0 true, .register 0, .actor false, .ask 1, .actor false,
    .queue 1, .conclude 0, .actor false, .ask 1, .actor false, .advertise 1 true, .register 1,
    .actor false]

theorem noGap_takingTurns : Meets step NoGap Jobs.start takingTurns := by
  have hfirst : ∀ i, ¬ InGap ((Jobs.start.setStage 0 .asking).post (.readyForNewResource 0)) i := by
    intro i
    by_cases hi : i = 0 <;> simp [InGap, Jobs.post, Jobs.setStage, Jobs.start, hi]
  refine meets_cons rfl True.intro (meets_cons rfl (fun _ _ _ _ => hfirst) ?_)
  refine meets_cons rfl True.intro (meets_cons rfl True.intro ?_)
  refine meets_cons rfl (fun _ _ hmailbox => (nomatch hmailbox)) (meets_cons rfl True.intro ?_)
  refine meets_cons rfl (fun _ _ _ hempty => (nomatch hempty)) (meets_cons rfl True.intro ?_)
  refine meets_cons rfl True.intro ?_
  refine meets_cons rfl (fun _ _ hmailbox => (nomatch hmailbox)) (meets_cons rfl True.intro ?_)
  refine meets_cons rfl (fun _ _ _ _ i => ?_) ?_
  · rintro (hi | hi | hi)
    · match i with
      | 0 | 1 | _ + 2 => cases hi
    · match i with
      | 0 | 1 | _ + 2 => cases hi
    · cases List.mem_singleton.mp hi
  refine meets_cons rfl True.intro (meets_cons rfl True.intro ?_)
  exact meets_cons rfl (fun _ _ hmailbox => (nomatch hmailbox)) True.intro

/-- The second is told to wait, and is alone in flight after the first. -/
theorem oneAtATime_taking_turns : ∃ s t,
    exec step Jobs.start (takingTurns.take 7) = some s ∧ s.stage 1 = .answered false ∧
    exec step Jobs.start takingTurns = some t ∧ t.outgoingResources = [1] ∧ InFlight t 1 ∧
    OneAtATime t :=
  ⟨_, _, rfl, rfl, rfl, rfl, ⟨.inr rfl, rfl⟩, oneAtATime_of_noGap noGap_takingTurns rfl⟩

/-- Two jobs ask before either has registered: both resources are advertised
and registered. -/
theorem oneAtATime_false_of_two_jobs : ∃ s,
    exec step Jobs.start [.ask 0, .ask 1, .actor false, .actor false, .advertise 0 true,
      .advertise 1 true, .register 0, .register 1, .actor false, .actor false] = some s ∧
    s.outgoingResources = [0, 1] ∧ InFlight s 0 ∧ InFlight s 1 ∧ ¬ OneAtATime s := by
  refine ⟨_, rfl, rfl, ⟨.inr rfl, rfl⟩, ⟨.inr rfl, rfl⟩, ?_⟩
  rintro ⟨hlength, -⟩
  exact absurd hlength (by decide)

end Reticulum.Resource.Advertise
