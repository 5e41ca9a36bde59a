import Reticulum.Resource.Integrity
import Reticulum.Resource.Outcome

/-!
# Concluding once

A transfer is a chain of segments. The application's callback is handed from
each segment to the next one, and every segment may run it: on the proof, on a
rejection, when it is cancelled, and when a copy of it is assembled. A chain
takes these events in any order and counts the calls.

## Implementation notes

A segment is made (`prepare_next_segment`) before it is handed out
(`advertise_shared`), so `next` is reached by no event of its own; only the
cancelling of an earlier segment reaches it. A receiver is a chain of one
segment. The copies that wait for their thread are kept with the segment they
were made from; `movedBack` remembers that a concluded segment returned to the
transfer.
-/

namespace Reticulum.Resource

/-- A copy of a segment that a thread will assemble. -/
structure Copy where
  segment : Nat
  /-- the copy holds the next segment -/
  hasNext : Bool
  resource : Resource

/-- A transfer: the segments that were handed out, the one that was made, and
the work of their threads. -/
structure Chain where
  earlier : List Resource
  live : Resource
  next : Option Resource
  /-- the segments that `advertise_job` runs for -/
  jobs : List Nat
  copies : List Copy
  callbacks : Nat
  movedBack : Bool

namespace Chain

variable (fullHash : Bytes → Digest)

section

variable (c : Chain) (k : Nat)

/-- The segment with this position, once it was handed out. -/
def segment : Option Resource := (c.earlier ++ [c.live])[k]?

/-- `next_segment.is_some()`. -/
def hasNext : Bool := k < c.earlier.length || c.next.isSome

/-- A segment changes. -/
def put (r : Resource) : Chain :=
  if k < c.earlier.length then { c with earlier := c.earlier.set k r } else { c with live := r }

/-- A status from Assembling on gives way to Transferring or AwaitingProof. -/
def movesBack (old new : ResourceStatus) : Bool :=
  ResourceStatus.assembling.code ≤ old.code && (new = .transferring || new = .awaitingProof)

/-- An operation changes a segment; its effects are noted. -/
def perform (r : Resource) (out : Resource × List Effect) : Chain :=
  { c.put k out.1 with
    copies := c.copies ++ (assemblies out.2).map fun copy => ⟨k, c.hasNext k, copy⟩
    callbacks := c.callbacks + calls out.2
    movedBack := c.movedBack || movesBack r.status out.1.status }

/-- `next_segment.cancel()`: every later segment is cancelled. -/
def cancelAfter (env : Readings) : Chain :=
  let later := c.earlier.drop (k + 1)
  { c with
    earlier := c.earlier.take (k + 1) ++ later.map fun r => (r.cancel env).1
    live := if k < c.earlier.length then (c.live.cancel env).1 else c.live
    next := c.next.map fun r => (r.cancel env).1
    callbacks := c.callbacks + (later.map fun r => calls (r.cancel env).2).sum +
      (if k < c.earlier.length then calls (c.live.cancel env).2 else 0) +
      c.next.elim 0 fun r => calls (r.cancel env).2 }

/-- The later segments are cancelled when the effects say so. -/
def cascade (effects : List Effect) (env : Readings) : Chain :=
  if .cancelNext ∈ effects then c.cancelAfter k env else c

/-- An operation that may cancel. -/
def act (r : Resource) (out : Resource × List Effect) (env : Readings) :
    Chain :=
  (c.perform k r out).cascade k out.2 env

/-- `Resource::prepare_next_segment`; without input there is no data left. -/
def prepareNextSegment (input : Option SegmentInput) : Chain :=
  if k = c.earlier.length ∧ c.next.isNone ∧ c.live.segmentIndex < c.live.totalSegments then
    { c with
      live := { c.live with preparingNextSegment := true }
      next := input.bind (c.live.nextSegment fullHash) }
  else c

/-- `Resource::advertise_shared` on the next segment. -/
def advertiseNext : Chain :=
  let c := { c with jobs := c.jobs ++ [k + 1] }
  match c.next with
  | some next =>
      if k = c.earlier.length then
        { c with earlier := c.earlier ++ [c.live], live := next, next := none }
      else c
  | none => c

/-- `Resource::validate_proof`, which makes the next segment if that was not
begun. -/
def validateProof (r : Resource) (proofData : Bytes)
    (input : Option SegmentInput) : Chain :=
  let begins := r.status ≠ .failed ∧ r.proofMatches proofData ∧
    r.segmentIndex ≠ r.totalSegments ∧ ¬ r.preparingNextSegment
  let c := if begins then c.prepareNextSegment fullHash k input else c
  let r := (c.segment k).getD r
  let out := r.validateProof proofData (c.hasNext k)
  let c := c.perform k r out
  if .advertiseNext ∈ out.2 then c.advertiseNext k else c

/-- The thread of a copy assembles it. -/
def assemble (i : Nat) (copy : Copy) (out : Option (Resource × List Effect))
    (env : Readings) : Chain :=
  let c := { c with copies := c.copies.eraseIdx i }
  match out with
  | none => c
  | some out =>
      let c := { c with callbacks := c.callbacks + calls out.2 }
      if copy.hasNext then c.cascade copy.segment out.2 env else c

end

/-- What happens to the segments of a transfer. -/
inductive Event
  | receivePart (k : Nat) (data : Bytes) (env : Readings)
  | hashmapUpdate (k : Nat) (update : Option (Nat × Bytes)) (env : Readings)
  | requestNext (k : Nat) (env : Readings)
  | request (k : Nat) (requestData : Bytes) (env : Readings)
  | validateProof (k : Nat) (proofData : Bytes) (input : Option SegmentInput)
  | rejected (k : Nat)
  | cancel (k : Nat) (env : Readings)
  | watchdog (k : Nat) (env : Readings)
  | queue (k : Nat)
  | advertise (k : Nat) (env : Readings)
  | prepareNextSegment (k : Nat) (input : Option SegmentInput)
  | assemble (i : Nat) (d : Decoding) (env : Readings)

/-- One event. -/
def step (c : Chain) : Event → Option Chain
  | .receivePart k data env => (c.segment k).map fun r =>
      let out := r.receivePart fullHash data env
      c.act k r (out.1, out.2.1) env
  | .hashmapUpdate k update env => (c.segment k).map fun r =>
      let out := r.hashmapUpdatePacket update env
      c.act k r (out.1, out.2.1) env
  | .requestNext k env => (c.segment k).map fun r => c.act k r (r.requestNext env) env
  | .request k requestData env => (c.segment k).bind fun r =>
      (r.request requestData env).map fun out => c.act k r out env
  | .validateProof k proofData input => (c.segment k).map fun r =>
      c.validateProof fullHash k r proofData input
  | .rejected k => (c.segment k).map fun r => c.perform k r r.rejected
  | .cancel k env => (c.segment k).map fun r => c.act k r (r.cancel env) env
  | .watchdog k env => (c.segment k).map fun r => c.act k r (r.watchdog env) env
  | .queue k =>
      if k ∈ c.jobs then (c.segment k).map fun r => c.perform k r (r.queue, []) else none
  | .advertise k env =>
      if k ∈ c.jobs then (c.segment k).map fun r =>
        { c with jobs := c.jobs.erase k }.act k r (r.advertise env) env
      else none
  | .prepareNextSegment k input => some (c.prepareNextSegment fullHash k input)
  | .assemble i d env => c.copies[i]?.map fun copy =>
      c.assemble i copy (copy.resource.assemble fullHash d env) env

/-- A transfer that begins: a resource that was made or accepted. -/
def start (r : Resource) (jobs : List Nat) : Chain :=
  { earlier := [], live := r, next := none, jobs := jobs, copies := [], callbacks := 0,
    movedBack := false }

/-! ## When the events come in time -/

/-- No assembly of the last segment has run the callback or will run it. -/
def Settled (c : Chain) : Prop :=
  c.live.callback = true → c.live.status = .assembling →
    c.callbacks = 0 ∧ ∀ copy ∈ c.copies, ¬ copy.resource.Rings

/-- No next segment has the callback. -/
def NoNext (c : Chain) : Prop := ∀ next ∈ c.next, next.callback = false

/-- The transfer may be given up. -/
def Alone (c : Chain) : Prop := c.NoNext ∧ c.Settled

/-- The event comes in time. -/
def Timely (c : Chain) : Event → Prop
  | .receivePart k _ _ => ∀ r ∈ c.segment k, r.Open
  | .hashmapUpdate k update _ => ∀ r ∈ c.segment k,
      (r.waitingForHmu = true → r.Open) ∧ (r.EmptyUpdate update → c.Alone)
  | .requestNext k env => ∀ r ∈ c.segment k, r.RequestUnsent env → c.Alone
  | .request k requestData env => ∀ r ∈ c.segment k, r.Open ∧ (r.status ≠ .failed →
      ¬ r.CancelledComplete requestData env ∧ (r.HashmapUnanswered requestData env → c.Alone))
  | .validateProof k proofData _ => ∀ r ∈ c.segment k, r.proofMatches proofData → r.Open
  | .rejected k => ∀ r ∈ c.segment k, r.initiator = true → r.status = .assembling → c.Settled
  | .cancel _ _ => c.Alone
  | .watchdog k env => ∀ r ∈ c.segment k, r.GivenUp env → c.Alone
  | .queue k => ∀ r ∈ c.segment k, r.Unadvertised
  | .advertise k env => ∀ r ∈ c.segment k,
      (AdvertiseSent env → r.Unadvertised) ∧ (¬ AdvertiseSent env → c.Alone)
  | .prepareNextSegment _ _ => True
  | .assemble i d env => ∀ copy ∈ c.copies[i]?,
      copy.hasNext = true → copy.resource.AssemblyUnfinished fullHash d env → c.NoNext

/-! ## The invariant -/

/-- The callback runs once: the earlier segments are complete, and once the
callback has run, or a copy waits to be assembled, the last segment is past
the transfer. -/
structure Inv (c : Chain) : Prop where
  earlier : ∀ r ∈ c.earlier, r.status = .complete
  copies : c.copies = [] ∨ ∃ copy, c.copies = [copy] ∧ copy.segment = c.earlier.length ∧
    5 ≤ c.live.status.code ∧ (copy.resource.Rings → c.callbacks = 0)
  callbacks : c.callbacks = 0 ∨ c.callbacks = 1 ∧ 5 ≤ c.live.status.code
  movedBack : c.movedBack = false

variable {fullHash} {c : Chain} {k : Nat} {r : Resource} {env : Readings}
  {out : Resource × List Effect}

theorem inv_start (r : Resource) (jobs : List Nat) : Inv (start r jobs) :=
  ⟨by simp [start], .inl rfl, .inl rfl, rfl⟩

theorem segment_eq (h : c.segment k = some r) :
    k < c.earlier.length ∧ r ∈ c.earlier ∨ k = c.earlier.length ∧ r = c.live := by
  unfold segment at h
  rcases Nat.lt_trichotomy k c.earlier.length with hk | hk | hk
  · rw [List.getElem?_append_left hk] at h
    exact .inl ⟨hk, List.mem_of_getElem? h⟩
  · subst hk
    simp only [List.getElem?_append_right (Nat.le_refl _), Nat.sub_self,
      List.getElem?_cons_zero] at h
    exact .inr ⟨rfl, (Option.some.inj h).symm⟩
  · rw [List.getElem?_eq_none (by simp; omega)] at h
    cases h

/-- The callback has not run while the last segment is in its transfer. -/
theorem Inv.fresh (hc : c.Inv) (h : c.live.status.code < 5) : c.callbacks = 0 ∧ c.copies = [] := by
  constructor
  · rcases hc.callbacks with hcallbacks | hcallbacks <;> omega
  · rcases hc.copies with hcopies | ⟨copy, -, -, hcode, -⟩
    · exact hcopies
    · omega

/-- The callback may still run when the last segment fails. -/
theorem Inv.unrung (hc : c.Inv) (hsettled : c.Settled) (hcallback : c.live.callback = true)
    (hcode : c.live.status.code < 6) :
    c.callbacks = 0 ∧ ∀ copy ∈ c.copies, ¬ copy.resource.Rings := by
  by_cases hassembling : c.live.status = .assembling
  · exact hsettled hcallback hassembling
  · have hlt : c.live.status.code < 5 := by
      revert hcode hassembling
      cases c.live.status <;> decide
    obtain ⟨hcallbacks, hcopies⟩ := hc.fresh hlt
    exact ⟨hcallbacks, by simp [hcopies]⟩

/-! ## Operations on the last segment -/

theorem put_live : c.put c.earlier.length r = { c with live := r } :=
  if_neg (Nat.lt_irrefl _)

theorem perform_live_eq : c.perform c.earlier.length r out = { c with
    live := out.1
    copies := c.copies ++ (assemblies out.2).map fun copy =>
      ⟨c.earlier.length, c.hasNext c.earlier.length, copy⟩
    callbacks := c.callbacks + calls out.2
    movedBack := c.movedBack || movesBack r.status out.1.status } := by
  unfold perform
  rw [put_live]

theorem movesBack_of_lt {old new : ResourceStatus} (h : old.code < 5) :
    movesBack old new = false := by
  have hcode : ¬ ResourceStatus.assembling.code ≤ old.code := Nat.not_le.mpr h
  simp [movesBack, hcode]

theorem movesBack_of_le {old new : ResourceStatus} (h : 5 ≤ new.code) :
    movesBack old new = false := by
  have htransferring : new ≠ .transferring := by
    rintro rfl
    exact absurd h (by decide)
  have hawaiting : new ≠ .awaitingProof := by
    rintro rfl
    exact absurd h (by decide)
  simp [movesBack, htransferring, hawaiting]

theorem movesBack_self (status : ResourceStatus) : movesBack status status = false := by
  by_cases h : status.code < 5
  · exact movesBack_of_lt h
  · exact movesBack_of_le (Nat.le_of_not_lt h)

/-- The last segment ends, and its callback is run. -/
theorem Inv.conclude_live (hc : c.Inv) (hsettled : c.Settled)
    (hbefore : c.live.status.code < 6) (hafter : 6 ≤ out.1.status.code)
    (hcalls : calls out.2 ≤ c.live.callback.toNat) (hassemblies : assemblies out.2 = []) :
    (c.perform c.earlier.length c.live out).Inv := by
  have hcode : 5 ≤ out.1.status.code := by omega
  have hmoved : movesBack c.live.status out.1.status = false := movesBack_of_le hcode
  rw [perform_live_eq, hassemblies, hmoved]
  simp only [List.map_nil, List.append_nil, Bool.or_false]
  cases hcallback : c.live.callback with
  | false =>
      rw [hcallback] at hcalls
      have hzero : calls out.2 = 0 := Nat.le_zero.mp hcalls
      rw [hzero]
      refine ⟨hc.earlier, ?_, ?_, hc.movedBack⟩
      · rcases hc.copies with hcopies | ⟨copy, hcopies, hsegment, -, hrings⟩
        · exact .inl hcopies
        · exact .inr ⟨copy, hcopies, hsegment, hcode, hrings⟩
      · rcases hc.callbacks with hcallbacks | ⟨hcallbacks, -⟩
        · exact .inl hcallbacks
        · exact .inr ⟨hcallbacks, hcode⟩
  | true =>
      rw [hcallback] at hcalls
      have hone : calls out.2 ≤ 1 := hcalls
      obtain ⟨hcallbacks, hsilent⟩ := hc.unrung hsettled hcallback hbefore
      refine ⟨hc.earlier, ?_, ?_, hc.movedBack⟩
      · rcases hc.copies with hcopies | ⟨copy, hcopies, hsegment, -, -⟩
        · exact .inl hcopies
        · refine .inr ⟨copy, hcopies, hsegment, hcode, fun hrings => ?_⟩
          exact absurd hrings (hsilent copy (by simp [hcopies]))
      · show c.callbacks + calls out.2 = 0 ∨ c.callbacks + calls out.2 = 1 ∧ 5 ≤ out.1.status.code
        omega

theorem settled_of_lt (h : c.live.status.code < 5) : c.Settled := by
  intro _ hassembling
  rw [hassembling] at h
  exact absurd h (by decide)

/-- A segment that keeps its status changes nothing that counts. -/
theorem Inv.keep_live (hc : c.Inv) (hstatus : out.1.status = c.live.status)
    (hcalls : calls out.2 = 0) (hassemblies : assemblies out.2 = []) :
    (c.perform c.earlier.length c.live out).Inv := by
  rw [perform_live_eq, hcalls, hassemblies, hstatus, movesBack_self]
  simp only [List.map_nil, List.append_nil, Bool.or_false]
  refine ⟨hc.earlier, ?_, ?_, hc.movedBack⟩
  · show c.copies = [] ∨ ∃ copy, c.copies = [copy] ∧ copy.segment = c.earlier.length ∧
      5 ≤ out.1.status.code ∧ (copy.resource.Rings → c.callbacks = 0)
    rw [hstatus]
    exact hc.copies
  · show c.callbacks = 0 ∨ c.callbacks = 1 ∧ 5 ≤ out.1.status.code
    rw [hstatus]
    exact hc.callbacks

theorem Inv.perform_live (hc : c.Inv) (h : Outcome c.live out.1 out.2)
    (hsettled : .cancelNext ∈ out.2 → c.Settled) :
    (c.perform c.earlier.length c.live out).Inv := by
  cases h with
  | keep status quiet => exact hc.keep_live status quiet.calls quiet.assemblies
  | onward before after quiet =>
      obtain ⟨hcallbacks, hcopies⟩ := hc.fresh before
      rw [perform_live_eq, quiet.calls, quiet.assemblies, movesBack_of_lt before, hcopies, hcallbacks]
      exact ⟨hc.earlier, .inl rfl, .inl rfl, by simp [hc.movedBack]⟩
  | assemble copy before after calls assemblies cancels =>
      obtain ⟨hcallbacks, hcopies⟩ := hc.fresh before
      have hcode : 5 ≤ out.1.status.code := by
        rw [after]
        decide
      rw [perform_live_eq, calls, assemblies, movesBack_of_lt before, hcopies, hcallbacks]
      exact ⟨hc.earlier, .inr ⟨_, rfl, rfl, hcode, fun _ => rfl⟩, .inl rfl,
        by simp [hc.movedBack]⟩
  | cancel failed kept calls assemblies cancels =>
      by_cases hcode : c.live.status.code < 6
      · refine hc.conclude_live (hsettled cancels) hcode ?_ calls assemblies
        rw [failed hcode]
        decide
      · obtain ⟨hstatus, hcalls⟩ := kept (Nat.le_of_not_lt hcode)
        exact hc.keep_live hstatus hcalls assemblies
  | conclude before after calls assemblies cancels =>
      exact hc.conclude_live (settled_of_lt before) (by omega) after calls assemblies

/-! ## Operations on the earlier segments -/

/-- A complete segment stays complete. -/
theorem perform_earlier (hk : k < c.earlier.length) (hr : r.status = .complete)
    (h : Outcome r out.1 out.2) :
    c.perform k r out = { c with earlier := c.earlier.set k out.1 } ∧
      out.1.status = .complete := by
  have hlate : ¬ r.status.code < 5 := by
    rw [hr]
    decide
  have hfacts : out.1.status = .complete ∧ calls out.2 = 0 ∧ assemblies out.2 = [] := by
    cases h with
    | keep status quiet => exact ⟨status.trans hr, quiet.calls, quiet.assemblies⟩
    | onward before => exact absurd before hlate
    | assemble copy before => exact absurd before hlate
    | cancel failed kept calls assemblies cancels =>
        obtain ⟨hstatus, hcalls⟩ := kept (by rw [hr]; decide)
        exact ⟨hstatus.trans hr, hcalls, assemblies⟩
    | conclude before => exact absurd before hlate
  obtain ⟨hstatus, hcalls, hassemblies⟩ := hfacts
  refine ⟨?_, hstatus⟩
  unfold perform
  rw [hcalls, hassemblies, hr, hstatus, movesBack_self]
  simp [put, hk]

theorem Inv.set_earlier (hc : c.Inv) (h : r.status = .complete) :
    Inv { c with earlier := c.earlier.set k r } := by
  refine ⟨fun r' hr' => ?_, ?_, hc.callbacks, hc.movedBack⟩
  · rcases List.mem_or_eq_of_mem_set hr' with hmem | rfl
    · exact hc.earlier r' hmem
    · exact h
  · simpa using hc.copies

theorem Inv.perform (hc : c.Inv) (hr : c.segment k = some r) (h : Outcome r out.1 out.2)
    (hsettled : .cancelNext ∈ out.2 → c.Settled) : (c.perform k r out).Inv := by
  rcases segment_eq hr with ⟨hk, hmem⟩ | ⟨rfl, rfl⟩
  · obtain ⟨heq, hstatus⟩ := perform_earlier hk (hc.earlier r hmem) h
    rw [heq]
    exact hc.set_earlier hstatus
  · exact hc.perform_live h hsettled

/-! ## Cancelling the later segments -/

theorem calls_cancel_complete (h : r.status = .complete) :
    calls (r.cancel env).2 = 0 ∧ (r.cancel env).1.status = .complete := by
  obtain ⟨hstatus, hcalls⟩ := (cancel_facts r env).2.1 (by rw [h]; decide)
  exact ⟨hcalls, hstatus.trans h⟩

theorem NoNext.calls_eq (h : c.NoNext) :
    (c.next.elim 0 fun next => calls (next.cancel env).2) = 0 := by
  cases hnext : c.next with
  | none => rfl
  | some next =>
      have hcallback : next.callback = false := h next (by simp [hnext])
      have hcalls := (cancel_facts next env).2.2.1
      rw [hcallback] at hcalls
      exact Nat.le_zero.mp hcalls

theorem sum_calls_cancel {later : List Resource} (h : ∀ r ∈ later, r.status = .complete) :
    (later.map fun r => calls (r.cancel env).2).sum = 0 := by
  induction later with
  | nil => rfl
  | cons r later ih =>
      rw [List.map_cons, List.sum_cons, (calls_cancel_complete (h r (by simp))).1,
        ih fun r' hr' => h r' (by simp [hr'])]

theorem Inv.cancelAfter (hc : c.Inv) (hnext : c.NoNext)
    (hsettled : k < c.earlier.length → c.Settled) : (c.cancelAfter k env).Inv := by
  have hlater : ∀ r ∈ c.earlier.drop (k + 1), r.status = .complete := fun r hr =>
    hc.earlier r (List.mem_of_mem_drop hr)
  have hlength : (c.earlier.take (k + 1) ++
      (c.earlier.drop (k + 1)).map fun r => (r.cancel env).1).length = c.earlier.length := by
    rw [List.length_append, List.length_map, ← List.length_append, List.take_append_drop]
  have hearlier : ∀ r ∈ c.earlier.take (k + 1) ++
      (c.earlier.drop (k + 1)).map fun r => (r.cancel env).1, r.status = .complete := by
    intro r hr
    rcases List.mem_append.mp hr with hr | hr
    · exact hc.earlier r (List.mem_of_mem_take hr)
    · obtain ⟨r', hr', rfl⟩ := List.mem_map.mp hr
      exact (calls_cancel_complete (hlater r' hr')).2
  unfold Chain.cancelAfter
  dsimp only
  rw [sum_calls_cancel hlater, hnext.calls_eq]
  by_cases hk : k < c.earlier.length
  · -- the last segment is cancelled as by an operation of its own
    have hlive : (c.perform c.earlier.length c.live (c.live.cancel env)).Inv :=
      hc.perform_live (.of_cancel (.inl rfl) rfl) fun _ => hsettled hk
    rw [perform_live_eq, (cancel_facts c.live env).2.2.2.1] at hlive
    simp only [List.map_nil, List.append_nil] at hlive
    simp only [if_pos hk, Nat.add_zero]
    refine ⟨hearlier, ?_, hlive.callbacks, hc.movedBack⟩
    have hcopies := hlive.copies
    dsimp only at hcopies ⊢
    rw [hlength]
    exact hcopies
  · simp only [if_neg hk, Nat.add_zero]
    refine ⟨hearlier, ?_, hc.callbacks, hc.movedBack⟩
    have hcopies := hc.copies
    dsimp only
    rw [hlength]
    exact hcopies

/-- An operation that may cancel keeps the invariant, provided it cancels only
a transfer that may be given up. -/
theorem Inv.act (hc : c.Inv) (hr : c.segment k = some r) (h : Outcome r out.1 out.2)
    (halone : .cancelNext ∈ out.2 → c.Alone) : (c.act k r out env).Inv := by
  unfold Chain.act cascade
  rcases segment_eq hr with ⟨hk, hmem⟩ | ⟨rfl, rfl⟩
  · obtain ⟨heq, hstatus⟩ := perform_earlier hk (hc.earlier r hmem) h
    rw [heq]
    have hset := hc.set_earlier (k := k) hstatus
    split
    · rename_i hcancels
      obtain ⟨hnext, hsettled⟩ := halone hcancels
      exact hset.cancelAfter hnext fun _ => hsettled
    · exact hset
  · have hlive := hc.perform_live h fun hcancels => (halone hcancels).2
    have hlength : (c.perform c.earlier.length c.live out).earlier.length = c.earlier.length := by
      rw [perform_live_eq]
    have hnext : (c.perform c.earlier.length c.live out).next = c.next := by
      rw [perform_live_eq]
    split
    · rename_i hcancels
      refine hlive.cancelAfter ?_ fun hlt => absurd hlt (by omega)
      unfold NoNext
      rw [hnext]
      exact (halone hcancels).1
    · exact hlive

theorem Inv.rejected (hc : c.Inv) (hr : c.segment k = some r)
    (h : r.initiator = true → r.status = .assembling → c.Settled) :
    (c.perform k r r.rejected).Inv := by
  by_cases hassembling : r.initiator = true ∧ r.status = .assembling
  · obtain ⟨hinitiator, hassembling⟩ := hassembling
    have hcode : r.status.code < 6 := by
      rw [hassembling]
      decide
    obtain ⟨hstatus, hcalls, hassemblies, -⟩ := rejected_facts hcode hinitiator
    rcases segment_eq hr with ⟨-, hmem⟩ | ⟨rfl, rfl⟩
    · rw [hc.earlier r hmem] at hassembling
      cases hassembling
    · refine hc.conclude_live (h hinitiator hassembling) hcode ?_ hcalls hassemblies
      rw [hstatus]
      decide
  · obtain ⟨houtcome, hcancels⟩ := rejected_outcome fun hinitiator hstatus =>
      hassembling ⟨hinitiator, hstatus⟩
    exact hc.perform hr houtcome fun hnext => absurd hnext hcancels

/-! ## Proofs and assemblies -/

theorem segment_prepareNextSegment {input : Option SegmentInput} (h : c.segment k = some r) :
    ∃ r₁, (c.prepareNextSegment fullHash k input).segment k = some r₁ ∧
      r₁.status = r.status ∧ r₁.expectedProof = r.expectedProof := by
  unfold prepareNextSegment
  split
  · rename_i hlast
    obtain ⟨hk, -⟩ := hlast
    rcases segment_eq h with ⟨hlt, -⟩ | ⟨-, rfl⟩
    · omega
    · refine ⟨{ c.live with preparingNextSegment := true }, ?_, rfl, rfl⟩
      subst hk
      simp [segment]
  · exact ⟨r, h, rfl, rfl⟩

theorem Inv.prepareNextSegment {input : Option SegmentInput} (hc : c.Inv) :
    (c.prepareNextSegment fullHash k input).Inv := by
  unfold Chain.prepareNextSegment
  split
  · exact ⟨hc.earlier, hc.copies, hc.callbacks, hc.movedBack⟩
  · exact hc

/-- A proof that arrives in time. -/
theorem Inv.validateProof {proofData : Bytes} {input : Option SegmentInput} (hc : c.Inv)
    (hr : c.segment k = some r) (h : r.proofMatches proofData → r.Open) :
    (c.validateProof fullHash k r proofData input).Inv := by
  unfold Chain.validateProof
  dsimp only
  obtain ⟨c₁, hc₁⟩ : ∃ c₁, (if r.status ≠ .failed ∧ r.proofMatches proofData ∧
      r.segmentIndex ≠ r.totalSegments ∧ ¬ r.preparingNextSegment
    then c.prepareNextSegment fullHash k input else c) = c₁ := ⟨_, rfl⟩
  have hready : c₁.Inv ∧ ∃ r₁, c₁.segment k = some r₁ ∧ r₁.status = r.status ∧
      r₁.expectedProof = r.expectedProof := by
    subst hc₁
    split
    · exact ⟨hc.prepareNextSegment, segment_prepareNextSegment hr⟩
    · exact ⟨hc, r, hr, rfl, rfl⟩
  obtain ⟨hinv, r₁, hr₁, hstatus, hexpected⟩ := hready
  have hopen : r₁.proofMatches proofData → r₁.Open := by
    unfold proofMatches Open at *
    rw [hstatus, hexpected]
    exact h
  rw [hc₁, hr₁, Option.getD_some]
  obtain ⟨houtcome, hadvertises, hcancels⟩ :=
    validateProof_outcome (c₁.hasNext k) hopen
  rcases segment_eq hr₁ with ⟨hk, hmem⟩ | ⟨rfl, rfl⟩
  · have hcomplete := hinv.earlier r₁ hmem
    obtain ⟨heq, hafter⟩ := perform_earlier hk hcomplete houtcome
    rw [if_neg]
    · rw [heq]
      exact hinv.set_earlier hafter
    · intro hnext
      have hcode := (hadvertises hnext).1
      rw [hcomplete] at hcode
      exact absurd hcode (by decide)
  · have hlive := hinv.perform_live houtcome fun hnext => absurd hnext hcancels
    split
    · rename_i hnext
      obtain ⟨hcode, -, hcalls, hassemblies, hafter⟩ := hadvertises hnext
      obtain ⟨hcallbacks, hcopies⟩ := hinv.fresh hcode
      unfold advertiseNext
      dsimp only
      split
      · split
        · refine ⟨?_, .inl ?_, .inl ?_, hlive.movedBack⟩
          · intro r hr
            rcases List.mem_append.mp hr with hr | hr
            · exact hlive.earlier r hr
            · obtain rfl := List.mem_singleton.mp hr
              rw [perform_live_eq]
              exact hafter
          · rw [perform_live_eq, hcopies, hassemblies]
            rfl
          · rw [perform_live_eq, hcallbacks, hcalls]
        · exact ⟨hlive.earlier, hlive.copies, hlive.callbacks, hlive.movedBack⟩
      · exact ⟨hlive.earlier, hlive.copies, hlive.callbacks, hlive.movedBack⟩
    · exact hlive

theorem Inv.assemble {i : Nat} {copy : Copy} {d : Decoding} (hc : c.Inv)
    (hcopy : c.copies[i]? = some copy)
    (hnext : copy.hasNext = true → copy.resource.AssemblyUnfinished fullHash d env → c.NoNext) :
    (c.assemble i copy (copy.resource.assemble fullHash d env) env).Inv := by
  have hmem := List.mem_of_getElem? hcopy
  rcases hc.copies with hcopies | ⟨copy', hcopies, hsegment, hcode, hrings⟩
  · rw [hcopies] at hmem
    cases hmem
  obtain rfl : copy = copy' := by
    rw [hcopies] at hmem
    exact List.mem_singleton.mp hmem
  have hi : i = 0 := by
    have hlt := (List.getElem?_eq_some_iff.mp hcopy).1
    rw [hcopies, List.length_singleton] at hlt
    omega
  have herased : c.copies.eraseIdx i = [] := by
    rw [hcopies, hi]
    rfl
  unfold Chain.assemble
  dsimp only
  rw [herased]
  split
  · exact ⟨hc.earlier, .inl rfl, hc.callbacks, hc.movedBack⟩
  · rename_i out hout
    obtain ⟨hcalls, hunfinished⟩ := assemble_facts hout
    have hsum : c.callbacks + calls out.2 = 0 ∨
        c.callbacks + calls out.2 = 1 ∧ 5 ≤ c.live.status.code := by
      by_cases hring : copy.resource.Rings
      · rw [if_pos hring] at hcalls
        have hzero := hrings hring
        omega
      · rw [if_neg hring] at hcalls
        have hcallbacks := hc.callbacks
        omega
    have hinv : Inv { c with copies := [], callbacks := c.callbacks + calls out.2 } :=
      ⟨hc.earlier, .inl rfl, hsum, hc.movedBack⟩
    unfold cascade
    split
    · rename_i hhas
      split
      · rename_i hcancels
        refine hinv.cancelAfter (hnext hhas (hunfinished hcancels)) fun hlt => ?_
        rw [hsegment] at hlt
        exact absurd hlt (Nat.lt_irrefl _)
      · exact hinv
    · exact hinv

/-! ## Every run -/

theorem inv_step {e : Event} {c' : Chain} (hc : c.Inv) (h : Timely fullHash c e)
    (hstep : step fullHash c e = some c') : c'.Inv := by
  cases e with
  | receivePart k data env =>
      obtain ⟨r, hr, rfl⟩ := Option.map_eq_some_iff.mp hstep
      obtain ⟨houtcome, hcancels⟩ := receivePart_outcome data (h r hr)
      exact hc.act hr houtcome fun hnext => absurd hnext hcancels
  | hashmapUpdate k update env =>
      obtain ⟨r, hr, rfl⟩ := Option.map_eq_some_iff.mp hstep
      obtain ⟨hopen, halone⟩ := h r hr
      obtain ⟨houtcome, hcancels⟩ := hashmapUpdatePacket_outcome update hopen
      exact hc.act hr houtcome fun hnext => halone (hcancels hnext)
  | requestNext k env =>
      obtain ⟨r, hr, rfl⟩ := Option.map_eq_some_iff.mp hstep
      obtain ⟨houtcome, hcancels⟩ := requestNext_outcome r env
      exact hc.act hr houtcome fun hnext => h r hr (hcancels hnext)
  | request k requestData env =>
      obtain ⟨r, hr, hmap⟩ := Option.bind_eq_some_iff.mp hstep
      obtain ⟨out, hout, rfl⟩ := Option.map_eq_some_iff.mp hmap
      obtain ⟨hopen, hrest⟩ := h r hr
      obtain ⟨houtcome, hcancels⟩ :=
        request_outcome hopen (fun hfailed => (hrest hfailed).1) hout
      refine hc.act hr houtcome fun hnext => ?_
      obtain ⟨hfailed, hunanswered⟩ := hcancels hnext
      exact (hrest hfailed).2 hunanswered
  | validateProof k proofData input =>
      obtain ⟨r, hr, rfl⟩ := Option.map_eq_some_iff.mp hstep
      exact hc.validateProof hr (h r hr)
  | rejected k =>
      obtain ⟨r, hr, rfl⟩ := Option.map_eq_some_iff.mp hstep
      exact hc.rejected hr (h r hr)
  | cancel k env =>
      obtain ⟨r, hr, rfl⟩ := Option.map_eq_some_iff.mp hstep
      exact hc.act hr (.of_cancel (.inl rfl) rfl) fun _ => h
  | watchdog k env =>
      obtain ⟨r, hr, rfl⟩ := Option.map_eq_some_iff.mp hstep
      obtain ⟨houtcome, hcancels⟩ := watchdog_outcome r env
      exact hc.act hr houtcome fun hnext => h r hr (hcancels hnext)
  | queue k =>
      simp only [step] at hstep
      split at hstep
      · obtain ⟨r, hr, rfl⟩ := Option.map_eq_some_iff.mp hstep
        have houtcome : Outcome r (r.queue, ([] : List Effect)).1 (r.queue, []).2 :=
          queue_outcome (h r hr)
        exact hc.perform hr houtcome (by simp)
      · cases hstep
  | advertise k env =>
      simp only [step] at hstep
      split at hstep
      · obtain ⟨r, hr, rfl⟩ := Option.map_eq_some_iff.mp hstep
        obtain ⟨hunadvertised, halone⟩ := h r hr
        obtain ⟨houtcome, hcancels⟩ := advertise_outcome hunadvertised
        have hjobs : Inv { c with jobs := c.jobs.erase k } :=
          ⟨hc.earlier, hc.copies, hc.callbacks, hc.movedBack⟩
        exact hjobs.act hr houtcome fun hnext => halone (hcancels hnext)
      · cases hstep
  | prepareNextSegment k input =>
      obtain rfl := Option.some.inj hstep
      exact hc.prepareNextSegment
  | assemble i d env =>
      obtain ⟨copy, hcopy, rfl⟩ := Option.map_eq_some_iff.mp hstep
      exact hc.assemble hcopy (h copy hcopy)

/-- In every run whose events come in time, the callback is run at most once
and no concluded segment returns to the transfer. -/
theorem concludes_once (r : Resource) (jobs : List Nat) {es : List Event} {c : Chain}
    (hes : Runs.Meets (step fullHash) (Timely fullHash) (start r jobs) es)
    (hrun : Runs.exec (step fullHash) (start r jobs) es = some c) :
    c.callbacks ≤ 1 ∧ c.movedBack = false := by
  have hinv : c.Inv := Runs.invariant (fun _ _ _ hc hok hstep => inv_step hc hok hstep)
    (inv_start r jobs) hes hrun
  refine ⟨?_, hinv.movedBack⟩
  rcases hinv.callbacks with hcallbacks | ⟨hcallbacks, -⟩ <;> omega

/-- The receiver of one byte, sent as a stream of two parts. -/
def sampleReceiver : Resource :=
  ((outgoing byteHash true 1 [7, 8] [5] false [[0, 0, 0, 0]]).bind fun sender =>
    accept sender.advertisement none true).getD (blank true)

/-- The stream of `sampleReceiver` decrypts to its salt and its byte. -/
def sampleDecoding : Decoding :=
  { decrypt := fun _ => some [0, 0, 0, 0, 5], decompress := some, storageOk := true
    combined := none }

/-- The receiver asks for its parts, takes them and assembles them. -/
def sampleRun : List Event :=
  [.requestNext 0 calm, .receivePart 0 [7] calm, .receivePart 0 [8] calm,
    .assemble 0 sampleDecoding calm]

theorem sampleRun_timely :
    Runs.Meets (step byteHash) (Timely byteHash) (start sampleReceiver []) sampleRun := by
  rintro _ ⟨⟩
  refine ⟨fun r _ hunsent => (nomatch hunsent.2.2), ?_⟩
  rintro _ ⟨⟩
  refine ⟨?_, ?_⟩
  · rintro _ ⟨⟩
    exact .inl (by decide +kernel)
  rintro _ ⟨⟩
  refine ⟨?_, ?_⟩
  · rintro _ ⟨⟩
    exact .inl (by decide +kernel)
  rintro _ ⟨⟩
  refine ⟨?_, True.intro⟩
  rintro _ ⟨⟩
  intro hnext
  exact nomatch hnext

/-- The receiver of two parts concludes once. -/
theorem concludes_once_two_parts : ∃ c,
    Runs.exec (step byteHash) (start sampleReceiver []) sampleRun = some c ∧
    c.callbacks = 1 ∧ c.callbacks ≤ 1 ∧ c.movedBack = false := by
  obtain ⟨c, hrun, hcalls⟩ : ∃ c,
      Runs.exec (step byteHash) (start sampleReceiver []) sampleRun = some c ∧
      c.callbacks = 1 := ⟨_, rfl, rfl⟩
  exact ⟨c, hrun, hcalls, concludes_once sampleReceiver [] sampleRun_timely hrun⟩

/-- A part that arrives twice takes the resource from Assembling back to
Transferring; the assembly of the copy runs the callback, and the watchdog,
which finds a transfer on a closed link, runs it again. -/
theorem concludes_twice_of_late_part : ∃ c,
    Runs.exec (step byteHash) (start sampleReceiver [])
      [.requestNext 0 calm, .receivePart 0 [7] calm, .receivePart 0 [8] calm,
        .receivePart 0 [8] calm, .assemble 0 sampleDecoding calm,
        .watchdog 0 { calm with linkActive := false, linkDown := true }] = some c ∧
    c.callbacks = 2 ∧ c.movedBack = true ∧
    ¬ (c.callbacks ≤ 1 ∧ c.movedBack = false) := by
  refine ⟨_, rfl, rfl, rfl, ?_⟩
  rintro ⟨-, hmoved⟩
  cases hmoved

end Chain

end Reticulum.Resource
