import Reticulum.Resource.Assembly
import Reticulum.Resource.Frame

/-!
# What an event does to the status of a resource

Every operation on a resource that has not concluded keeps the status, moves
the transfer on, starts the assembly, cancels, or concludes. This is all that
counting the callbacks of a transfer needs to know about it.
-/

namespace Reticulum.Resource

/-- How often the application's callback is run. -/
def calls (effects : List Effect) : Nat :=
  effects.countP fun
    | .callback _ => true
    | _ => false

/-- The copies whose assembly is started. -/
def assemblies (effects : List Effect) : List Resource :=
  effects.filterMap fun
    | .assemble copy => some copy
    | _ => none

/-- The transfer goes on, or has failed for good. -/
def Open (r : Resource) : Prop := r.status.code < 5 ∨ r.status = .failed

/-- Effects that run no callback, start no assembly and cancel no segment. -/
structure Quiet (effects : List Effect) : Prop where
  calls : calls effects = 0
  assemblies : assemblies effects = []
  cancels : .cancelNext ∉ effects

/-- What an operation does to a resource. -/
inductive Outcome (r r' : Resource) (effects : List Effect) : Prop
  | keep (status : r'.status = r.status) (quiet : Quiet effects)
  | onward (before : r.status.code < 5) (after : r'.status.code < 5) (quiet : Quiet effects)
  | assemble (copy : Resource) (before : r.status.code < 5) (after : r'.status = .assembling)
      (calls : calls effects = 0) (assemblies : assemblies effects = [copy])
      (cancels : .cancelNext ∉ effects)
  | cancel (failed : r.status.code < 6 → r'.status = .failed)
      (kept : 6 ≤ r.status.code → r'.status = r.status ∧ calls effects = 0)
      (calls : calls effects ≤ r.callback.toNat)
      (assemblies : assemblies effects = []) (cancels : .cancelNext ∈ effects)
  | conclude (before : r.status.code < 5) (after : 6 ≤ r'.status.code)
      (calls : calls effects ≤ r.callback.toNat) (assemblies : assemblies effects = [])
      (cancels : .cancelNext ∉ effects)

theorem calls_append (es fs : List Effect) : calls (es ++ fs) = calls es + calls fs :=
  List.countP_append

theorem assemblies_append (es fs : List Effect) :
    assemblies (es ++ fs) = assemblies es ++ assemblies fs :=
  List.filterMap_append

theorem Quiet.nil : Quiet [] := ⟨rfl, rfl, List.not_mem_nil⟩

variable {r : Resource} {env : Readings} {fullHash : Bytes → Digest}

/-! ## Cancelling -/

/-- Quiet effects may come before those of an operation. -/
theorem Outcome.append {r' : Resource} {es fs : List Effect} (hes : Quiet es)
    (h : Outcome r r' fs) : Outcome r r' (es ++ fs) := by
  have hcalls : calls (es ++ fs) = calls fs := by rw [calls_append, hes.calls, Nat.zero_add]
  have hassemblies : assemblies (es ++ fs) = assemblies fs := by
    rw [assemblies_append, hes.assemblies, List.nil_append]
  have hcancels : .cancelNext ∈ es ++ fs ↔ .cancelNext ∈ fs := by simp [hes.cancels]
  cases h with
  | keep status quiet =>
      exact .keep status ⟨hcalls ▸ quiet.calls, hassemblies ▸ quiet.assemblies,
        mt hcancels.mp quiet.cancels⟩
  | onward before after quiet =>
      exact .onward before after ⟨hcalls ▸ quiet.calls, hassemblies ▸ quiet.assemblies,
        mt hcancels.mp quiet.cancels⟩
  | assemble copy before after calls assemblies cancels =>
      exact .assemble copy before after (hcalls ▸ calls) (hassemblies ▸ assemblies)
        (mt hcancels.mp cancels)
  | cancel failed kept calls assemblies cancels =>
      exact .cancel failed (hcalls ▸ kept) (hcalls ▸ calls) (hassemblies ▸ assemblies)
        (hcancels.mpr cancels)
  | conclude before after calls assemblies cancels =>
      exact .conclude before after (hcalls ▸ calls) (hassemblies ▸ assemblies)
        (mt hcancels.mp cancels)

theorem cancel_facts (r : Resource) (env : Readings) :
    (r.status.code < 6 → (r.cancel env).1.status = .failed) ∧
    (6 ≤ r.status.code → (r.cancel env).1.status = r.status ∧ calls (r.cancel env).2 = 0) ∧
    calls (r.cancel env).2 ≤ r.callback.toNat ∧
    assemblies (r.cancel env).2 = [] ∧ .cancelNext ∈ (r.cancel env).2 := by
  unfold Resource.cancel
  split
  · rename_i hcorrupt
    refine ⟨fun hcode => ?_, fun _ => ⟨rfl, rfl⟩, Nat.zero_le _, rfl, by simp⟩
    rw [hcorrupt] at hcode
    exact absurd hcode (by decide)
  · split
    · rename_i hcode
      dsimp only
      refine ⟨fun _ => rfl, fun hlate => absurd hcode (Nat.not_lt.mpr hlate), ?_, ?_, by simp⟩
      · split <;> split <;> cases r.callback <;> simp [calls]
      · split <;> split <;> split <;> simp [assemblies]
    · rename_i hcode
      exact ⟨fun hearly => absurd hearly hcode, fun _ => ⟨rfl, rfl⟩, Nat.zero_le _, rfl, by simp⟩

/-- Cancelling a resource, perhaps after its transfer has gone on. -/
theorem Outcome.of_cancel {r₁ : Resource}
    (h : r₁.status = r.status ∨ r.status.code < 6 ∧ r₁.status.code < 6)
    (hcallback : r₁.callback = r.callback) :
    Outcome r (r₁.cancel env).1 (r₁.cancel env).2 := by
  obtain ⟨hfailed, hkept, hcalls, hassemblies, hcancels⟩ := cancel_facts r₁ env
  rw [hcallback] at hcalls
  rcases h with h | ⟨h, h₁⟩
  · rw [h] at hfailed hkept
    exact .cancel hfailed hkept hcalls hassemblies hcancels
  · exact .cancel (fun _ => hfailed h₁) (fun hlate => absurd h (Nat.not_lt.mpr hlate)) hcalls
      hassemblies hcancels

/-- Only the status and the callback of the resource before an operation
count. -/
theorem Outcome.of_status {r₁ r' : Resource} {effects : List Effect}
    (h : Outcome r₁ r' effects) (hstatus : r₁.status = r.status)
    (hcallback : r₁.callback = r.callback) : Outcome r r' effects := by
  cases h with
  | keep status quiet => exact .keep (status.trans hstatus) quiet
  | onward before after quiet => exact .onward (hstatus ▸ before) after quiet
  | assemble copy before after calls assemblies cancels =>
      exact .assemble copy (hstatus ▸ before) after calls assemblies cancels
  | cancel failed kept calls assemblies cancels =>
      rw [hstatus] at failed kept
      exact .cancel failed kept (hcallback ▸ calls) assemblies cancels
  | conclude before after calls assemblies cancels =>
      exact .conclude (hstatus ▸ before) after (hcallback ▸ calls) assemblies cancels

/-! ## The receiver's events -/

theorem status_beginPart : (r.beginPart env).status = r.status := by
  unfold beginPart firstResponse
  split
  · rfl
  · dsimp only
    split <;> rfl

theorem status_storeMatches (partHash : MapHash) (data : Bytes) (hashes : List MapHash) (i : Nat)
    (r : Resource) : (storeMatches partHash data hashes i r).status = r.status := by
  induction hashes generalizing i r with
  | nil => rfl
  | cons h hashes ih =>
      rw [storeMatches, ih]
      split <;> rfl

theorem status_storeInWindow (data : Bytes) :
    (r.storeInWindow fullHash data).status = .transferring := by
  unfold storeInWindow
  rw [status_storeMatches]

theorem status_growWindow : r.growWindow.status = r.status := by
  unfold growWindow
  split <;> rfl

theorem status_measureRate : (r.measureRate env).status = r.status := by
  unfold measureRate
  split
  · dsimp only
    split <;> split <;> rfl
  · rfl

/-- A part moves the transfer on, or starts the assembly. -/
theorem receivePart_outcome (data : Bytes) (h : r.Open) :
    Outcome r (r.receivePart fullHash data env).1 (r.receivePart fullHash data env).2.1 ∧
    .cancelNext ∉ (r.receivePart fullHash data env).2.1 := by
  unfold receivePart
  dsimp only
  rw [status_beginPart]
  split
  · exact ⟨.keep status_beginPart .nil, by simp⟩
  · rename_i hfailed
    have hbefore : r.status.code < 5 := h.resolve_right hfailed
    split
    · exact ⟨.assemble _ hbefore rfl rfl rfl (by simp), by simp⟩
    · split
      · refine ⟨.onward hbefore ?_ .nil, by simp⟩
        rw [status_measureRate, status_growWindow, status_storeInWindow]
        decide
      · refine ⟨.onward hbefore ?_ .nil, by simp⟩
        rw [status_storeInWindow]
        decide

theorem prepareRequestNextData_facts (r : Resource) :
    r.prepareRequestNextData.1.status = r.status ∧
    r.prepareRequestNextData.1.callback = r.callback := by
  unfold prepareRequestNextData
  split
  · exact ⟨rfl, rfl⟩
  · dsimp only
    split
    · split <;> exact ⟨rfl, rfl⟩
    · exact ⟨rfl, rfl⟩

/-- A request that cannot be sent cancels. -/
def RequestUnsent (r : Resource) (env : Readings) : Prop :=
  r.status ≠ .failed ∧ r.waitingForHmu = false ∧ env.sendOk = false

theorem requestNext_outcome (r : Resource) (env : Readings) :
    Outcome r (r.requestNext env).1 (r.requestNext env).2 ∧
    (.cancelNext ∈ (r.requestNext env).2 → r.RequestUnsent env) := by
  obtain ⟨hstatus, hcallback⟩ := prepareRequestNextData_facts r
  unfold requestNext
  split
  · rename_i r₁ hr₁
    rw [hr₁] at hstatus hcallback
    exact ⟨.keep hstatus .nil, by simp⟩
  · rename_i r₁ data hr₁
    rw [hr₁] at hstatus hcallback
    split
    · exact ⟨.keep hstatus ⟨rfl, rfl, by simp⟩, by simp⟩
    · rename_i hsend
      refine ⟨.of_cancel (.inl hstatus) hcallback, fun _ => ?_⟩
      have hready : ¬ (r.status = .failed ∨ r.waitingForHmu = true) := by
        intro hnot
        simp [prepareRequestNextData, hnot] at hr₁
      rw [not_or] at hready
      exact ⟨hready.1, by simpa using hready.2, by simpa using hsend⟩

/-- An update without a single hash cancels. -/
def EmptyUpdate (r : Resource) (update : Option (Nat × Bytes)) : Prop :=
  r.status ≠ .failed ∧ r.waitingForHmu = true ∧
    ∃ segment hashmap, update = some (segment, hashmap) ∧ Bytes.blocks4 hashmap = []

theorem hashmapUpdatePacket_outcome (update : Option (Nat × Bytes))
    (h : r.waitingForHmu = true → r.Open) :
    Outcome r (r.hashmapUpdatePacket update env).1 (r.hashmapUpdatePacket update env).2.1 ∧
    (.cancelNext ∈ (r.hashmapUpdatePacket update env).2.1 → r.EmptyUpdate update) := by
  unfold hashmapUpdatePacket
  split
  · rename_i hwaiting
    have hbefore : r.status.code < 5 := (h hwaiting.2).resolve_right hwaiting.1
    dsimp only
    split
    · rename_i segment hashmap
      unfold hashmapUpdate
      dsimp only
      rw [if_neg hwaiting.1]
      split
      · rename_i hempty
        refine ⟨.of_cancel (.inr ⟨by omega, ?_⟩) rfl, fun _ => ?_⟩
        · show ResourceStatus.transferring.code < 6
          decide
        exact ⟨hwaiting.1, hwaiting.2, segment, hashmap, rfl,
          List.length_eq_zero_iff.mp (by omega)⟩
      · refine ⟨.onward hbefore ?_ .nil, by simp⟩
        show ResourceStatus.transferring.code < 5
        decide
    · exact ⟨.keep rfl .nil, by simp⟩
  · exact ⟨.keep rfl .nil, by simp⟩

/-! ## The sender's events -/

/-- The hashmap branch of a request cancels: the last hash is unknown, or the
update cannot be sent. -/
def HashmapUnanswered (r : Resource) (requestData : Bytes) (env : Readings) : Prop :=
  requestData.head? = some hashmapIsExhausted ∧
    match lastPosition (lastMapHash requestData) (r.packets.map PartPacket.mapHash) with
    | none => True
    | some lastIndex => nextSegmentAfter lastIndex < r.hashmapHeight ∧ env.sendOk = false

/-- The request cancels and then finds that all parts went out: its last hash
is known and its update cannot be sent. -/
def CancelledComplete (r : Resource) (requestData : Bytes) (env : Readings) : Prop :=
  requestData.head? = some hashmapIsExhausted ∧
    (∃ lastIndex, lastPosition (lastMapHash requestData) (r.packets.map PartPacket.mapHash) =
      some lastIndex ∧ nextSegmentAfter lastIndex < r.hashmapHeight) ∧
    env.sendOk = false ∧
    r.sentParts + ((r.packets.filter fun packet =>
      packet.mapHash ∈ requestedHashes requestData).filter fun packet => !packet.sent).length =
        r.packets.length

theorem quiet_parts (packets : List PartPacket) :
    Quiet (packets.map fun packet => .part packet.data) := by
  constructor
  · simp [calls]
  · simp [assemblies]
  · simp

theorem code_awaitProof (h : r.status.code < 5) : r.awaitProof.status.code < 5 := by
  unfold awaitProof
  split
  · show ResourceStatus.awaitingProof.code < 5
    decide
  · exact h

/-- Sending the parts of a request leaves the rest of the resource alone. -/
theorem beginRequest_sent {hashes : List MapHash} {sent : Resource} {parts : List Effect}
    (hsent : r.beginRequest.sendParts hashes env = (sent, parts)) :
    Quiet parts ∧ sent.status = .transferring ∧ sent.callback = r.callback ∧
    sent.hashmapHeight = r.hashmapHeight ∧
    sent.packets.map PartPacket.mapHash = r.packets.map PartPacket.mapHash ∧
    (sent.sentParts = sent.packets.length → r.sentParts +
      ((r.packets.filter fun packet => packet.mapHash ∈ hashes).filter
        fun packet => !packet.sent).length = r.packets.length) := by
  obtain ⟨rfl, rfl⟩ := Prod.mk.inj hsent
  refine ⟨quiet_parts _, rfl, rfl, rfl, ?_, by simp [beginRequest]⟩
  simp only [beginRequest]
  apply List.ext_getElem
  · simp
  · intro i h₁ h₂
    simp only [List.getElem_map, List.getElem_mapIdx]
    split <;> rfl

/-- A request cancels only in its hashmap branch. -/
theorem request_outcome {requestData : Bytes} {out : Resource × List Effect} (h : r.Open)
    (hcomplete : r.status ≠ .failed → ¬ r.CancelledComplete requestData env)
    (hout : r.request requestData env = some out) :
    Outcome r out.1 out.2 ∧
    (.cancelNext ∈ out.2 → r.status ≠ .failed ∧ r.HashmapUnanswered requestData env) := by
  unfold request at hout
  split at hout
  · obtain rfl := Option.some.inj hout
    exact ⟨.keep rfl .nil, by simp⟩
  rename_i hfailed
  have hbefore : r.status.code < 5 := h.resolve_right hfailed
  split at hout
  · cases hout
  obtain ⟨sent, parts, hsent⟩ : ∃ sent parts,
      r.beginRequest.sendParts (requestedHashes requestData) env = (sent, parts) := ⟨_, _, rfl⟩
  obtain ⟨hparts, hstatus, hcallback, hheight, hmap, hcount⟩ := beginRequest_sent hsent
  have hsix : ResourceStatus.transferring.code < 6 := by decide
  simp only [hsent] at hout
  split at hout
  · rename_i hflag
    unfold answerHashmap at hout
    rw [hmap] at hout
    split at hout
    · rename_i hposition
      obtain rfl := Option.some.inj hout
      refine ⟨.append hparts (.of_cancel (.inr ⟨by omega, ?_⟩) hcallback), fun _ => ⟨hfailed, hflag, ?_⟩⟩
      · rw [hstatus]
        exact hsix
      · rw [hposition]
        trivial
    · rename_i lastIndex hposition
      dsimp only at hout
      split at hout
      · obtain rfl := Option.some.inj hout
        refine ⟨.onward hbefore ?_ ?_, ?_⟩
        · show sent.status.code < 5
          rw [hstatus]
          decide
        · simpa using hparts
        · intro hcancels
          exact absurd hcancels (by simpa using hparts.cancels)
      · rename_i hsegment
        split at hout
        · obtain rfl := Option.some.inj hout
          have hhmu : ∀ segment hashmap, Quiet [Effect.hmu segment hashmap] := fun _ _ =>
            ⟨rfl, rfl, by simp⟩
          refine ⟨.append hparts (.onward hbefore (code_awaitProof ?_) (hhmu _ _)), ?_⟩
          · show sent.status.code < 5
            rw [hstatus]
            decide
          · intro hcancels
            exact absurd hcancels (by simpa using hparts.cancels)
        · rename_i hsend
          obtain rfl := Option.some.inj hout
          have hunsent : env.sendOk = false := by simpa using hsend
          have hlater : nextSegmentAfter lastIndex < r.hashmapHeight := by
            rw [← hheight]
            exact Nat.lt_of_not_le hsegment
          have hnot : sent.sentParts ≠ sent.packets.length := fun hall =>
            hcomplete hfailed ⟨hflag, ⟨lastIndex, hposition, hlater⟩, hunsent, hcount hall⟩
          have hkeep : (((sent.noteReceiverHeight lastIndex).cancel env).1).awaitProof =
              ((sent.noteReceiverHeight lastIndex).cancel env).1 := by
            rw [cancel_eq]
            exact if_neg hnot
          refine ⟨.append hparts ?_, fun _ => ⟨hfailed, hflag, ?_⟩⟩
          · rw [if_pos rfl, hkeep]
            refine .of_cancel (.inr ⟨by omega, ?_⟩) hcallback
            show sent.status.code < 6
            rw [hstatus]
            exact hsix
          · rw [hposition]
            exact ⟨hlater, hunsent⟩
  · obtain rfl := Option.some.inj hout
    refine ⟨.onward hbefore (code_awaitProof ?_) hparts, fun hcancels => ?_⟩
    · rw [hstatus]
      decide
    · exact absurd hcancels hparts.cancels

/-- The rejection of an unfinished resource that was sent. -/
theorem rejected_facts (h : r.status.code < 6) (hinitiator : r.initiator = true) :
    r.rejected.1.status = .rejected ∧ calls r.rejected.2 ≤ r.callback.toNat ∧
    assemblies r.rejected.2 = [] ∧ .cancelNext ∉ r.rejected.2 := by
  unfold rejected
  rw [if_pos ⟨h, hinitiator⟩]
  dsimp only
  refine ⟨rfl, ?_, ?_, ?_⟩
  · cases r.callback <;> simp [calls]
  · split <;> simp [assemblies]
  · split <;> simp

theorem rejected_outcome (h : r.initiator = true → r.status ≠ .assembling) :
    Outcome r r.rejected.1 r.rejected.2 ∧ .cancelNext ∉ r.rejected.2 := by
  by_cases hopen : r.status.code < 6 ∧ r.initiator = true
  · obtain ⟨hstatus, hcalls, hassemblies, hcancels⟩ := rejected_facts hopen.1 hopen.2
    have hbefore : r.status.code < 5 := by
      have hassembling := h hopen.2
      revert hassembling
      cases hr : r.status <;> simp_all [ResourceStatus.code]
    refine ⟨.conclude hbefore ?_ hcalls hassemblies hcancels, hcancels⟩
    rw [hstatus]
    decide
  · have hkeep : r.rejected = (r, []) := if_neg hopen
    rw [hkeep]
    exact ⟨.keep rfl .nil, by simp⟩

/-- The resource was not advertised yet. -/
def Unadvertised (r : Resource) : Prop := r.status = .none ∨ r.status = .queued

theorem Unadvertised.code_lt (h : r.Unadvertised) : r.status.code < 5 := by
  rcases h with h | h <;> rw [h] <;> decide

/-- The advertisement of a resource can be sent. -/
def AdvertiseSent (env : Readings) : Prop := env.linkActive = true ∧ env.sendOk = true

theorem queue_outcome (h : r.Unadvertised) : Outcome r r.queue [] := by
  refine .onward h.code_lt ?_ .nil
  show ResourceStatus.queued.code < 5
  decide

theorem advertise_outcome (h : AdvertiseSent env → r.Unadvertised) :
    Outcome r (r.advertise env).1 (r.advertise env).2 ∧
    (.cancelNext ∈ (r.advertise env).2 → ¬ AdvertiseSent env) := by
  unfold advertise
  split
  · rename_i hsent
    have hbefore : r.status.code < 5 := (h hsent).code_lt
    refine ⟨.onward hbefore ?_ ⟨rfl, rfl, by simp⟩, by simp⟩
    show ResourceStatus.advertised.code < 5
    decide
  · rename_i hunsent
    exact ⟨.of_cancel (.inl rfl) rfl, fun _ => hunsent⟩

/-! ## The watchdog -/

/-- The watchdog cancels the transfer. -/
def GivenUp (r : Resource) (env : Readings) : Prop :=
  r.status.code < 5 ∧ (env.linkDown = true ∨ env.timedOut = true ∧
    match r.status with
    | .advertised => r.retriesLeft = 0 ∨ env.sendOk = false
    | .transferring => r.initiator = true ∨ r.retriesLeft = 0 ∨ env.sendOk = false
    | .awaitingProof => r.retriesLeft = 0
    | _ => False)

theorem shrinkWindow_facts (r : Resource) :
    r.shrinkWindow.status = r.status ∧ r.shrinkWindow.callback = r.callback := by
  unfold shrinkWindow
  split
  · dsimp only
    split
    · split <;> exact ⟨rfl, rfl⟩
    · exact ⟨rfl, rfl⟩
  · exact ⟨rfl, rfl⟩

theorem watchdog_outcome (r : Resource) (env : Readings) :
    Outcome r (r.watchdog env).1 (r.watchdog env).2 ∧
    (.cancelNext ∈ (r.watchdog env).2 → r.GivenUp env) := by
  unfold watchdog
  split
  · exact ⟨.keep rfl .nil, by simp⟩
  rename_i hcode
  have hbefore : r.status.code < 5 := Nat.lt_of_not_le hcode
  split
  · rename_i hdown
    exact ⟨.of_cancel (.inl rfl) rfl, fun _ => ⟨hbefore, .inl hdown⟩⟩
  split
  · exact ⟨.keep rfl .nil, by simp⟩
  rename_i htimed
  have htimed : env.timedOut = true := by simpa using htimed
  split
  · rename_i hstatus
    split
    · rename_i hretries
      refine ⟨.of_cancel (.inl rfl) rfl, fun _ => ⟨hbefore, .inr ⟨htimed, ?_⟩⟩⟩
      rw [hstatus]
      exact .inl hretries
    · dsimp only
      split
      · exact ⟨.keep rfl ⟨rfl, rfl, by simp⟩, by simp⟩
      · rename_i hsend
        refine ⟨.of_cancel (.inl rfl) rfl, fun _ => ⟨hbefore, .inr ⟨htimed, ?_⟩⟩⟩
        rw [hstatus]
        exact .inr (by simpa using hsend)
  · rename_i hstatus
    split
    · rename_i hinitiator
      refine ⟨.of_cancel (.inl rfl) rfl, fun _ => ⟨hbefore, .inr ⟨htimed, ?_⟩⟩⟩
      rw [hstatus]
      exact .inl hinitiator
    · split
      · obtain ⟨retry, hretry⟩ : ∃ retry, { r.shrinkWindow with
            retriesLeft := r.retriesLeft - 1, waitingForHmu := false } = retry := ⟨_, rfl⟩
        have hsame : retry.status = r.status ∧ retry.callback = r.callback := by
          subst hretry
          exact shrinkWindow_facts r
        rw [hretry]
        obtain ⟨houtcome, hunsent⟩ := requestNext_outcome retry env
        refine ⟨?_, fun hcancels => ⟨hbefore, .inr ⟨htimed, ?_⟩⟩⟩
        · exact houtcome.of_status hsame.1 hsame.2
        · rw [hstatus]
          exact .inr (.inr (hunsent hcancels).2.2)
      · rename_i hretries
        refine ⟨.of_cancel (.inl rfl) rfl, fun _ => ⟨hbefore, .inr ⟨htimed, ?_⟩⟩⟩
        rw [hstatus]
        exact .inr (.inl (by omega))
  · rename_i hstatus
    split
    · rename_i hretries
      refine ⟨.of_cancel (.inl rfl) rfl, fun _ => ⟨hbefore, .inr ⟨htimed, ?_⟩⟩⟩
      rw [hstatus]
      exact hretries
    · exact ⟨.keep rfl ⟨rfl, rfl, by simp⟩, by simp⟩
  · exact ⟨.keep rfl .nil, by simp⟩

/-! ## Proofs and assemblies -/

/-- A proof concludes a resource; one that hands over to the next segment runs
no callback. -/
theorem validateProof_outcome {proofData : Bytes} (hasNext : Bool)
    (h : r.proofMatches proofData → r.Open) :
    Outcome r (r.validateProof proofData hasNext).1 (r.validateProof proofData hasNext).2 ∧
    (.advertiseNext ∈ (r.validateProof proofData hasNext).2 →
      r.status.code < 5 ∧ hasNext = true ∧ calls (r.validateProof proofData hasNext).2 = 0 ∧
        assemblies (r.validateProof proofData hasNext).2 = [] ∧
        (r.validateProof proofData hasNext).1.status = .complete) ∧
    .cancelNext ∉ (r.validateProof proofData hasNext).2 := by
  unfold validateProof
  split
  · rename_i hmatch
    have hbefore : r.status.code < 5 := (h hmatch.2).resolve_right hmatch.1
    have hafter : 6 ≤ ResourceStatus.complete.code := by decide
    have hfailed : 6 ≤ ResourceStatus.failed.code := by decide
    dsimp only
    split
    · refine ⟨.conclude hbefore hafter ?_ ?_ ?_, ?_, ?_⟩ <;> cases r.callback <;>
        simp [calls, assemblies]
    · split
      · rename_i hnext
        exact ⟨.conclude hbefore hafter (by simp [calls]) (by simp [assemblies]) (by simp),
          fun _ => ⟨hbefore, hnext, rfl, rfl, rfl⟩, by simp⟩
      · refine ⟨.conclude hbefore hfailed ?_ ?_ ?_, ?_, ?_⟩ <;> cases r.callback <;>
          simp [calls, assemblies]
  · exact ⟨.keep rfl .nil, by simp, by simp⟩

/-- The assembly of a copy cancels: the data is too large, or its proof cannot
be sent. -/
def AssemblyUnfinished (fullHash : Bytes → Digest) (r : Resource) (d : Decoding)
    (env : Readings) : Prop :=
  match assembledData r d with
  | none => True
  | some data => fullHash (data ++ r.randomHash) = r.hash ∧ env.sendOk = false

/-- The assembly of this resource runs the callback. -/
def Rings (r : Resource) : Prop := r.segmentIndex = r.totalSegments ∧ r.callback = true

instance (r : Resource) : Decidable r.Rings := inferInstanceAs (Decidable (_ ∧ _))

theorem finishAssembly_eq (effects : List Effect) : (r.finishAssembly effects).2 =
    effects ++ .conclude :: if r.Rings then [.callback r] else [] := rfl

/-- A proof that cannot be sent leaves a complete resource as it is. -/
theorem prove_complete (fullHash : Bytes → Digest) (env : Readings) (h : r.status = .complete) :
    (r.prove fullHash env).1 = r ∧ ((∃ proof, (r.prove fullHash env).2 = [.proof proof]) ∨
      env.sendOk = false ∧ (r.prove fullHash env).2 = [.cancelNext]) := by
  unfold prove
  rw [h, if_neg (by decide)]
  split
  · exact ⟨rfl, .inl ⟨_, rfl⟩⟩
  · rename_i hsend
    have hcancel : r.cancel env = (r, [.cancelNext]) := by
      have hcode : ¬ r.status.code < ResourceStatus.complete.code := by
        rw [h]
        decide
      unfold Resource.cancel
      rw [if_neg (by rw [h]; decide), if_neg hcode]
    rw [hcancel]
    exact ⟨rfl, .inr ⟨by simpa using hsend, rfl⟩⟩

theorem rings_segmentData (d : Decoding) : (r.segmentData d).Rings ↔ r.Rings := by
  unfold segmentData
  split <;> exact Iff.rfl

/-- How the assembly of a copy ends: its data is too large, it is complete, or
it is corrupt. -/
theorem assemble_cases {d : Decoding} {out : Resource × List Effect} (h : r.status ≠ .failed)
    (hout : r.assemble fullHash d env = some out) :
    r.assembledData d = none ∧
      out.2 = [.cancelNext, .cancelIncoming, .control .rcl, .teardown] ∨
    ∃ data, r.assembledData d = some data ∧
      (fullHash (data ++ r.randomHash) = r.hash ∧
        (∃ first, ((∃ proof, first = .proof proof) ∨ env.sendOk = false ∧ first = .cancelNext) ∧
          out.2 = first :: .conclude :: if r.Rings then
            [.callback ({ r with data := some data, status := .complete }.segmentData d)]
          else []) ∨
      fullHash (data ++ r.randomHash) ≠ r.hash ∧
        out.2 = .conclude :: if r.Rings then [.callback { r with status := .corrupt }] else []) := by
  unfold assemble at hout
  rw [if_neg h] at hout
  split at hout
  · rename_i hdata
    obtain rfl := Option.some.inj hout
    exact .inl ⟨hdata, rfl⟩
  · rename_i data hdata
    refine .inr ⟨data, hdata, ?_⟩
    split at hout
    · rename_i hhash
      split at hout
      · obtain ⟨made, hmade⟩ : ∃ made : Resource,
            { r with data := some data, status := .complete } = made := ⟨_, rfl⟩
        have hstatus : made.status = .complete := by
          subst hmade
          rfl
        have hrings : (made.segmentData d).Rings ↔ r.Rings := by
          rw [rings_segmentData]
          subst hmade
          exact Iff.rfl
        obtain ⟨hsame, hproved⟩ := prove_complete fullHash env hstatus
        obtain ⟨proved, effects, heq⟩ : ∃ proved effects,
            made.prove fullHash env = (proved, effects) := ⟨_, _, rfl⟩
        rw [hmade] at hout ⊢
        simp only [heq] at hout
        rw [heq] at hsame hproved
        obtain rfl : proved = made := hsame
        obtain rfl := Option.some.inj hout
        left
        refine ⟨hhash, ?_⟩
        rw [finishAssembly_eq, if_congr hrings rfl rfl]
        rcases hproved with ⟨proof, hproof⟩ | ⟨hsend, hcancel⟩
        · exact ⟨.proof proof, .inl ⟨proof, rfl⟩, congrArg (· ++ _) hproof⟩
        · exact ⟨.cancelNext, .inr ⟨hsend, rfl⟩, congrArg (· ++ _) hcancel⟩
      · cases hout
    · rename_i hhash
      obtain rfl := Option.some.inj hout
      exact .inr ⟨hhash, rfl⟩

/-- The assembly of a copy runs the callback at most once, and only on the
last segment. -/
theorem assemble_facts {d : Decoding} {out : Resource × List Effect}
    (hout : r.assemble fullHash d env = some out) :
    calls out.2 ≤ (if r.Rings then 1 else 0) ∧
    (.cancelNext ∈ out.2 → r.AssemblyUnfinished fullHash d env) := by
  by_cases hfailed : r.status = .failed
  · unfold assemble at hout
    rw [if_pos hfailed] at hout
    obtain rfl := Option.some.inj hout
    exact ⟨Nat.zero_le _, by simp⟩
  unfold AssemblyUnfinished
  rcases assemble_cases hfailed hout with
    ⟨hdata, heffects⟩ | ⟨data, hdata, ⟨hhash, first, hfirst, heffects⟩ | ⟨hhash, heffects⟩⟩
  · rw [heffects, hdata]
    exact ⟨by simp [calls], fun _ => trivial⟩
  · rw [heffects, hdata]
    rcases hfirst with ⟨proof, rfl⟩ | ⟨hsend, rfl⟩
    · constructor
      · split <;> simp [calls]
      · split <;> simp
    · constructor
      · split <;> simp [calls]
      · exact fun _ => ⟨hhash, hsend⟩
  · rw [heffects, hdata]
    constructor
    · split <;> simp [calls]
    · split <;> simp

end Reticulum.Resource
