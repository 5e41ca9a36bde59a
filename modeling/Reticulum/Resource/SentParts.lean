import Mathlib.Data.List.Range
import Reticulum.Resource.Assembly
import Reticulum.Resource.HashmapUpdate

/-!
# The parts that a sender has sent

A sender counts the parts that it sends for the first time, and waits for the proof when it has
counted all of them (`Resource::request`). The count goes up whether or not an interface took the
part, and a part that is sent again and not taken is unmarked, so that the count and the marks
agree exactly as long as every part that is asked for is taken (`sentParts_accounted_iff`).

## Implementation notes

The packet handler of the link hands a request on when it is long enough and names the resource.
`carriedOnce` is a history: the parts that an interface has taken.
-/

namespace Reticulum.Resource

open Runs

/-- What `Packet::send` or `Packet::resend` comes to. -/
inductive SendOutcome
  /-- an interface takes the packet -/
  | carried
  /-- no interface takes it -/
  | notCarried
  /-- it is not handed to the transport -/
  | failed
  deriving DecidableEq, Repr

/-- The `sent` flag that `send` leaves on a packet that was not sent, and `resend` on one that
was. -/
def SendOutcome.sent (sent : Bool) : SendOutcome → Bool
  | .carried => true
  | .notCarried => false
  | .failed => sent

/-- The sender of a resource. -/
structure PartSender where
  resource : Resource
  carriedOnce : List Nat

/-- What happens to a sender. -/
inductive SenderEvent
  /-- a RESOURCE_REQ packet, and what becomes of the parts -/
  | request (data : Bytes) (outcomes : Nat → SendOutcome) (env : Readings)
  | advertise (env : Readings)
  | watchdog (env : Readings)
  | cancel (env : Readings)
  | rejected
  | proof (data : Bytes) (hasNext : Bool)

/-- The RESOURCE_REQ branch of `handle_data_packet` hands the request to the resource. -/
def Addressed (r : Resource) (data : Bytes) : Prop :=
  hashesOffset data ≤ data.length ∧ (data.drop (hashesOffset data - 32)).take 32 = r.hash.1

instance (r : Resource) (data : Bytes) : Decidable (r.Addressed data) :=
  inferInstanceAs (Decidable (_ ∧ _))

/-- The readings under which every part ends with the flag of its outcome. -/
def withOutcomes (r : Resource) (outcomes : Nat → SendOutcome) (env : Readings) : Readings :=
  { env with carried := fun i => (outcomes i).sent (r.packets[i]?.any PartPacket.sent) }

/-- The parts that an interface takes. -/
def carriedNow (r : Resource) (data : Bytes) (outcomes : Nat → SendOutcome) : List Nat :=
  (List.range r.packets.length).filter fun i =>
    r.packets[i]?.any (fun p => p.mapHash ∈ requestedHashes data) && decide (outcomes i = .carried)

/-- `Resource::request` as the link calls it. -/
def PartSender.request (s : PartSender) (data : Bytes) (outcomes : Nat → SendOutcome)
    (env : Readings) : Option PartSender :=
  if s.resource.status = .failed then some s
  else
    (s.resource.request data (s.resource.withOutcomes outcomes env)).map fun (r, _) =>
      { resource := r, carriedOnce := s.carriedOnce ++ s.resource.carriedNow data outcomes }

/-- One event. -/
def PartSender.step (s : PartSender) : SenderEvent → Option PartSender
  | .request data outcomes env =>
      if s.resource.Addressed data then s.request data outcomes env else some s
  | .advertise env => some { s with resource := (s.resource.advertise env).1 }
  | .watchdog env => some { s with resource := (s.resource.watchdog env).1 }
  | .cancel env => some { s with resource := (s.resource.cancel env).1 }
  | .rejected => some { s with resource := s.resource.rejected.1 }
  | .proof data hasNext =>
      some { s with resource := (s.resource.validateProof data hasNext).1 }

/-- A sender of which no part was asked for. -/
def PartSender.start (r : Resource) : PartSender := { resource := r, carriedOnce := [] }

/-- Every part has been sent at least once. -/
def PartSender.AllSent (s : PartSender) : Prop :=
  ∀ i < s.resource.packets.length, i ∈ s.carriedOnce

/-- The event is a request that the resource answers. -/
def PartSender.Answers (s : PartSender) : SenderEvent → Prop
  | .request data _ _ => s.resource.Addressed data ∧ s.resource.status ≠ .failed
  | _ => False

/-- The parts are accounted for after the event: the count is that of the marks, it is at most the
number of parts, and the resource comes to wait for its proof exactly by a request after which
every part has been sent. -/
structure AccountedFor (s : PartSender) (e : SenderEvent) (s' : PartSender) : Prop where
  counts : s'.resource.sentParts = s'.resource.packets.countP PartPacket.sent
  atMost : s'.resource.sentParts ≤ s'.resource.packets.length
  enters : s.Answers e → (s'.resource.status = .awaitingProof ↔ s'.AllSent)
  keeps : ¬s.Answers e → s'.resource.status = .awaitingProof → s.resource.status = .awaitingProof

/-- Whatever the event does, the parts are accounted for. -/
def Accounted (s : PartSender) (e : SenderEvent) : Prop :=
  ∀ s', s.step e = some s' → AccountedFor s e s'

/-- The part is taken, or it was sent before and is not handed to the transport again. -/
def KeptSent (outcome : SendOutcome) (sent : Bool) : Prop :=
  outcome = .carried ∨ outcome = .failed ∧ sent = true

/-- The hash that a request for more hashmap ends with is that of a part, and the segment after it
is there. -/
def HashmapFound (r : Resource) (data : Bytes) : Prop :=
  ∃ lastIndex, lastPosition (lastMapHash data) (r.packets.map PartPacket.mapHash) = some lastIndex ∧
    nextSegmentAfter lastIndex < r.hashmapHeight

/-- The condition: every part that is asked for is taken, or was sent and is not handed to the
transport; and a request for hashmap that is not there leaves a part to send. -/
def Faultless (s : PartSender) : SenderEvent → Prop
  | .request data outcomes _ => s.resource.Addressed data → s.resource.status ≠ .failed →
      (∀ i p, s.resource.packets[i]? = some p → p.mapHash ∈ requestedHashes data →
        KeptSent (outcomes i) p.sent) ∧
      (data.head? = some hashmapIsExhausted → ¬s.resource.HashmapFound data →
        ∃ p ∈ s.resource.packets, p.sent = false ∧ p.mapHash ∉ requestedHashes data)
  | _ => True

/-! ## The marks after a request -/

/-- The packets after a request for these hashes. -/
def resent (hashes : List MapHash) (outcomes : Nat → SendOutcome) (packets : List PartPacket) :
    List PartPacket :=
  packets.mapIdx fun i p =>
    if p.mapHash ∈ hashes then { p with sent := (outcomes i).sent p.sent } else p

/-- How many parts are counted as sent for the first time. -/
def firstSends (hashes : List MapHash) (packets : List PartPacket) : Nat :=
  packets.countP fun p => p.mapHash ∈ hashes && !p.sent

theorem keptSent_iff {outcome : SendOutcome} {sent : Bool} :
    KeptSent outcome sent ↔ outcome.sent sent = true := by
  unfold KeptSent
  cases outcome with
  | carried => simp [SendOutcome.sent]
  | notCarried => simp [SendOutcome.sent]
  | failed => simp [SendOutcome.sent]

variable (fullHash : Bytes → Digest) (hashes : List MapHash) {s : PartSender} {e : SenderEvent}

theorem length_resent (outcomes : Nat → SendOutcome) (packets : List PartPacket) :
    (resent hashes outcomes packets).length = packets.length :=
  List.length_mapIdx

theorem resent_cons (outcomes : Nat → SendOutcome) (p : PartPacket) (packets : List PartPacket) :
    resent hashes outcomes (p :: packets) =
      (if p.mapHash ∈ hashes then { p with sent := (outcomes 0).sent p.sent } else p) ::
        resent hashes (fun i => outcomes (i + 1)) packets :=
  List.mapIdx_cons

theorem mapHash_resent (outcomes : Nat → SendOutcome) (packets : List PartPacket) :
    (resent hashes outcomes packets).map PartPacket.mapHash = packets.map PartPacket.mapHash := by
  induction packets generalizing outcomes with
  | nil => rfl
  | cons p packets ih =>
      rw [resent_cons, List.map_cons, List.map_cons, ih]
      congr 1
      split <;> rfl

/-- The marks are at most the count, and as many exactly when every part that is asked for keeps
its mark. -/
theorem countP_resent (outcomes : Nat → SendOutcome) (packets : List PartPacket) :
    (resent hashes outcomes packets).countP PartPacket.sent ≤
      packets.countP PartPacket.sent + firstSends hashes packets ∧
    ((resent hashes outcomes packets).countP PartPacket.sent =
      packets.countP PartPacket.sent + firstSends hashes packets ↔
        ∀ i p, packets[i]? = some p → p.mapHash ∈ hashes → KeptSent (outcomes i) p.sent) := by
  induction packets generalizing outcomes with
  | nil => simp [resent, firstSends]
  | cons p packets ih =>
      obtain ⟨hle, hiff⟩ := ih fun i => outcomes (i + 1)
      have hall : (∀ i q, (p :: packets)[i]? = some q → q.mapHash ∈ hashes →
          KeptSent (outcomes i) q.sent) ↔ (p.mapHash ∈ hashes → KeptSent (outcomes 0) p.sent) ∧
            ∀ i q, packets[i]? = some q → q.mapHash ∈ hashes →
              KeptSent (outcomes (i + 1)) q.sent := by
        constructor
        · intro h
          exact ⟨h 0 p rfl, fun i q hq => h (i + 1) q hq⟩
        · rintro ⟨hfirst, hrest⟩ i q hq
          cases i with
          | zero =>
              obtain rfl : p = q := by simpa using hq
              exact hfirst
          | succ i => exact hrest i q hq
      rw [resent_cons, hall, ← hiff]
      unfold firstSends at hle ⊢
      rw [List.countP_cons, List.countP_cons, List.countP_cons, keptSent_iff]
      by_cases hmem : p.mapHash ∈ hashes
      · rw [if_pos hmem]
        cases hsent : p.sent <;> cases hout : (outcomes 0).sent p.sent <;>
          simp_all <;> omega
      · simp only [hmem, decide_false, Bool.false_and, Bool.false_eq_true, if_false,
          false_imp_iff, true_and]
        omega

/-! ## What a request does -/

variable {r : Resource} {data : Bytes} {outcomes : Nat → SendOutcome} {env : Readings}

theorem sendParts_withOutcomes (r : Resource) (hashes : List MapHash) (outcomes : Nat → SendOutcome)
    (env : Readings) :
    (r.sendParts hashes (r.withOutcomes outcomes env)).1 =
      { r with
        packets := resent hashes outcomes r.packets
        sentParts := r.sentParts + firstSends hashes r.packets } := by
  have hpackets : (r.packets.mapIdx fun i packet =>
      if packet.mapHash ∈ hashes then
        { packet with sent := (r.withOutcomes outcomes env).carried i } else packet) =
      resent hashes outcomes r.packets := by
    apply List.ext_getElem?
    intro i
    unfold resent
    rw [List.getElem?_mapIdx, List.getElem?_mapIdx]
    cases hi : r.packets[i]? with
    | none => rfl
    | some p =>
        have hcarried : (r.withOutcomes outcomes env).carried i = (outcomes i).sent p.sent := by
          show (outcomes i).sent (r.packets[i]?.any PartPacket.sent) = _
          rw [hi, Option.any_some]
        rw [Option.map_some, Option.map_some, hcarried]
  have hfirst : ((r.packets.filter fun packet => packet.mapHash ∈ hashes).filter
      fun packet => !packet.sent).length = firstSends hashes r.packets := by
    unfold firstSends
    rw [List.countP_eq_length_filter, List.filter_filter]
    congr 2
    funext p
    exact Bool.and_comm _ _
  unfold sendParts
  dsimp only
  rw [hpackets, hfirst]

/-- The hashmap branch of a request that is transferring. -/
theorem answerHashmap_sent (hstatus : r.status = .transferring) (last : MapHash) (env : Readings) :
    (r.answerHashmap last env).1.packets = r.packets ∧
    (r.answerHashmap last env).1.sentParts = r.sentParts ∧
    (r.answerHashmap last env).1.status ≠ .awaitingProof ∧
    ((r.answerHashmap last env).2.2 = true ↔ ∃ lastIndex,
      lastPosition last (r.packets.map PartPacket.mapHash) = some lastIndex ∧
        nextSegmentAfter lastIndex < r.hashmapHeight) := by
  have hcancel : ∀ r' : Resource, r'.status = .transferring →
      (r'.cancel env).1.status ≠ .awaitingProof := by
    intro r' hr'
    unfold cancel
    rw [hr', if_neg (by decide), if_pos (by decide)]
    exact ResourceStatus.noConfusion
  have htransferring : ResourceStatus.transferring ≠ .awaitingProof := by decide
  unfold answerHashmap
  cases hlast : lastPosition last (r.packets.map PartPacket.mapHash) with
  | none =>
      dsimp only
      refine ⟨by rw [cancel_eq], by rw [cancel_eq], hcancel r hstatus, ?_⟩
      simp
  | some lastIndex =>
      dsimp only
      have hheight : (r.noteReceiverHeight lastIndex).hashmapHeight = r.hashmapHeight := rfl
      rw [hheight]
      by_cases hpast : nextSegmentAfter lastIndex ≥ r.hashmapHeight
      · rw [if_pos hpast]
        refine ⟨rfl, rfl, hstatus ▸ htransferring, ?_⟩
        simpa using hpast
      · have hfound : ∃ lastIndex', some lastIndex = some lastIndex' ∧
            nextSegmentAfter lastIndex' < r.hashmapHeight :=
          ⟨lastIndex, rfl, Nat.lt_of_not_le hpast⟩
        rw [if_neg hpast]
        split
        · exact ⟨rfl, rfl, hstatus ▸ htransferring, fun _ => hfound, fun _ => rfl⟩
        · refine ⟨by rw [cancel_eq]; rfl, by rw [cancel_eq]; rfl, hcancel _ hstatus,
            fun _ => hfound, fun _ => rfl⟩

theorem awaitProof_spec (hstatus : r.status ≠ .awaitingProof) :
    r.awaitProof.packets = r.packets ∧ r.awaitProof.sentParts = r.sentParts ∧
    (r.awaitProof.status = .awaitingProof ↔ r.sentParts = r.packets.length) := by
  unfold awaitProof
  split
  · rename_i hall
    exact ⟨rfl, rfl, fun _ => hall, fun _ => rfl⟩
  · rename_i hsome
    exact ⟨rfl, rfl, fun h => absurd h hstatus, fun h => absurd h hsome⟩

/-- A request that the resource answers: the marks and the count of the parts, and when the
resource comes to wait for its proof. -/
theorem request_sent (haddressed : r.Addressed data) (hrunning : r.status ≠ .failed) :
    ∃ r' effects, r.request data (r.withOutcomes outcomes env) = some (r', effects) ∧
      r'.packets = resent (requestedHashes data) outcomes r.packets ∧
      r'.sentParts = r.sentParts + firstSends (requestedHashes data) r.packets ∧
      (r'.status = .awaitingProof ↔ r'.sentParts = r'.packets.length ∧
        (data.head? = some hashmapIsExhausted → r.HashmapFound data)) := by
  have hbegun := sendParts_withOutcomes r.beginRequest (requestedHashes data) outcomes env
  have htransferring : ResourceStatus.transferring ≠ .awaitingProof := by decide
  have hreadings : r.beginRequest.withOutcomes outcomes env = r.withOutcomes outcomes env := rfl
  rw [hreadings] at hbegun
  unfold Resource.request
  rw [if_neg hrunning, if_neg (Nat.not_lt.mpr haddressed.1)]
  dsimp only
  rw [hbegun]
  by_cases hflag : data.head? = some hashmapIsExhausted
  · rw [if_pos hflag]
    obtain ⟨hpackets, hsent, hstatus, hgoes⟩ := answerHashmap_sent (r := { r.beginRequest with
      packets := resent (requestedHashes data) outcomes r.beginRequest.packets
      sentParts := r.beginRequest.sentParts +
        firstSends (requestedHashes data) r.beginRequest.packets }) rfl (lastMapHash data)
      (r.withOutcomes outcomes env)
    have hfound : (∃ lastIndex, lastPosition (lastMapHash data)
        ((resent (requestedHashes data) outcomes r.beginRequest.packets).map PartPacket.mapHash) =
          some lastIndex ∧ nextSegmentAfter lastIndex < r.beginRequest.hashmapHeight) ↔
        r.HashmapFound data := by
      rw [mapHash_resent]
      rfl
    rw [hfound] at hgoes
    obtain ⟨hawait, hawait', hiff⟩ := awaitProof_spec hstatus
    refine ⟨_, _, rfl, ?_⟩
    split
    · rename_i hgoesOn
      refine ⟨hawait.trans hpackets, hawait'.trans hsent, ?_⟩
      rw [hiff, hawait, hawait']
      exact ⟨fun h => ⟨h, fun _ => hgoes.mp hgoesOn⟩, And.left⟩
    · rename_i hstops
      refine ⟨hpackets, hsent, fun h => absurd h hstatus, ?_⟩
      rintro ⟨-, h⟩
      exact absurd (hgoes.mpr (h hflag)) hstops
  · rw [if_neg hflag]
    obtain ⟨hawait, hawait', hiff⟩ := awaitProof_spec (r := { r.beginRequest with
      packets := resent (requestedHashes data) outcomes r.beginRequest.packets
      sentParts := r.beginRequest.sentParts +
        firstSends (requestedHashes data) r.beginRequest.packets }) htransferring
    refine ⟨_, _, rfl, hawait, hawait', ?_⟩
    rw [hiff, hawait, hawait']
    exact ⟨fun h => ⟨h, fun hflagged => absurd hflagged hflag⟩, And.left⟩

/-! ## What the other events do -/

/-- The marks and the count are the same, and the resource has not come to wait for its proof. -/
structure SameSent (r r' : Resource) : Prop where
  packets : r'.packets = r.packets
  sentParts : r'.sentParts = r.sentParts
  waits : r'.status = .awaitingProof → r.status = .awaitingProof

theorem SameSent.refl (r : Resource) : SameSent r r := ⟨rfl, rfl, id⟩

theorem SameSent.trans {r r' r'' : Resource} (h : SameSent r r') (h' : SameSent r' r'') :
    SameSent r r'' :=
  ⟨h'.packets.trans h.packets, h'.sentParts.trans h.sentParts, h.waits ∘ h'.waits⟩

theorem sameSent_cancel (r : Resource) (env : Readings) : SameSent r (r.cancel env).1 := by
  unfold cancel
  split
  · exact .refl r
  · split
    · exact ⟨rfl, rfl, fun h => by cases h⟩
    · exact .refl r

theorem SameSent.cancel {r r' : Resource} (h : SameSent r r') (env : Readings) :
    SameSent r (r'.cancel env).1 := h.trans (sameSent_cancel r' env)

theorem sameSent_rejected (r : Resource) : SameSent r r.rejected.1 := by
  unfold rejected
  split
  · exact ⟨rfl, rfl, fun h => by cases h⟩
  · exact .refl r

theorem sameSent_advertise (r : Resource) (env : Readings) : SameSent r (r.advertise env).1 := by
  unfold advertise
  split
  · exact ⟨rfl, rfl, fun h => by cases h⟩
  · exact sameSent_cancel r env

theorem sameSent_validateProof (r : Resource) (data : Bytes) (hasNext : Bool) :
    SameSent r (r.validateProof data hasNext).1 := by
  unfold validateProof
  split
  · dsimp only
    split
    · exact ⟨rfl, rfl, fun h => by cases h⟩
    · split
      · exact ⟨rfl, rfl, fun h => by cases h⟩
      · exact ⟨rfl, rfl, fun h => by cases h⟩
  · exact .refl r

theorem sameSent_prepareRequestNextData (r : Resource) : SameSent r r.prepareRequestNextData.1 := by
  unfold prepareRequestNextData
  split
  · exact .refl r
  · dsimp only
    split
    · split <;> exact ⟨rfl, rfl, id⟩
    · exact ⟨rfl, rfl, id⟩

theorem sameSent_requestNext (r : Resource) (env : Readings) :
    SameSent r (r.requestNext env).1 := by
  have hprepared := sameSent_prepareRequestNextData r
  unfold requestNext
  split
  · rename_i r' hr'
    rw [hr'] at hprepared
    exact hprepared
  · rename_i r' request hr'
    rw [hr'] at hprepared
    split
    · exact hprepared.trans ⟨rfl, rfl, id⟩
    · exact hprepared.trans (sameSent_cancel r' env)

theorem SameSent.requestNext {r r' : Resource} (h : SameSent r r') (env : Readings) :
    SameSent r (r'.requestNext env).1 := h.trans (sameSent_requestNext r' env)

theorem sameSent_shrinkWindow (r : Resource) : SameSent r r.shrinkWindow := by
  unfold shrinkWindow
  split
  · dsimp only
    split
    · split <;> exact ⟨rfl, rfl, id⟩
    · exact ⟨rfl, rfl, id⟩
  · exact .refl r

theorem sameSent_watchdog (r : Resource) (env : Readings) : SameSent r (r.watchdog env).1 := by
  unfold watchdog
  split
  · exact .refl r
  split
  · exact sameSent_cancel r env
  split
  · exact .refl r
  split
  · split
    · exact sameSent_cancel r env
    · dsimp only
      split
      · exact ⟨rfl, rfl, id⟩
      · apply SameSent.cancel
        exact ⟨rfl, rfl, id⟩
  · split
    · exact sameSent_cancel r env
    · split
      · apply SameSent.requestNext
        exact (sameSent_shrinkWindow r).trans ⟨rfl, rfl, id⟩
      · exact sameSent_cancel r env
  · split
    · exact sameSent_cancel r env
    · exact ⟨rfl, rfl, id⟩
  · exact .refl r

/-! ## The invariant -/

/-- The count is that of the marks, and the marked parts are those that were taken. -/
structure Marked (s : PartSender) : Prop where
  counts : s.resource.sentParts = s.resource.packets.countP PartPacket.sent
  marks : ∀ i p, s.resource.packets[i]? = some p → (p.sent = true ↔ i ∈ s.carriedOnce)

theorem Marked.of_sameSent (h : Marked s) {r' : Resource} (hsame : SameSent s.resource r') :
    Marked { s with resource := r' } where
  counts := by
    show r'.sentParts = r'.packets.countP PartPacket.sent
    rw [hsame.sentParts, hsame.packets]
    exact h.counts
  marks := by
    show ∀ i p, r'.packets[i]? = some p → _
    rw [hsame.packets]
    exact h.marks

/-- All parts are marked exactly when all were taken. -/
theorem Marked.allSent_iff (h : Marked s) :
    s.AllSent ↔ s.resource.sentParts = s.resource.packets.length := by
  rw [h.counts, List.countP_eq_length]
  constructor
  · intro hall p hp
    obtain ⟨i, hi⟩ := List.mem_iff_getElem?.mp hp
    exact (h.marks i p hi).mpr (hall i (List.getElem?_eq_some_iff.mp hi).1)
  · intro hall i hi
    have hget := List.getElem?_eq_getElem hi
    exact (h.marks i _ hget).mp (hall _ (List.getElem_mem hi))

theorem mem_carriedNow {i : Nat} : i ∈ r.carriedNow data outcomes ↔ ∃ p, r.packets[i]? = some p ∧
    p.mapHash ∈ requestedHashes data ∧ outcomes i = .carried := by
  unfold carriedNow
  rw [List.mem_filter, List.mem_range]
  constructor
  · rintro ⟨hi, hboth⟩
    rw [List.getElem?_eq_getElem hi] at hboth ⊢
    simp only [Option.any_some, Bool.and_eq_true, decide_eq_true_eq] at hboth
    exact ⟨_, rfl, hboth⟩
  · rintro ⟨p, hp, hmem, hcarried⟩
    refine ⟨(List.getElem?_eq_some_iff.mp hp).1, ?_⟩
    rw [hp, hcarried]
    simpa using hmem

/-- After a request, a part is marked if it was asked for and its outcome marks it, or it was not
asked for and was marked before. -/
theorem getElem?_resent {hashes : List MapHash} {packets : List PartPacket} {i : Nat}
    {p' : PartPacket} (h : (resent hashes outcomes packets)[i]? = some p') :
    ∃ p, packets[i]? = some p ∧ (p.mapHash ∈ hashes → p'.sent = (outcomes i).sent p.sent) ∧
      (p.mapHash ∉ hashes → p'.sent = p.sent) := by
  unfold resent at h
  rw [List.getElem?_mapIdx] at h
  obtain ⟨p, hp, rfl⟩ := Option.map_eq_some_iff.mp h
  refine ⟨p, hp, fun hmem => ?_, fun hmem => ?_⟩
  · rw [if_pos hmem]
  · rw [if_neg hmem]

/-- The sender after a request whose parts keep their marks. -/
theorem Marked.request (h : Marked s) {r' : Resource}
    (hpackets : r'.packets = resent (requestedHashes data) outcomes s.resource.packets)
    (hsent : r'.sentParts =
      s.resource.sentParts + firstSends (requestedHashes data) s.resource.packets)
    (hkept : ∀ i p, s.resource.packets[i]? = some p → p.mapHash ∈ requestedHashes data →
      KeptSent (outcomes i) p.sent) :
    Marked { resource := r', carriedOnce := s.carriedOnce ++ s.resource.carriedNow data outcomes } where
  counts := by
    show r'.sentParts = r'.packets.countP PartPacket.sent
    rw [hsent, hpackets, h.counts]
    exact ((countP_resent _ outcomes _).2.mpr hkept).symm
  marks := by
    intro i p' hp'
    change r'.packets[i]? = some p' at hp'
    rw [hpackets] at hp'
    obtain ⟨p, hp, hasked, hnot⟩ := getElem?_resent hp'
    have hbefore := h.marks i p hp
    show p'.sent = true ↔ i ∈ s.carriedOnce ++ s.resource.carriedNow data outcomes
    rw [List.mem_append, mem_carriedNow]
    by_cases hmem : p.mapHash ∈ requestedHashes data
    · have hmarked : p'.sent = true := by
        rw [hasked hmem]
        exact keptSent_iff.mp (hkept i p hp hmem)
      refine ⟨fun _ => ?_, fun _ => hmarked⟩
      rcases hkept i p hp hmem with hcarried | ⟨-, hold⟩
      · exact .inr ⟨p, hp, hmem, hcarried⟩
      · exact .inl (hbefore.mp hold)
    · rw [hnot hmem, hbefore]
      refine ⟨.inl, ?_⟩
      rintro (hold | ⟨q, hq, hasked', -⟩)
      · exact hold
      · obtain rfl := Option.some.inj (hp.symm.trans hq)
        exact absurd hasked' hmem

/-- An event that is no request, or a request that is not answered. -/
theorem Marked.accountedFor (h : Marked s) (he : ¬s.Answers e) {r' : Resource}
    (hsame : SameSent s.resource r') : AccountedFor s e { s with resource := r' } where
  counts := (h.of_sameSent hsame).counts
  atMost := (h.of_sameSent hsame).counts ▸ List.countP_le_length
  enters := fun hanswers => absurd hanswers he
  keeps := fun _ => hsame.waits

/-- An event that is no request leaves the parts as they are. -/
theorem step_of_not_answers {s s' : PartSender} (he : ¬s.Answers e) (hstep : s.step e = some s') :
    ∃ r', SameSent s.resource r' ∧ s' = { s with resource := r' } := by
  cases e with
  | request data outcomes env =>
      have hself : s' = s := by
        unfold PartSender.step PartSender.request at hstep
        dsimp only at hstep
        by_cases haddressed : s.resource.Addressed data
        · have hfailed : s.resource.status = .failed := by
            by_contra hrunning
            exact he ⟨haddressed, hrunning⟩
          rw [if_pos haddressed, if_pos hfailed] at hstep
          exact (Option.some.inj hstep).symm
        · rw [if_neg haddressed] at hstep
          exact (Option.some.inj hstep).symm
      exact ⟨s.resource, .refl _, hself⟩
  | advertise env => exact ⟨_, sameSent_advertise _ env, (Option.some.inj hstep).symm⟩
  | watchdog env => exact ⟨_, sameSent_watchdog _ env, (Option.some.inj hstep).symm⟩
  | cancel env => exact ⟨_, sameSent_cancel _ env, (Option.some.inj hstep).symm⟩
  | rejected => exact ⟨_, sameSent_rejected _, (Option.some.inj hstep).symm⟩
  | proof data hasNext =>
      exact ⟨_, sameSent_validateProof _ data hasNext, (Option.some.inj hstep).symm⟩

/-- A request that is answered. -/
theorem step_of_answers {s s' : PartSender} (haddressed : s.resource.Addressed data)
    (hrunning : s.resource.status ≠ .failed)
    (hstep : s.step (.request data outcomes env) = some s') :
    s'.carriedOnce = s.carriedOnce ++ s.resource.carriedNow data outcomes ∧
      s'.resource.packets = resent (requestedHashes data) outcomes s.resource.packets ∧
      s'.resource.sentParts =
        s.resource.sentParts + firstSends (requestedHashes data) s.resource.packets ∧
      (s'.resource.status = .awaitingProof ↔
        s'.resource.sentParts = s'.resource.packets.length ∧
          (data.head? = some hashmapIsExhausted → s.resource.HashmapFound data)) := by
  obtain ⟨r', effects, hrequest, hpackets, hsent, hstatus⟩ :=
    @request_sent s.resource data outcomes env haddressed hrunning
  unfold PartSender.step PartSender.request at hstep
  dsimp only at hstep
  rw [if_pos haddressed, if_neg hrunning, hrequest] at hstep
  obtain rfl := Option.some.inj hstep
  exact ⟨rfl, hpackets, hsent, hstatus⟩

theorem Marked.answered {s s' : PartSender} (h : Marked s)
    (hcarried : s'.carriedOnce = s.carriedOnce ++ s.resource.carriedNow data outcomes)
    (hpackets : s'.resource.packets = resent (requestedHashes data) outcomes s.resource.packets)
    (hsent : s'.resource.sentParts =
      s.resource.sentParts + firstSends (requestedHashes data) s.resource.packets)
    (hkept : ∀ i p, s.resource.packets[i]? = some p → p.mapHash ∈ requestedHashes data →
      KeptSent (outcomes i) p.sent) : Marked s' := by
  have hmarked := h.request hpackets hsent hkept
  rw [← hcarried] at hmarked
  exact hmarked

/-- When the parts keep their marks, some part is left exactly when not all were taken. -/
theorem Marked.left_iff {s s' : PartSender} (hmarked : Marked s')
    (hpackets : s'.resource.packets = resent (requestedHashes data) outcomes s.resource.packets)
    (hkept : ∀ i p, s.resource.packets[i]? = some p → p.mapHash ∈ requestedHashes data →
      KeptSent (outcomes i) p.sent) :
    (∃ p ∈ s.resource.packets, p.sent = false ∧ p.mapHash ∉ requestedHashes data) ↔
      ¬s'.AllSent := by
  rw [hmarked.allSent_iff, hmarked.counts, List.countP_eq_length, hpackets]
  constructor
  · rintro ⟨p, hp, hunsent, hleft⟩ hall
    obtain ⟨i, hi⟩ := List.mem_iff_getElem?.mp hp
    have hlt : i < (resent (requestedHashes data) outcomes s.resource.packets).length := by
      rw [length_resent]
      exact (List.getElem?_eq_some_iff.mp hi).1
    obtain ⟨q, hq, -, hnot⟩ := getElem?_resent (List.getElem?_eq_getElem hlt)
    obtain rfl := Option.some.inj (hi.symm.trans hq)
    have hmark := hall _ (List.getElem_mem hlt)
    rw [hnot hleft, hunsent] at hmark
    cases hmark
  · intro hnot
    push Not at hnot
    obtain ⟨p', hp', hunmarked⟩ := hnot
    obtain ⟨i, hi⟩ := List.mem_iff_getElem?.mp hp'
    obtain ⟨p, hp, hasked, hkeeps⟩ := getElem?_resent hi
    have hleft : p.mapHash ∉ requestedHashes data := by
      intro hmem
      apply hunmarked
      rw [hasked hmem]
      exact keptSent_iff.mp (hkept i p hp hmem)
    refine ⟨p, List.mem_of_getElem? hp, ?_, hleft⟩
    rw [← hkeeps hleft]
    simpa using hunmarked

/-- Whatever the event, the parts are accounted for after it exactly when it meets the
condition. -/
theorem Marked.accounted_iff {s s' : PartSender} (h : Marked s) (hstep : s.step e = some s') :
    Accounted s e ↔ Faultless s e := by
  have hone : Accounted s e ↔ AccountedFor s e s' := by
    refine ⟨fun hall => hall s' hstep, fun hfor s'' hstep' => ?_⟩
    obtain rfl := Option.some.inj (hstep.symm.trans hstep')
    exact hfor
  rw [hone]
  by_cases hanswers : s.Answers e
  · cases e with
    | request data outcomes env =>
        obtain ⟨haddressed, hrunning⟩ := hanswers
        obtain ⟨hcarried, hpackets, hsent, hstatus⟩ :=
          step_of_answers haddressed hrunning hstep
        obtain ⟨-, hcount⟩ := countP_resent (requestedHashes data) outcomes s.resource.packets
        rw [← h.counts, ← hpackets, ← hsent] at hcount
        constructor
        · intro hfor _ _
          have hkept := hcount.mp hfor.counts.symm
          have hmarked := h.answered hcarried hpackets hsent hkept
          refine ⟨hkept, fun hflag hmissing => ?_⟩
          rw [hmarked.left_iff hpackets hkept]
          intro hall
          exact hmissing ((hstatus.mp ((hfor.enters ⟨haddressed, hrunning⟩).mpr hall)).2 hflag)
        · intro hfaultless
          obtain ⟨hkept, hleft⟩ := hfaultless haddressed hrunning
          have hmarked := h.answered hcarried hpackets hsent hkept
          rw [hmarked.left_iff hpackets hkept] at hleft
          refine ⟨hmarked.counts, hmarked.counts ▸ List.countP_le_length, fun _ => ?_,
            fun hnot => absurd ⟨haddressed, hrunning⟩ hnot⟩
          rw [hstatus, ← hmarked.allSent_iff]
          refine ⟨And.left, fun hall => ⟨hall, fun hflag => ?_⟩⟩
          by_contra hmissing
          exact hleft hflag hmissing hall
    | _ => exact absurd hanswers not_false
  · obtain ⟨r', hsame, rfl⟩ := step_of_not_answers hanswers hstep
    refine ⟨fun _ => ?_, fun _ => h.accountedFor hanswers hsame⟩
    cases e with
    | request data outcomes env =>
        exact fun haddressed hrunning => absurd ⟨haddressed, hrunning⟩ hanswers
    | _ => exact True.intro

theorem Marked.step {s s' : PartSender} (h : Marked s) (hok : Faultless s e)
    (hstep : s.step e = some s') : Marked s' := by
  by_cases hanswers : s.Answers e
  · cases e with
    | request data outcomes env =>
        obtain ⟨haddressed, hrunning⟩ := hanswers
        obtain ⟨hcarried, hpackets, hsent, -⟩ := step_of_answers haddressed hrunning hstep
        exact h.answered hcarried hpackets hsent (hok haddressed hrunning).1
    | _ => exact absurd hanswers not_false
  · obtain ⟨r', hsame, rfl⟩ := step_of_not_answers hanswers hstep
    exact h.of_sameSent hsame

/-! ## Runs of a sender -/

/-- No part of the resource has been sent. -/
structure Unsent (r : Resource) : Prop where
  sentParts : r.sentParts = 0
  packets : ∀ p ∈ r.packets, p.sent = false

theorem Unsent.marked (h : r.Unsent) : Marked (.start r) where
  counts := by
    show r.sentParts = r.packets.countP PartPacket.sent
    rw [h.sentParts, eq_comm, List.countP_eq_zero]
    intro p hp
    rw [h.packets p hp]
    exact Bool.false_ne_true
  marks := by
    intro i p hp
    rw [h.packets p (List.mem_of_getElem? hp)]
    exact ⟨fun hfalse => (by cases hfalse), fun hnone => absurd hnone List.not_mem_nil⟩

/-- Every sender that `outgoing` makes starts so. -/
theorem outgoing_unsent {callback compressed : Bool} {sdu : Nat} {stream hashedData : Bytes}
    {salts : List Bytes}
    (h : outgoing fullHash callback sdu stream hashedData compressed salts = some r) :
    r.Unsent := by
  obtain ⟨mapped, hmapped, rfl⟩ := Option.map_eq_some_iff.mp h
  obtain ⟨salt, packets, hpass, rfl⟩ := mapPass_of_mapParts fullHash hmapped
  exact ⟨rfl, (mapPass_spec fullHash hpass).2.2⟩

/-- For every sender of which no part was sent, and every run of requests and other events, the
parts are accounted for after every event if and only if every event of the run is faultless. -/
theorem sentParts_accounted_iff {r : Resource} (hr : r.Unsent) (es : List SenderEvent) :
    Meets PartSender.step Accounted (.start r) es ↔
      Meets PartSender.step Faultless (.start r) es :=
  meets_iff_meets (fun _ _ _ h hok hstep => Marked.step h hok hstep)
    (fun _ _ _ h hstep => Marked.accounted_iff h hstep) hr.marked es

/-- The sender of a resource of two parts. -/
def twoParts : Resource :=
  (outgoing byteHash true 1 [7, 8] [] false [[0, 0, 0, 0]]).getD (blank true)

/-- A request for both parts of a resource. -/
def requestBoth : Bytes :=
  hashmapIsNotExhausted :: (twoParts.hash.1 ++ Bytes.ofBlocks twoParts.hashmap)

theorem twoParts_unsent : twoParts.Unsent :=
  have hmapped : outgoing byteHash true 1 [7, 8] [] false [[0, 0, 0, 0]] = some twoParts := rfl
  outgoing_unsent byteHash hmapped

theorem sentParts_accounted_iff_carried :
    Meets PartSender.step Accounted (.start twoParts)
      [.advertise calm, .request requestBoth (fun _ => .carried) calm] := by
  refine (sentParts_accounted_iff twoParts_unsent _).mpr ?_
  intro s _
  refine ⟨True.intro, fun s' _ => ⟨fun _ _ => ⟨fun _ _ _ _ => .inl rfl, fun hflag => ?_⟩,
    True.intro⟩⟩
  exact absurd hflag (by decide)

/-- No interface takes the two parts of the first request: both are counted. -/
theorem sentParts_accounted_false : ¬∀ (r : Resource), r.Unsent → ∀ es : List SenderEvent,
    Meets PartSender.step Accounted (.start r) es := by
  intro h
  obtain ⟨s, hstep, hcounts⟩ : ∃ s : PartSender, (PartSender.start twoParts).step
      (.request requestBoth (fun _ => .notCarried) calm) = some s ∧
        s.resource.sentParts ≠ s.resource.packets.countP PartPacket.sent :=
    ⟨_, rfl, by decide⟩
  have haccounted := h twoParts twoParts_unsent
    [.request requestBoth (fun _ => .notCarried) calm] s hstep
  exact hcounts (haccounted.1 s hstep).counts

end Reticulum.Resource
