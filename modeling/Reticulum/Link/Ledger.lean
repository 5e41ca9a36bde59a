import Reticulum.Lib.FirstMatch
import Reticulum.Resource.Outcome

/-!
# Pending requests

A link keeps the requests it waits for in `pending_requests`. A request leaves
the list when its response comes, as a packet or as a resource, when it times
out, when its own upload fails, or when the link closes; whoever takes it out
calls its response callback or its failed callback.

## Implementation notes

`uid` numbers the requests of a link in the order they were made, so that two
requests with one id are told apart; `fired` and `accepted` are the history of
the callbacks and of the calls of `Link::request` that returned `Ok`. An
incoming resource stays in `incoming` when it is over. The lock of
`pending_requests` is not poisoned. Progress, sizes and time stamps that only
the receipts show are left out.
-/

namespace Reticulum.Link

open Resource (Digest)

structure PendingRequest where
  uid : Nat
  requestId : Bytes
  maxResponseSize : Option Nat
  /-- `response_clock_started.is_some()` -/
  responseClockStarted : Bool
  receivingResponse : Bool
  deriving DecidableEq, Repr

/-- The callbacks that conclude a request. -/
inductive Callback
  | response
  | failed
  deriving DecidableEq, Repr

/-- A resource that the link has accepted. -/
structure Incoming where
  hash : Digest
  /-- the request, if it was accepted as a response -/
  response : Option Bytes
  segmentIndex : Nat
  totalSegments : Nat
  /-- in `incoming_resources` -/
  registered : Bool
  /-- its callback was called, or never will be -/
  ended : Bool
  deriving DecidableEq, Repr

/-- `ResourceAdvertisement`, the fields that the link reads. -/
structure AdvertisementHeader where
  h : Digest
  d : Nat
  i : Nat
  l : Nat
  q : Option Bytes
  u : Bool
  p : Bool
  deriving DecidableEq, Repr

/-- The requests of a link and the resources that may answer them. -/
structure Ledger where
  nextUid : Nat
  accepted : List Nat
  pending : List PendingRequest
  fired : List (Nat × Callback)
  incoming : List Incoming
  deriving DecidableEq, Repr

variable {adv : AdvertisementHeader} {locked : Nat → Bool} {response : Option Bytes}

namespace Ledger

/-- The ledger of a new link. -/
def empty : Ledger := { nextUid := 0, accepted := [], pending := [], fired := [], incoming := [] }

/-- `p.request_id == request_id`. -/
def hasId (requestId : Bytes) (p : PendingRequest) : Bool := p.requestId = requestId

/-- A response of this size is allowed. -/
def fits (p : PendingRequest) (size : Nat) : Bool :=
  match p.maxResponseSize with
  | none => true
  | some max => size ≤ max

/-- The first request with this id is taken out of the list, and one of its
callbacks is called. -/
def conclude (ledger : Ledger) (requestId : Bytes) (callback : PendingRequest → Callback) :
    Ledger :=
  match ledger.pending.find? (hasId requestId) with
  | none => ledger
  | some p => { ledger with
      pending := ledger.pending.eraseP (hasId requestId)
      fired := ledger.fired ++ [(p.uid, callback p)] }

/-! ## Making requests -/

/-- A request joins the list. -/
def push (ledger : Ledger) (requestId : Bytes) (maxResponseSize : Option Nat) (started : Bool) :
    Ledger :=
  { ledger with
    nextUid := ledger.nextUid + 1
    accepted := ledger.accepted ++ [ledger.nextUid]
    pending := ledger.pending ++ [{
      uid := ledger.nextUid, requestId := requestId, maxResponseSize := maxResponseSize
      responseClockStarted := started, receivingResponse := false }] }

/-- `packet.send()` fails: the failed callback is called and the caller is told
so. -/
def failUnsent (ledger : Ledger) : Ledger :=
  { ledger with
    nextUid := ledger.nextUid + 1, fired := ledger.fired ++ [(ledger.nextUid, .failed)] }

/-- What `Link::request` reads: the id of its packet, and whether that is
encrypted and sent. -/
structure RequestReadings where
  packetId : Bytes
  encrypted : Bool
  sent : Bool

/-- `Link::request`, from the packed request on. A request larger than the
link's `mdu` goes as a resource and is named by its own hash; a closed link has
no key to encrypt the packet of a smaller one. -/
def request (ledger : Ledger) (truncatedHash : Bytes → Bytes) (closed : Bool) (mdu : Nat)
    (packedRequest : Bytes) (maxResponseSize : Option Nat) (r : RequestReadings) : Ledger :=
  if packedRequest.length > mdu then
    ledger.push (truncatedHash packedRequest) maxResponseSize false
  else if closed ∨ ¬ r.encrypted then ledger
  else if r.sent then ledger.push r.packetId maxResponseSize true
  else ledger.failUnsent

/-- `request_resource_concluded`: the upload of a request is over. -/
def requestResourceConcluded (ledger : Ledger) (requestId : Bytes) (delivered : Bool) : Ledger :=
  if delivered then
    { ledger with
      pending := FirstMatch.update (hasId requestId)
        (fun p => { p with responseClockStarted := true }) ledger.pending }
  else ledger.conclude requestId fun _ => .failed

/-! ## Responses -/

section

variable (ledger : Ledger)

/-- `handle_response_packet`; `response` is the request id and the value of the
response, if the plaintext is an array that starts with a binary. -/
def handleResponsePacket (response : Option (Bytes × Bytes)) : Ledger :=
  match response with
  | none => ledger
  | some (requestId, value) =>
      ledger.conclude requestId fun p => if fits p (value.length - 2) then .response else .failed

/-- `has_incoming_resource_hash`. A resource that is locked is not seen. -/
def hasIncomingResourceHash (hash : Digest) (locked : Nat → Bool) : Bool :=
  (ledger.incoming.zipIdx).any fun (e, i) => e.registered && !locked i && decide (e.hash = hash)

def acceptAdvertisedResource (adv : AdvertisementHeader)
    (response : Option Bytes) (locked : Nat → Bool) : Ledger :=
  if ledger.hasIncomingResourceHash adv.h locked then ledger
  else
    { ledger with
      incoming := ledger.incoming ++ [{
        hash := adv.h, response := response, segmentIndex := adv.i, totalSegments := adv.l
        registered := true, ended := false }] }

/-- The timer of the first request with this id stops. -/
def startReceiving (requestId : Bytes) : Ledger :=
  { ledger with
    pending := FirstMatch.update (hasId requestId)
      (fun p => { p with receivingResponse := true }) ledger.pending }

/-- The advertisement of a response. -/
def responseAdvertised (adv : AdvertisementHeader) (requestId : Bytes)
    (locked : Nat → Bool) : Ledger :=
  match ledger.pending.find? (hasId requestId) with
  | none => ledger
  | some p =>
      if fits p adv.d then
        (ledger.startReceiving requestId).acceptAdvertisedResource adv (some requestId) locked
      else ledger.conclude requestId fun _ => .failed

/-- The advertisement branch of `handle_data_packet`; `accepts` says that a
request or a plain resource is accepted. -/
def handleAdvertisement (adv : AdvertisementHeader) (accepts : Bool)
    (locked : Nat → Bool) : Ledger :=
  match adv.q with
  | some requestId =>
      if adv.u then if accepts then ledger.acceptAdvertisedResource adv none locked else ledger
      else if adv.p then ledger.responseAdvertised adv requestId locked
      else if accepts then ledger.acceptAdvertisedResource adv none locked
      else ledger
  | none => if accepts then ledger.acceptAdvertisedResource adv none locked else ledger

/-- `cancel_incoming_resource` and `resource_concluded` of the link. -/
def cancelIncomingResource (hash : Digest) : Ledger :=
  { ledger with
    incoming := ledger.incoming.map fun e =>
      if e.hash = hash then { e with registered := false } else e }

/-- The request that a concluded response is for. -/
def concludedId (unpack : Bytes → Option (Bytes × Bytes)) (requestId data : Bytes) : Bytes :=
  match unpack data with
  | some (id, _) => id
  | none => requestId

/-- The callback of a response resource. The request of a complete one is named
by its data. -/
def responseConcluded (unpack : Bytes → Option (Bytes × Bytes))
    (requestId : Bytes) (r : Resource) : Ledger :=
  if r.status ≠ .complete then ledger.conclude requestId fun _ => .failed
  else
    match r.data with
    | none => ledger
    | some data => ledger.conclude (concludedId unpack requestId data) fun _ => .response

/-- A resource is over. -/
def finish (i : Nat) : Ledger :=
  { ledger with incoming := ledger.incoming.modify i fun e => { e with ended := true } }

/-- What an effect of a response resource does to the ledger. -/
def settleOne (unpack : Bytes → Option (Bytes × Bytes)) (i : Nat) (requestId : Bytes)
    (ledger : Ledger) : Resource.Effect → Ledger
  | .callback r => ledger.responseConcluded unpack requestId r
  | .conclude | .cancelIncoming => ledger.finish i
  | _ => ledger

/-- What the effects of a response resource do to the ledger. -/
def settle (unpack : Bytes → Option (Bytes × Bytes)) (i : Nat)
    (requestId : Bytes) (effects : List Resource.Effect) : Ledger :=
  effects.foldl (settleOne unpack i requestId) ledger

end

/-- A state of the resource that was accepted. -/
def IsVersion (e : Incoming) (r : Resource) : Prop :=
  r.hash = e.hash ∧ r.segmentIndex = e.segmentIndex ∧ r.totalSegments = e.totalSegments ∧
    r.callback = true

instance (e : Incoming) (r : Resource) : Decidable (IsVersion e r) :=
  inferInstanceAs (Decidable (_ ∧ _ ∧ _ ∧ _))

/-- The thread of a response resource assembles its copy; a thread that panics
does nothing, and the transfer stays open. -/
def assembled (ledger : Ledger) (fullHash : Bytes → Digest)
    (unpack : Bytes → Option (Bytes × Bytes)) (i : Nat) (requestId : Bytes) (copy : Resource)
    (d : Resource.Decoding) (env : Resource.Readings) : Ledger :=
  match copy.assemble fullHash d env with
  | none => ledger
  | some out => ledger.settle unpack i requestId out.2

/-- A response resource is cancelled. -/
def cancelled (ledger : Ledger) (unpack : Bytes → Option (Bytes × Bytes)) (i : Nat)
    (requestId : Bytes) (r : Resource) (env : Resource.Readings) : Ledger :=
  ledger.settle unpack i requestId (r.cancel env).2

/-! ## Timeouts and closing -/

/-- The request has timed out; `timeUp` says that its time is over. -/
def expired (timeUp : Nat → Bool) (p : PendingRequest) : Bool :=
  p.responseClockStarted && !p.receivingResponse && timeUp p.uid

/-- `actor_check_request_timeouts`. -/
def checkRequestTimeouts (ledger : Ledger) (timeUp : Nat → Bool) : Ledger :=
  { ledger with
    pending := ledger.pending.filter fun p => !expired timeUp p
    fired := ledger.fired ++ (ledger.pending.filter (expired timeUp)).map fun p => (p.uid, .failed) }

def linkClosed (ledger : Ledger) : Ledger :=
  { ledger with
    pending := [], fired := ledger.fired ++ ledger.pending.map fun p => (p.uid, .failed) }

/-! ## Every request is accounted for -/

/-- The requests in the list, and those that had a callback. -/
def uids (ledger : Ledger) : List Nat :=
  ledger.pending.map PendingRequest.uid ++ ledger.fired.map Prod.fst

/-- Every request that was accepted is in the list or had one callback. -/
structure Accounts (ledger : Ledger) : Prop where
  fresh : ∀ uid ∈ ledger.uids, uid < ledger.nextUid
  once : ledger.uids.Nodup
  accounted : ∀ uid ∈ ledger.accepted, uid ∈ ledger.uids

variable {ledger ledger' : Ledger} {requestId : Bytes} {i : Nat}
  {unpack : Bytes → Option (Bytes × Bytes)}

theorem accounts_empty : Accounts empty := ⟨by simp [empty, uids], List.nodup_nil, by simp [empty]⟩

section

variable (h : ledger.Accounts)

include h

/-- Moving requests from the list to the callbacks keeps the accounts. -/
theorem Accounts.of_perm (hnext : ledger'.nextUid = ledger.nextUid)
    (haccepted : ledger'.accepted = ledger.accepted) (huids : ledger'.uids.Perm ledger.uids) :
    ledger'.Accounts := by
  refine ⟨fun uid huid => ?_, huids.nodup_iff.mpr h.once, fun uid huid => ?_⟩
  · rw [hnext]
    exact h.fresh uid (huids.subset huid)
  · rw [haccepted] at huid
    exact huids.symm.subset (h.accounted uid huid)

theorem Accounts.conclude (callback : PendingRequest → Callback) :
    (ledger.conclude requestId callback).Accounts := by
  unfold Ledger.conclude
  split
  · exact h
  · rename_i p hp
    obtain ⟨as, bs, hpending, -, -, herase⟩ := FirstMatch.eraseP_of_find? hp
    refine h.of_perm rfl rfl ?_
    unfold uids
    dsimp only
    rw [herase, hpending]
    simp only [List.map_append, List.map_cons, List.map_nil, List.append_assoc,
      List.cons_append]
    apply List.Perm.append_left
    rw [← List.append_assoc]
    exact List.perm_append_singleton _ _

theorem Accounts.of_same (hnext : ledger'.nextUid = ledger.nextUid)
    (haccepted : ledger'.accepted = ledger.accepted)
    (hpending : ledger'.pending.map PendingRequest.uid = ledger.pending.map PendingRequest.uid)
    (hfired : ledger'.fired = ledger.fired) : ledger'.Accounts := by
  refine h.of_perm hnext haccepted ?_
  unfold uids
  rw [hpending, hfired]

theorem Accounts.push (maxResponseSize : Option Nat) (started : Bool) :
    (ledger.push requestId maxResponseSize started).Accounts := by
  have huids : (ledger.push requestId maxResponseSize started).uids.Perm
      (ledger.nextUid :: ledger.uids) := by
    simp only [uids, Ledger.push, List.map_append, List.map_cons, List.map_nil,
      List.append_assoc, List.cons_append, List.nil_append]
    exact List.perm_middle
  have hnew : ledger.nextUid ∉ ledger.uids := fun hmem =>
    Nat.lt_irrefl _ (h.fresh _ hmem)
  refine ⟨fun uid huid => ?_, huids.nodup_iff.mpr (List.nodup_cons.mpr ⟨hnew, h.once⟩),
    fun uid huid => huids.symm.subset ?_⟩
  · show uid < ledger.nextUid + 1
    rcases List.mem_cons.mp (huids.subset huid) with rfl | hold
    · omega
    · have := h.fresh uid hold
      omega
  · rcases List.mem_append.mp huid with hold | hself
    · exact List.mem_cons_of_mem _ (h.accounted uid hold)
    · obtain rfl := List.mem_singleton.mp hself
      exact List.mem_cons_self

theorem Accounts.failUnsent : ledger.failUnsent.Accounts := by
  have huids : ledger.failUnsent.uids = ledger.uids ++ [ledger.nextUid] := by
    simp [uids, Ledger.failUnsent]
  have hnew : ledger.nextUid ∉ ledger.uids := fun hmem =>
    Nat.lt_irrefl _ (h.fresh _ hmem)
  refine ⟨fun uid huid => ?_, ?_, fun uid huid => ?_⟩
  · rw [huids] at huid
    show uid < ledger.nextUid + 1
    rcases List.mem_append.mp huid with hold | hself
    · have := h.fresh uid hold
      omega
    · obtain rfl := List.mem_singleton.mp hself
      omega
  · rw [huids]
    exact (List.perm_append_singleton _ _).nodup_iff.mpr (List.nodup_cons.mpr ⟨hnew, h.once⟩)
  · rw [huids]
    exact List.mem_append_left _ (h.accounted uid huid)

theorem Accounts.linkClosed : ledger.linkClosed.Accounts := by
  refine h.of_perm rfl rfl ?_
  simp only [uids, Ledger.linkClosed, List.map_nil, List.nil_append, List.map_append,
    List.map_map]
  exact List.perm_append_comm

theorem Accounts.checkRequestTimeouts (timeUp : Nat → Bool) :
    (ledger.checkRequestTimeouts timeUp).Accounts := by
  refine h.of_perm rfl rfl ?_
  have hsplit : (ledger.pending.filter (expired timeUp) ++
      ledger.pending.filter fun p => !expired timeUp p).Perm ledger.pending :=
    List.filter_append_perm _ _
  have huids := (hsplit.map PendingRequest.uid).append_right (ledger.fired.map Prod.fst)
  refine List.Perm.trans ?_ huids
  simp only [uids, Ledger.checkRequestTimeouts, List.map_append, List.map_map]
  rw [← List.append_assoc]
  refine List.perm_append_comm.trans ?_
  rw [← List.append_assoc]
  exact List.Perm.refl _

theorem Accounts.finish : (ledger.finish i).Accounts :=
  h.of_same rfl rfl rfl rfl

theorem Accounts.responseConcluded (r : Resource) :
    (ledger.responseConcluded unpack requestId r).Accounts := by
  unfold Ledger.responseConcluded
  split
  · exact h.conclude _
  · split
    · exact h
    · exact h.conclude _

theorem Accounts.settle (effects : List Resource.Effect) :
    (ledger.settle unpack i requestId effects).Accounts := by
  induction effects generalizing ledger with
  | nil => exact h
  | cons effect effects ih =>
      apply ih
      cases effect with
      | callback r => exact h.responseConcluded r
      | conclude => exact h.finish
      | cancelIncoming => exact h.finish
      | _ => exact h

theorem Accounts.acceptAdvertisedResource :
    (ledger.acceptAdvertisedResource adv response locked).Accounts := by
  unfold Ledger.acceptAdvertisedResource
  split
  · exact h
  · exact h.of_same rfl rfl rfl rfl

theorem Accounts.startReceiving :
    (ledger.startReceiving requestId).Accounts := by
  refine h.of_same rfl rfl ?_ rfl
  apply FirstMatch.map_update
  intro p
  rfl

theorem Accounts.handleAdvertisement {accepts : Bool} :
    (ledger.handleAdvertisement adv accepts locked).Accounts := by
  have hresponse : ∀ requestId, (ledger.responseAdvertised adv requestId locked).Accounts := by
    intro requestId
    unfold responseAdvertised
    split
    · exact h
    · split
      · exact h.startReceiving.acceptAdvertisedResource
      · exact h.conclude _
  unfold Ledger.handleAdvertisement
  split
  · split
    · split
      · exact h.acceptAdvertisedResource
      · exact h
    · split
      · exact hresponse _
      · split
        · exact h.acceptAdvertisedResource
        · exact h
  · split
    · exact h.acceptAdvertisedResource
    · exact h

theorem Accounts.handleResponsePacket (response : Option (Bytes × Bytes)) :
    (ledger.handleResponsePacket response).Accounts := by
  unfold Ledger.handleResponsePacket
  split
  · exact h
  · exact h.conclude _

theorem Accounts.requestResourceConcluded (delivered : Bool) :
    (ledger.requestResourceConcluded requestId delivered).Accounts := by
  unfold Ledger.requestResourceConcluded
  split
  · refine h.of_same rfl rfl ?_ rfl
    apply FirstMatch.map_update
    intro p
    rfl
  · exact h.conclude _

theorem Accounts.request {truncatedHash : Bytes → Bytes} {closed : Bool}
    {mdu : Nat} {packedRequest : Bytes} {maxResponseSize : Option Nat} {r : RequestReadings} :
    (ledger.request truncatedHash closed mdu packedRequest maxResponseSize r).Accounts := by
  unfold Ledger.request
  split
  · exact h.push _ _
  · split
    · exact h
    · split
      · exact h.push _ _
      · exact h.failUnsent

end

/-! ## Every response that is being received is in flight -/

/-- A response to this request is in flight. -/
def InFlight (ledger : Ledger) (requestId : Bytes) : Prop :=
  ∃ e ∈ ledger.incoming, e.ended = false ∧ e.response = some requestId

/-- A request that receives its response is the first of its id, and the
response is in flight. -/
structure Flights (ledger : Ledger) : Prop where
  first : ledger.pending.Pairwise fun p q =>
    q.receivingResponse = true → p.requestId ≠ q.requestId
  flying : ∀ p ∈ ledger.pending, p.receivingResponse = true → ledger.InFlight p.requestId

theorem flights_empty : Flights empty := ⟨List.Pairwise.nil, by simp [empty]⟩

/-- Requests may leave the list. -/
theorem Flights.of_sublist (h : ledger.Flights)
    (hpending : ledger'.pending.Sublist ledger.pending)
    (hflights : ∀ p ∈ ledger'.pending, p.receivingResponse = true →
      ledger.InFlight p.requestId → ledger'.InFlight p.requestId) : ledger'.Flights := by
  refine ⟨h.first.sublist hpending, fun p hp hreceiving => ?_⟩
  exact hflights p hp hreceiving (h.flying p (hpending.subset hp) hreceiving)

theorem incoming_conclude (callback : PendingRequest → Callback) :
    (ledger.conclude requestId callback).incoming = ledger.incoming := by
  unfold conclude
  split <;> rfl

theorem pending_conclude (callback : PendingRequest → Callback) :
    (ledger.conclude requestId callback).pending = ledger.pending.eraseP (hasId requestId) := by
  unfold conclude
  split
  · rename_i hnone
    rw [List.eraseP_of_forall_not]
    intro p hp
    simpa using List.find?_eq_none.mp hnone p hp
  · rfl

section

variable (h : ledger.Flights)

include h

theorem Flights.conclude (callback : PendingRequest → Callback) :
    (ledger.conclude requestId callback).Flights := by
  apply h.of_sublist
  · rw [pending_conclude]
    exact List.eraseP_sublist
  · intro p _ _ hflight
    unfold InFlight
    rw [incoming_conclude]
    exact hflight

/-- Concluding a request takes out the one that receives its response. -/
theorem Flights.not_receiving (callback : PendingRequest → Callback)
    {p : PendingRequest} (hp : p ∈ (ledger.conclude requestId callback).pending)
    (hreceiving : p.receivingResponse = true) : p.requestId ≠ requestId := by
  intro hid
  have hmatch : hasId requestId p = true := decide_eq_true hid
  rw [pending_conclude] at hp
  cases hfind : ledger.pending.find? (hasId requestId) with
  | none => exact List.find?_eq_none.mp hfind p (List.eraseP_subset hp) hmatch
  | some q =>
      obtain ⟨as, bs, hpending, has, hq, herase⟩ := FirstMatch.eraseP_of_find? hfind
      rw [herase] at hp
      rcases List.mem_append.mp hp with hp | hp
      · rw [has p hp] at hmatch
        cases hmatch
      · have hfirst := h.first
        rw [hpending, List.pairwise_append, List.pairwise_cons] at hfirst
        exact hfirst.2.1.1 p hp hreceiving ((of_decide_eq_true hq).trans hid.symm)

theorem Flights.push (maxResponseSize : Option Nat) (started : Bool) :
    (ledger.push requestId maxResponseSize started).Flights := by
  constructor
  · refine List.pairwise_append.mpr ⟨h.first, List.pairwise_singleton _ _, ?_⟩
    intro p _ q hq hreceiving
    obtain rfl := List.mem_singleton.mp hq
    cases hreceiving
  · intro p hp hreceiving
    rcases List.mem_append.mp hp with hp | hp
    · exact h.flying p hp hreceiving
    · obtain rfl := List.mem_singleton.mp hp
      cases hreceiving

theorem Flights.request {truncatedHash : Bytes → Bytes} {closed : Bool}
    {mdu : Nat} {packedRequest : Bytes} {maxResponseSize : Option Nat} {r : RequestReadings} :
    (ledger.request truncatedHash closed mdu packedRequest maxResponseSize r).Flights := by
  unfold Ledger.request
  split
  · exact h.push _ _
  · split
    · exact h
    · split
      · exact h.push _ _
      · exact ⟨h.first, h.flying⟩

end

/-- A change of the first request with an id keeps the order. -/
theorem pairwise_update {f : PendingRequest → PendingRequest}
    (hf : ∀ p, (f p).requestId = p.requestId)
    (h : ledger.pending.Pairwise fun p q =>
      q.receivingResponse = true → p.requestId ≠ q.requestId) :
    (FirstMatch.update (hasId requestId) f ledger.pending).Pairwise fun p q =>
      q.receivingResponse = true → p.requestId ≠ q.requestId := by
  refine FirstMatch.pairwise_update ?_ ?_ h
  · intro p q hpq
    rw [hf]
    exact hpq
  · intro p q hp hq _ hsame
    rw [hf, of_decide_eq_true hq] at hsame
    exact of_decide_eq_false hp hsame

theorem Flights.requestResourceConcluded (h : ledger.Flights) (delivered : Bool) :
    (ledger.requestResourceConcluded requestId delivered).Flights := by
  unfold Ledger.requestResourceConcluded
  split
  · refine ⟨pairwise_update (fun _ => rfl) h.first, fun p hp hreceiving => ?_⟩
    rcases FirstMatch.mem_update hp with hold | ⟨q, hq, rfl⟩
    · exact h.flying p hold hreceiving
    · exact h.flying q (List.mem_of_find?_eq_some hq) hreceiving
  · exact h.conclude _

theorem Flights.handleResponsePacket (h : ledger.Flights) (response : Option (Bytes × Bytes)) :
    (ledger.handleResponsePacket response).Flights := by
  unfold Ledger.handleResponsePacket
  split
  · exact h
  · exact h.conclude _

theorem InFlight.acceptAdvertisedResource (h : ledger.InFlight requestId) :
    (ledger.acceptAdvertisedResource adv response locked).InFlight requestId := by
  obtain ⟨e, he, hover, hresponse⟩ := h
  unfold Ledger.acceptAdvertisedResource
  split
  · exact ⟨e, he, hover, hresponse⟩
  · exact ⟨e, List.mem_append_left _ he, hover, hresponse⟩

theorem pending_acceptAdvertisedResource :
    (ledger.acceptAdvertisedResource adv response locked).pending = ledger.pending := by
  unfold acceptAdvertisedResource
  split <;> rfl

theorem Flights.acceptAdvertisedResource (h : ledger.Flights) :
    (ledger.acceptAdvertisedResource adv response locked).Flights := by
  apply h.of_sublist
  · rw [pending_acceptAdvertisedResource]
  · intro p _ _ hflight
    exact hflight.acceptAdvertisedResource

/-- The response that is advertised is accepted, or a response to the same
request is in flight. -/
def AdvertisementTaken (ledger : Ledger) (adv : AdvertisementHeader) (requestId : Bytes)
    (locked : Nat → Bool) : Prop :=
  ledger.hasIncomingResourceHash adv.h locked = true → ledger.InFlight requestId

section

variable (h : ledger.Flights)

include h

theorem Flights.responseAdvertised
    (htaken : ∀ p, ledger.pending.find? (hasId requestId) = some p → fits p adv.d = true →
      ledger.AdvertisementTaken adv requestId locked) :
    (ledger.responseAdvertised adv requestId locked).Flights := by
  unfold Ledger.responseAdvertised
  split
  · exact h
  · rename_i p hp
    split
    · rename_i hfits
      have hflight : ((ledger.startReceiving requestId).acceptAdvertisedResource adv
          (some requestId) locked).InFlight requestId := by
        by_cases hhash : ledger.hasIncomingResourceHash adv.h locked = true
        · have hold : (ledger.startReceiving requestId).InFlight requestId :=
            htaken p hp hfits hhash
          exact hold.acceptAdvertisedResource
        · have hhash' : ¬ (ledger.startReceiving requestId).hasIncomingResourceHash adv.h
              locked = true := hhash
          unfold Ledger.acceptAdvertisedResource
          rw [if_neg hhash']
          exact ⟨_, List.mem_append_right _ List.mem_cons_self, rfl, rfl⟩
      constructor
      · rw [pending_acceptAdvertisedResource]
        exact pairwise_update (fun _ => rfl) h.first
      · intro q hq hreceiving
        rw [pending_acceptAdvertisedResource] at hq
        rcases FirstMatch.mem_update hq with hold | ⟨q', hq', rfl⟩
        · have hflying : (ledger.startReceiving requestId).InFlight q.requestId :=
            h.flying q hold hreceiving
          exact hflying.acceptAdvertisedResource
        · have hmatch : hasId requestId q' = true := List.find?_some hq'
          have hid : q'.requestId = requestId := of_decide_eq_true hmatch
          show Ledger.InFlight _ q'.requestId
          rw [hid]
          exact hflight
    · exact h.conclude _

theorem Flights.handleAdvertisement
    {accepts : Bool}
    (htaken : ∀ requestId, adv.q = some requestId → adv.u = false → adv.p = true →
      ∀ p, ledger.pending.find? (hasId requestId) = some p → fits p adv.d = true →
        ledger.AdvertisementTaken adv requestId locked) :
    (ledger.handleAdvertisement adv accepts locked).Flights := by
  unfold Ledger.handleAdvertisement
  split
  · rename_i requestId hq
    split
    · split
      · exact h.acceptAdvertisedResource
      · exact h
    · rename_i hu
      split
      · rename_i hp
        exact h.responseAdvertised (htaken requestId hq (by simpa using hu) hp)
      · split
        · exact h.acceptAdvertisedResource
        · exact h
  · split
    · exact h.acceptAdvertisedResource
    · exact h

theorem Flights.cancelIncomingResource (hash : Digest) :
    (ledger.cancelIncomingResource hash).Flights := by
  apply h.of_sublist
  · exact List.Sublist.refl _
  · rintro p _ _ ⟨e, he, hover, hresponse⟩
    refine ⟨_, List.mem_map_of_mem he, ?_⟩
    split <;> exact ⟨hover, hresponse⟩

theorem Flights.checkRequestTimeouts (timeUp : Nat → Bool) :
    (ledger.checkRequestTimeouts timeUp).Flights :=
  h.of_sublist List.filter_sublist fun _ _ _ hflight => hflight

theorem Flights.linkClosed : ledger.linkClosed.Flights :=
  h.of_sublist (List.nil_sublist _) fun _ _ _ hflight => hflight

end

/-! ## Responses that are over -/

/-- Another response to the request is in flight. -/
def OtherFlight (ledger : Ledger) (i : Nat) (requestId : Bytes) : Prop :=
  ∃ j e, j ≠ i ∧ ledger.incoming[j]? = some e ∧ e.ended = false ∧ e.response = some requestId

/-- When a response resource is over, its request must not be left waiting for
it. -/
theorem Flights.finish {e : Incoming} (h : ledger.Flights) (he : ledger.incoming[i]? = some e)
    (hresponse : e.response = some requestId)
    (hpending : ledger'.pending.Sublist ledger.pending)
    (hincoming : ledger'.incoming = (ledger.finish i).incoming)
    (hover : ledger.OtherFlight i requestId ∨
      ∀ p ∈ ledger'.pending, p.receivingResponse = true → p.requestId ≠ requestId) :
    ledger'.Flights := by
  have hkeep : ∀ {j : Nat} {e' : Incoming}, j ≠ i → ledger.incoming[j]? = some e' →
      e' ∈ ledger'.incoming := by
    intro j e' hj he'
    rw [hincoming]
    apply List.mem_of_getElem? (i := j)
    show (ledger.incoming.modify i _)[j]? = some e'
    rw [List.getElem?_modify]
    simp [Ne.symm hj, he']
  apply h.of_sublist hpending
  rintro p hp hreceiving ⟨e', hmem, hover', hid⟩
  obtain ⟨j, hj⟩ := List.mem_iff_getElem?.mp hmem
  by_cases hji : j = i
  · subst hji
    obtain rfl : e' = e := Option.some.inj (hj.symm.trans he)
    have hsame : p.requestId = requestId := Option.some.inj (hid.symm.trans hresponse)
    rcases hover with ⟨k, other, hk, hother, hfree, hother'⟩ | hnone
    · exact ⟨other, hkeep hk hother, hfree, hother'.trans (by rw [hsame])⟩
    · exact absurd hsame (hnone p hp hreceiving)
  · exact ⟨e', hkeep hji hj, hover', hid⟩

/-- The request that waits for a response resource is named by the resource
that was assembled: it is the last segment, its data is not too large, and the
data of a complete one names no other request. -/
def Answers (fullHash : Bytes → Digest) (unpack : Bytes → Option (Bytes × Bytes))
    (requestId : Bytes) (copy : Resource) (d : Resource.Decoding) : Prop :=
  copy.segmentIndex = copy.totalSegments ∧ ∃ data, copy.assembledData d = some data ∧
    (fullHash (data ++ copy.randomHash) = copy.hash → ∃ shown,
      ({ copy with data := some data, status := .complete }.segmentData d).data = some shown ∧
        concludedId unpack requestId shown = requestId)

/-- No request waits for this resource alone. -/
def NotAwaited (ledger : Ledger) (i : Nat) (requestId : Bytes) : Prop :=
  ledger.OtherFlight i requestId ∨
    ∀ p ∈ ledger.pending, p.receivingResponse = true → p.requestId ≠ requestId

theorem pending_responseConcluded (ledger : Ledger) (unpack : Bytes → Option (Bytes × Bytes))
    (requestId : Bytes) (r : Resource) :
    (ledger.responseConcluded unpack requestId r).pending.Sublist ledger.pending ∧
    (ledger.responseConcluded unpack requestId r).incoming = ledger.incoming := by
  unfold responseConcluded
  split
  · exact ⟨by rw [pending_conclude]; exact List.eraseP_sublist, incoming_conclude _⟩
  · split
    · exact ⟨List.Sublist.refl _, rfl⟩
    · exact ⟨by rw [pending_conclude]; exact List.eraseP_sublist, incoming_conclude _⟩

/-- The callback of a response resource that is over. -/
theorem Flights.responseConcluded {e : Incoming} {r : Resource} (h : ledger.Flights)
    (he : ledger.incoming[i]? = some e) (hresponse : e.response = some requestId)
    (hown : ledger.NotAwaited i requestId ∨ (r.status = .complete → ∃ shown,
      r.data = some shown ∧ concludedId unpack requestId shown = requestId)) :
    ((ledger.finish i).responseConcluded unpack requestId r).Flights := by
  obtain ⟨hpending, hincoming⟩ :=
    pending_responseConcluded (ledger.finish i) unpack requestId r
  refine h.finish he hresponse hpending hincoming ?_
  rcases hown with (hother | hnone) | hown
  · exact .inl hother
  · exact .inr fun p hp => hnone p (hpending.subset hp)
  · right
    intro p hp hreceiving
    have hfinish : ∀ callback, p ∈ ((ledger.finish i).conclude requestId callback).pending →
        p.requestId ≠ requestId := by
      intro callback hmem
      rw [pending_conclude] at hmem
      refine h.not_receiving callback ?_ hreceiving
      rw [pending_conclude]
      exact hmem
    unfold Ledger.responseConcluded at hp
    split at hp
    · exact hfinish _ hp
    · rename_i hcomplete
      obtain ⟨shown, hshown, hid⟩ := hown (not_not.mp hcomplete)
      rw [hshown] at hp
      dsimp only at hp
      rw [hid] at hp
      exact hfinish _ hp

theorem settle_callback (r : Resource) : ledger.settle unpack i requestId [.callback r] =
    ledger.responseConcluded unpack requestId r := rfl

theorem finish_finish : (ledger.finish i).finish i = ledger.finish i := by
  unfold Ledger.finish
  simp only [List.modify_modify_eq, Function.comp_def]

theorem Flights.assembled {fullHash : Bytes → Digest} {e : Incoming} {copy : Resource}
    {d : Resource.Decoding} {env : Resource.Readings} (h : ledger.Flights)
    (he : ledger.incoming[i]? = some e) (hresponse : e.response = some requestId)
    (hcopy : IsVersion e copy) (hstatus : copy.status ≠ .failed)
    (hok : ledger.NotAwaited i requestId ∨ Answers fullHash unpack requestId copy d) :
    (ledger.assembled fullHash unpack i requestId copy d env).Flights := by
  have hfinish : ledger.NotAwaited i requestId → (ledger.finish i).Flights := fun hnot =>
    h.finish he hresponse (List.Sublist.refl _) rfl (hnot.imp_right fun hnone => hnone)
  unfold Ledger.assembled
  split
  · exact h
  rename_i out hout
  rcases Resource.assemble_cases hstatus hout with
    ⟨hdata, heffects⟩ | ⟨data, hdata, ⟨hhash, first, hfirst, heffects⟩ | ⟨hhash, heffects⟩⟩
  · rw [heffects]
    apply hfinish
    rcases hok with hnot | ⟨-, data, hsome, -⟩
    · exact hnot
    · rw [hdata] at hsome
      cases hsome
  · have hsettle : ledger.settle unpack i requestId out.2 = (ledger.finish i).settle unpack i
        requestId (if copy.Rings then [.callback
          ({ copy with data := some data, status := .complete }.segmentData d)] else []) := by
      rw [heffects]
      rcases hfirst with ⟨proof, rfl⟩ | ⟨-, rfl⟩ <;> rfl
    rw [hsettle]
    split
    · rw [settle_callback]
      refine h.responseConcluded he hresponse (hok.imp_right fun hanswers _ => ?_)
      obtain ⟨-, data', hdata', hown⟩ := hanswers
      obtain rfl : data = data' := Option.some.inj (hdata.symm.trans hdata')
      exact hown hhash
    · rename_i hrings
      apply hfinish
      rcases hok with hnot | ⟨hlast, -⟩
      · exact hnot
      · exact absurd ⟨hlast, hcopy.2.2.2⟩ hrings
  · have hsettle : ledger.settle unpack i requestId out.2 = (ledger.finish i).settle unpack i
        requestId (if copy.Rings then [.callback { copy with status := .corrupt }] else []) := by
      rw [heffects]
      rfl
    rw [hsettle]
    split
    · rw [settle_callback]
      refine h.responseConcluded he hresponse (hok.imp_right fun _ hcomplete => ?_)
      cases hcomplete
    · rename_i hrings
      apply hfinish
      rcases hok with hnot | ⟨hlast, -⟩
      · exact hnot
      · exact absurd ⟨hlast, hcopy.2.2.2⟩ hrings

theorem Flights.cancelled {e : Incoming} {r : Resource} {env : Resource.Readings}
    (h : ledger.Flights) (he : ledger.incoming[i]? = some e)
    (hresponse : e.response = some requestId) (hr : IsVersion e r) (hstatus : r.status ≠ .corrupt) :
    (ledger.cancelled unpack i requestId r env).Flights := by
  have hcallback : r.callback = true := hr.2.2.2
  unfold Ledger.cancelled
  by_cases hcode : r.status.code < ResourceStatus.complete.code
  · obtain ⟨told, hold, heffects⟩ : ∃ told, (ledger.settle unpack i requestId told = ledger ∨
        ledger.settle unpack i requestId told = ledger.finish i) ∧
        (r.cancel env).2 = told ++ [.conclude, .callback { r with status := .failed }] := by
      refine ⟨.cancelNext ::
        (if env.linkActive then [.control (if r.initiator then .icl else .rcl)] else []) ++
        [if r.initiator then .cancelOutgoing else .cancelIncoming], ?_, ?_⟩
      · cases env.linkActive <;> cases r.initiator
        · exact .inr rfl
        · exact .inl rfl
        · exact .inr rfl
        · exact .inl rfl
      · simp [Resource.cancel, hstatus, hcode, hcallback]
    have hfinish : (ledger.settle unpack i requestId told).finish i = ledger.finish i := by
      rcases hold with hold | hold
      · rw [hold]
      · rw [hold, finish_finish]
    have hsettle : ledger.settle unpack i requestId (r.cancel env).2 =
        ((ledger.settle unpack i requestId told).finish i).responseConcluded unpack requestId
          { r with status := .failed } := by
      rw [heffects]
      unfold settle
      rw [List.foldl_append]
      rfl
    rw [hsettle, hfinish]
    exact h.responseConcluded he hresponse (.inr nofun)
  · have hkept : r.cancel env = (r, [.cancelNext]) := by
      unfold Resource.cancel
      rw [if_neg hstatus, if_neg hcode]
    rw [hkept]
    exact h

/-! ## A closed link has no requests -/

section

variable (h : ledger.pending = [])

include h

theorem conclude_nil (callback : PendingRequest → Callback) :
    (ledger.conclude requestId callback).pending = [] := by
  rw [pending_conclude, h]
  rfl

theorem responseConcluded_nil (r : Resource) :
    (ledger.responseConcluded unpack requestId r).pending = [] := by
  have hsub := (pending_responseConcluded ledger unpack requestId r).1
  rw [h] at hsub
  exact List.sublist_nil.mp hsub

theorem settle_nil (effects : List Resource.Effect) :
    (ledger.settle unpack i requestId effects).pending = [] := by
  induction effects generalizing ledger with
  | nil => exact h
  | cons effect effects ih =>
      apply ih
      cases effect with
      | callback r => exact responseConcluded_nil h r
      | _ => exact h

theorem requestResourceConcluded_nil (delivered : Bool) :
    (ledger.requestResourceConcluded requestId delivered).pending = [] := by
  unfold requestResourceConcluded
  split
  · show FirstMatch.update _ _ ledger.pending = []
    rw [h]
    rfl
  · exact conclude_nil h _

end

end Ledger

end Reticulum.Link
