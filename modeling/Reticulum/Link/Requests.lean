import Reticulum.Link.Actor
import Reticulum.Link.Ledger

/-!
# Requests are concluded

The actor of a link owns its requests. It makes them, matches responses to
them, times them out and fails them when the link closes; the threads of
response resources conclude them from outside. `requests_concluded` says when
every request ends in one callback.

## Implementation notes

`requestOps` puts a `Ledger` beside any link that an actor may own, so that the
steps of the actor are those of `actorStep`. What a packet means for requests
is given by `RequestView`. The messages of an upload's end and of a resource's
end may come at any time.
-/

namespace Reticulum.Link

open Runs
open Resource (Digest)

/-- The packets that requests are concerned with, decrypted. -/
inductive RequestPacket
  /-- RESPONSE -/
  | response (plaintext : Bytes)
  /-- RESOURCE_ADV, unpacked -/
  | advertisement (adv : AdvertisementHeader)

/-- What requests read from the link. -/
structure RequestView (L P : Type*) where
  classify : L → P → Option RequestPacket
  mdu : L → Nat
  truncatedHash : Bytes → Bytes
  fullHash : Bytes → Digest
  /-- an array of two elements or more that starts with a binary: that binary,
  and the second element -/
  unpack : Bytes → Option (Bytes × Bytes)

/-- What the handling of an advertisement reads: whether a resource that is no
response is accepted, and which resources are locked. -/
structure AdvertisementReadings where
  accepts : Bool
  locked : Nat → Bool

/-- The messages that are no packets. -/
inductive RequestMsg (M : Type*)
  | request (packedRequest : Bytes) (maxResponseSize : Option Nat) (r : Ledger.RequestReadings)
  | requestResourceConcluded (requestId : Bytes) (delivered : Bool)
  /-- `CancelIncomingResource` and `ResourceConcluded` -/
  | cancelIncomingResource (hash : Digest)
  | advertisedResourceDecision (adv : AdvertisementHeader) (accept : Bool) (locked : Nat → Bool)
  | other (message : M)

variable {L P M T : Type*} (base : LinkOps L P M T) (view : RequestView L P)

/-- `link_closed`, when the link has closed. -/
def closeLedger (before after : LinkState) (ledger : Ledger) : Ledger :=
  if before ≠ .closed ∧ after = .closed then ledger.linkClosed else ledger

/-- What `receive` does to the requests of a link that is not closed. -/
def receiveLedger (link : L) (ledger : Ledger) (packet : P) (r : AdvertisementReadings) :
    Ledger :=
  if base.state link = .closed then ledger
  else
    match view.classify link packet with
    | some (.response plaintext) => ledger.handleResponsePacket (view.unpack plaintext)
    | some (.advertisement adv) => ledger.handleAdvertisement adv r.accepts r.locked
    | none => ledger

/-- A link and its requests, as the actor uses them. -/
def requestOps : LinkOps (L × Ledger) (P × AdvertisementReadings) (RequestMsg M)
    (T × (Nat → Bool)) where
  receive s packet := (base.receive s.1 packet.1).map fun link =>
    (link, closeLedger (base.state s.1) (base.state link)
      (receiveLedger base view s.1 s.2 packet.1 packet.2))
  teardown s clock := (base.teardown s.1 clock.1, s.2.linkClosed)
  handle s message :=
    match message with
    | .request packedRequest maxResponseSize r =>
        some (s.1, s.2.request view.truncatedHash (base.state s.1 = .closed) (view.mdu s.1)
          packedRequest maxResponseSize r)
    | .requestResourceConcluded requestId delivered =>
        some (s.1, s.2.requestResourceConcluded requestId delivered)
    | .cancelIncomingResource hash => some (s.1, s.2.cancelIncomingResource hash)
    | .advertisedResourceDecision adv accept locked =>
        some (s.1, if accept then s.2.acceptAdvertisedResource adv none locked else s.2)
    | .other message => (base.handle s.1 message).map fun link =>
        (link, closeLedger (base.state s.1) (base.state link) s.2)
  state s := base.state s.1
  watchdog s clock :=
    let link := base.watchdog s.1 clock.1
    (link, (closeLedger (base.state s.1) (base.state link) s.2).checkRequestTimeouts clock.2)

/-- The actor of a link with requests. -/
abbrev RequestActor (L P M : Type*) :=
  Actor (L × Ledger) (P × AdvertisementReadings) (RequestMsg M)

/-- A step of the actor, of its senders, or of a response resource's thread. -/
inductive RequestEvent (P M T : Type*)
  | actor (e : ActorEvent (P × AdvertisementReadings) (RequestMsg M) (T × (Nat → Bool)))
  | assembled (i : Nat) (copy : Resource) (d : Resource.Decoding) (env : Resource.Readings)
  | cancelled (i : Nat) (r : Resource) (env : Resource.Readings)

/-- The response resource with this index, and its request. -/
def responseAt (ledger : Ledger) (i : Nat) : Option (Incoming × Bytes) :=
  ledger.incoming[i]?.bind fun e => e.response.map fun requestId => (e, requestId)

/-- One step. Only a copy is ever assembled, and only a copy is ever
corrupt. -/
def requestStep (a : RequestActor L P M) : RequestEvent P M T → Option (RequestActor L P M)
  | .actor e => actorStep (requestOps base view) a e
  | .assembled i copy d env => (responseAt a.link.2 i).bind fun (e, requestId) =>
      if Ledger.IsVersion e copy ∧ copy.status = .assembling then
        some { a with link := (a.link.1,
          a.link.2.assembled view.fullHash view.unpack i requestId copy d env) }
      else none
  | .cancelled i r env => (responseAt a.link.2 i).bind fun (e, requestId) =>
      if Ledger.IsVersion e r ∧ r.status ≠ .corrupt then
        some { a with link := (a.link.1, a.link.2.cancelled view.unpack i requestId r env) }
      else none

/-! ## What is promised, and when -/

/-- No request has more than one callback. -/
def CalledOnce (ledger : Ledger) : Prop := (ledger.fired.map Prod.fst).Nodup

/-- Every request that receives its response has a response resource in flight
whose end takes it out of the list. -/
def Awaited (ledger : Ledger) : Prop :=
  ∀ p ∈ ledger.pending, p.receivingResponse = true → ∃ e ∈ ledger.incoming,
    e.ended = false ∧ e.response = some p.requestId ∧
      ∀ callback, p ∉ (ledger.conclude p.requestId callback).pending

/-- Every request that was accepted has had a callback. -/
def AllCalled (ledger : Ledger) : Prop :=
  ∀ uid ∈ ledger.accepted, uid ∈ ledger.fired.map Prod.fst

/-- Requests are concluded. -/
def RequestsConcluded (a : RequestActor L P M) : Prop :=
  CalledOnce a.link.2 ∧ Awaited a.link.2 ∧ (a.phase = .exited → AllCalled a.link.2)

/-- A message that leaves no request behind: the resource of an advertised
response is accepted, or one with its hash answers the same request, and no
request is made as a resource on a closed link. -/
def MessageOk (s : L × Ledger) :
    LinkMsg (P × AdvertisementReadings) (RequestMsg M) → Prop
  | .receive packet => ∀ adv requestId p, base.state s.1 ≠ .closed →
      view.classify s.1 packet.1 = some (.advertisement adv) →
      adv.q = some requestId → adv.u = false → adv.p = true →
      s.2.pending.find? (Ledger.hasId requestId) = some p → Ledger.fits p adv.d = true →
      s.2.AdvertisementTaken adv requestId packet.2.locked
  | .other (.request packedRequest _ _) =>
      packedRequest.length > view.mdu s.1 → base.state s.1 ≠ .closed
  | _ => True

/-- A step that leaves no request behind. -/
def Answered (a : RequestActor L P M) : RequestEvent P M T → Prop
  | .actor e => ∀ message, handled a e = some message → MessageOk base view a.link message
  | .assembled i copy d _ => ∀ e requestId, responseAt a.link.2 i = some (e, requestId) →
      a.link.2.NotAwaited i requestId ∨
        Ledger.Answers view.fullHash view.unpack requestId copy d
  | .cancelled _ _ _ => True

/-! ## The invariant -/

/-- The requests are accounted for, the responses that are received are in
flight, and a closed link has no requests. -/
structure RequestInv (s : L × Ledger) : Prop where
  accounts : s.2.Accounts
  flights : s.2.Flights
  closed : base.state s.1 = .closed → s.2.pending = []

variable {base view} {s s' : L × Ledger} {a b : RequestActor L P M}

theorem accounts_closeLedger {before after : LinkState} {ledger : Ledger} (h : ledger.Accounts) :
    (closeLedger before after ledger).Accounts := by
  unfold closeLedger
  split
  · exact h.linkClosed
  · exact h

theorem flights_closeLedger {before after : LinkState} {ledger : Ledger} (h : ledger.Flights) :
    (closeLedger before after ledger).Flights := by
  unfold closeLedger
  split
  · exact h.linkClosed
  · exact h

/-- A link that is closed now was closed before, or its requests failed. -/
theorem pending_closeLedger {before after : LinkState} {ledger : Ledger} (hafter : after = .closed)
    (h : before = .closed → ledger.pending = []) :
    (closeLedger before after ledger).pending = [] := by
  unfold closeLedger
  by_cases hbefore : before = .closed
  · rw [if_neg fun hboth => hboth.1 hbefore]
    exact h hbefore
  · rw [if_pos ⟨hbefore, hafter⟩]
    rfl

section

variable (h : RequestInv base s)

include h

theorem inv_receive {packet : P × AdvertisementReadings}
    (hok : MessageOk base view s (M := M) (.receive packet))
    (hstep : (requestOps base view).receive s packet = some s') : RequestInv base s' := by
  obtain ⟨link, -, rfl⟩ := Option.map_eq_some_iff.mp hstep
  have hledger : (receiveLedger base view s.1 s.2 packet.1 packet.2).Accounts ∧
      (receiveLedger base view s.1 s.2 packet.1 packet.2).Flights := by
    unfold receiveLedger
    split
    · exact ⟨h.accounts, h.flights⟩
    rename_i hstate
    split
    · exact ⟨h.accounts.handleResponsePacket _, h.flights.handleResponsePacket _⟩
    · rename_i adv hadv
      refine ⟨h.accounts.handleAdvertisement, h.flights.handleAdvertisement ?_⟩
      intro requestId hq hu hp p hpending hfits
      exact hok adv requestId p hstate hadv hq hu hp hpending hfits
    · exact ⟨h.accounts, h.flights⟩
  refine ⟨accounts_closeLedger hledger.1, flights_closeLedger hledger.2, fun hclosed => ?_⟩
  refine pending_closeLedger hclosed fun hbefore => ?_
  unfold receiveLedger
  rw [if_pos hbefore]
  exact h.closed hbefore

theorem inv_handle {message : RequestMsg M}
    (hok : MessageOk base view s (.other message))
    (hstep : (requestOps base view).handle s message = some s') : RequestInv base s' := by
  cases message with
  | request packedRequest maxResponseSize r =>
      obtain rfl := Option.some.inj hstep
      refine ⟨h.accounts.request, h.flights.request, fun hclosed => ?_⟩
      have hsmall : ¬ packedRequest.length > view.mdu s.1 := fun hlarge => hok hlarge hclosed
      have hnone := h.closed hclosed
      simp only [Ledger.request, if_neg hsmall, hclosed, decide_true, true_or, if_true]
      exact hnone
  | requestResourceConcluded requestId delivered =>
      obtain rfl := Option.some.inj hstep
      exact ⟨h.accounts.requestResourceConcluded _, h.flights.requestResourceConcluded _,
        fun hclosed => Ledger.requestResourceConcluded_nil (h.closed hclosed) _⟩
  | cancelIncomingResource hash =>
      obtain rfl := Option.some.inj hstep
      exact ⟨h.accounts.of_same rfl rfl rfl rfl, h.flights.cancelIncomingResource _, h.closed⟩
  | advertisedResourceDecision adv accept locked =>
      obtain rfl := Option.some.inj hstep
      cases accept with
      | false => exact h
      | true =>
          refine ⟨h.accounts.acceptAdvertisedResource, h.flights.acceptAdvertisedResource, ?_⟩
          intro hclosed
          show (s.2.acceptAdvertisedResource adv none locked).pending = []
          rw [Ledger.pending_acceptAdvertisedResource]
          exact h.closed hclosed
  | other message =>
      obtain ⟨link, -, rfl⟩ := Option.map_eq_some_iff.mp hstep
      exact ⟨accounts_closeLedger h.accounts, flights_closeLedger h.flights,
        fun hclosed => pending_closeLedger hclosed h.closed⟩

theorem inv_watchdog (clock : T × (Nat → Bool)) :
    RequestInv base ((requestOps base view).watchdog s clock) := by
  refine ⟨(accounts_closeLedger h.accounts).checkRequestTimeouts _,
    (flights_closeLedger h.flights).checkRequestTimeouts _, fun hclosed => ?_⟩
  have hclosed' : base.state (base.watchdog s.1 clock.1) = .closed := hclosed
  have hnone := pending_closeLedger hclosed' h.closed
  show List.filter _ (closeLedger _ _ s.2).pending = []
  rw [hnone]
  rfl

theorem inv_teardown (clock : T × (Nat → Bool)) :
    RequestInv base ((requestOps base view).teardown s clock) :=
  ⟨h.accounts.linkClosed, h.flights.linkClosed, fun _ => rfl⟩

end

theorem responseAt_eq {ledger : Ledger} {i : Nat} {e : Incoming} {requestId : Bytes}
    (h : responseAt ledger i = some (e, requestId)) :
    ledger.incoming[i]? = some e ∧ e.response = some requestId := by
  obtain ⟨e', he', hmap⟩ := Option.bind_eq_some_iff.mp h
  obtain ⟨requestId', hresponse, hpair⟩ := Option.map_eq_some_iff.mp hmap
  obtain ⟨rfl, rfl⟩ := Prod.mk.inj hpair
  exact ⟨he', hresponse⟩

/-- The actor's invariant: that of its link, and that it exits only when the
link is closed. -/
structure ActorInv (base : LinkOps L P M T) (view : RequestView L P) (a : RequestActor L P M) :
    Prop where
  requests : RequestInv base a.link
  exits : ExitsClosed (requestOps base view) a

theorem actorInv_start (link : L) (linkEstablished : Bool) :
    ActorInv base view (Actor.start (link, .empty) linkEstablished) :=
  ⟨⟨Ledger.accounts_empty, Ledger.flights_empty, fun _ => rfl⟩, nofun⟩

theorem actorInv_step (hteardown : ∀ l clock, base.state (base.teardown l clock) = .closed)
    {e : RequestEvent P M T} (h : ActorInv base view a) (hok : Answered base view a e)
    (hstep : requestStep base view a e = some b) : ActorInv base view b := by
  cases e with
  | actor e =>
      constructor
      · exact link_step (RequestInv base) (MessageOk base view)
          (fun _ _ _ hs hmessage hreceive => inv_receive hs hmessage hreceive)
          (fun _ clock hs _ => inv_teardown hs clock)
          (fun _ _ _ hs hmessage hhandle => inv_handle hs hmessage hhandle)
          (fun _ clock hs _ => inv_watchdog hs clock) h.requests hok hstep
      · exact exitsClosed_step (fun _ _ => hteardown _ _) hstep
  | assembled i copy d env =>
      obtain ⟨⟨e, requestId⟩, he, hif⟩ := Option.bind_eq_some_iff.mp hstep
      obtain ⟨hincoming, hresponse⟩ := responseAt_eq he
      dsimp only at hif
      split at hif
      · rename_i hcopy
        obtain rfl := Option.some.inj hif
        have hstatus : copy.status ≠ .failed := by
          rw [hcopy.2]
          decide
        refine ⟨⟨?_, ?_, fun hclosed => ?_⟩, h.exits⟩
        · show Ledger.Accounts (Ledger.assembled _ _ _ _ _ _ _ _)
          unfold Ledger.assembled
          split
          · exact h.requests.accounts
          · exact h.requests.accounts.settle _
        · exact h.requests.flights.assembled hincoming hresponse hcopy.1 hstatus
            (hok e requestId he)
        · have hnone := h.requests.closed hclosed
          show (Ledger.assembled _ _ _ _ _ _ _ _).pending = []
          unfold Ledger.assembled
          split
          · exact hnone
          · exact Ledger.settle_nil hnone _
      · cases hif
  | cancelled i r env =>
      obtain ⟨⟨e, requestId⟩, he, hif⟩ := Option.bind_eq_some_iff.mp hstep
      obtain ⟨hincoming, hresponse⟩ := responseAt_eq he
      dsimp only at hif
      split at hif
      · rename_i hr
        obtain rfl := Option.some.inj hif
        exact ⟨⟨h.requests.accounts.settle _,
          h.requests.flights.cancelled hincoming hresponse hr.1 hr.2,
          fun hclosed => Ledger.settle_nil (h.requests.closed hclosed) _⟩, h.exits⟩
      · cases hif

theorem ActorInv.concluded (h : ActorInv base view a) : RequestsConcluded a := by
  refine ⟨(List.nodup_append.mp h.requests.accounts.once).2.1, ?_, fun hphase uid huid => ?_⟩
  · intro p hp hreceiving
    obtain ⟨e, he, hover, hresponse⟩ := h.requests.flights.flying p hp hreceiving
    refine ⟨e, he, hover, hresponse, fun callback hmem => ?_⟩
    exact h.requests.flights.not_receiving callback hmem hreceiving rfl
  · have hnone := h.requests.closed (h.exits hphase)
    have hmem := h.requests.accounts.accounted uid huid
    unfold Ledger.uids at hmem
    rw [hnone] at hmem
    exact hmem

/-! ## The requests of the modelled link -/

/-- What `rmp_serde` and `rmpv` make of a plaintext. -/
structure RequestCodec where
  isFloat : Bytes → Bool
  isRequest : Bytes → Bool
  unpack : Bytes → Option (Bytes × Bytes)
  advertisement : Bytes → Option AdvertisementHeader

/-- The part of it that the link reads. -/
def RequestCodec.msgpack (codec : RequestCodec) : Msgpack where
  isFloat := codec.isFloat
  isRequest := codec.isRequest
  isResponse plaintext := (codec.unpack plaintext).isSome
  isAdvertisement plaintext := (codec.advertisement plaintext).isSome

/-- The packets of the modelled link. -/
def classify (c : Crypto) (codec : RequestCodec) (l : Link) (packet : Packet) :
    Option RequestPacket :=
  match packet.packetType, decrypt c l packet.data with
  | .data, some (.ok plaintext) =>
      if packet.context = Packet.resourceAdv then
        (codec.advertisement plaintext).map .advertisement
      else if packet.context = Packet.response then some (.response plaintext)
      else none
  | _, _ => none

def requestView (c : Crypto) (codec : RequestCodec) : RequestView Link (Packet × Readings) where
  classify l packet := classify c codec l packet.1
  mdu := Link.mdu
  truncatedHash data := (c.truncatedHash data).1
  fullHash := c.fullHash
  unpack := codec.unpack

/-- A step of the modelled link with its requests. -/
def linkRequestStep (c : Crypto) (codec : RequestCodec) :
    RequestActor Link (Packet × Readings) LinkUpdate →
      RequestEvent (Packet × Readings) LinkUpdate Readings →
        Option (RequestActor Link (Packet × Readings) LinkUpdate) :=
  requestStep (linkOps c codec.msgpack) (requestView c codec)

/-- In every run that leaves no request behind, no request has two callbacks,
every request that receives its response has it in flight, and when the actor
has exited every request that was accepted has had its callback. -/
theorem requests_concluded (c : Crypto) (codec : RequestCodec) {link : Link}
    {linkEstablished : Bool} {es : List (RequestEvent (Packet × Readings) LinkUpdate Readings)}
    {a : RequestActor Link (Packet × Readings) LinkUpdate}
    (hes : Meets (linkRequestStep c codec)
      (Answered (linkOps c codec.msgpack) (requestView c codec))
      (Actor.start (link, .empty) linkEstablished) es)
    (hrun : exec (linkRequestStep c codec) (Actor.start (link, .empty) linkEstablished) es =
      some a) : RequestsConcluded a := by
  have hinv : ActorInv (linkOps c codec.msgpack) (requestView c codec) a :=
    invariant (fun _ _ _ h hok hstep => actorInv_step (fun _ _ => rfl) h hok hstep)
      (actorInv_start link linkEstablished) hes hrun
  exact hinv.concluded

section Samples

-- the request below has more than 431 bytes
set_option maxRecDepth 4096

/-- Nothing is well-formed msgpack. -/
def sampleCodec : RequestCodec where
  isFloat _ := false
  isRequest _ := false
  unpack _ := none
  advertisement _ := none

/-- A request that is larger than the link's `mdu`. -/
def sampleUpload : RequestMsg LinkUpdate :=
  .request (List.replicate 432 0) none { packetId := [], encrypted := false, sent := false }

/-- The actor of a link that waits for its proof. -/
def sampleRequester : RequestActor Link (Packet × Readings) LinkUpdate :=
  .start (sampleInitiator [], .empty) false

def sampleClock : Readings × (Nat → Bool) := (sampleReadings, fun _ => false)

/-- A request is made as a resource, and the link is torn down. -/
def sampleUploadRun : List (RequestEvent (Packet × Readings) LinkUpdate Readings) :=
  [.actor (.send (.other sampleUpload)), .actor (.recv sampleClock), .actor (.send .teardown),
    .actor (.recv sampleClock)]

theorem requests_concluded_at_teardown : ∃ a,
    exec (linkRequestStep (sampleCrypto []) sampleCodec) sampleRequester sampleUploadRun =
      some a ∧
    a.phase = .exited ∧ a.link.2.accepted = [0] ∧ a.link.2.fired = [(0, .failed)] ∧
    RequestsConcluded a := by
  have hes : Meets (linkRequestStep (sampleCrypto []) sampleCodec)
      (Answered (linkOps (sampleCrypto []) sampleCodec.msgpack)
        (requestView (sampleCrypto []) sampleCodec)) sampleRequester sampleUploadRun := by
    rintro _ ⟨⟩
    refine ⟨nofun, ?_⟩
    rintro _ ⟨⟩
    refine ⟨?_, ?_⟩
    · rintro _ ⟨⟩ - hclosed
      cases hclosed
    rintro _ ⟨⟩
    refine ⟨nofun, ?_⟩
    rintro _ ⟨⟩
    refine ⟨?_, True.intro⟩
    rintro _ ⟨⟩
    exact True.intro
  exact ⟨_, rfl, rfl, rfl, rfl, requests_concluded _ _ hes rfl⟩

/-- The watchdog closes a link whose proof does not come; a request that
reaches the actor before it exits is accepted as a resource and never
concluded. -/
theorem requests_left_on_closed_link : ∃ a,
    exec (linkRequestStep (sampleCrypto []) sampleCodec) sampleRequester
      [.actor (.timeout ({ sampleReadings with establishmentOver := true }, fun _ => false)),
        .actor (.send (.other sampleUpload)), .actor (.recv sampleClock)] = some a ∧
    a.phase = .exited ∧ a.link.2.accepted = [0] ∧ a.link.2.fired = [] ∧
    ¬ RequestsConcluded a := by
  obtain ⟨a, hrun, hphase, haccepted, hfired⟩ : ∃ a,
      exec (linkRequestStep (sampleCrypto []) sampleCodec) sampleRequester
        [.actor (.timeout ({ sampleReadings with establishmentOver := true }, fun _ => false)),
          .actor (.send (.other sampleUpload)), .actor (.recv sampleClock)] = some a ∧
      a.phase = .exited ∧ a.link.2.accepted = [0] ∧ a.link.2.fired = [] :=
    ⟨_, rfl, rfl, rfl, rfl⟩
  refine ⟨a, hrun, hphase, haccepted, hfired, ?_⟩
  rintro ⟨-, -, hall⟩
  have hmem := hall hphase 0 (by simp [haccepted])
  rw [hfired] at hmem
  cases hmem

end Samples

end Reticulum.Link
