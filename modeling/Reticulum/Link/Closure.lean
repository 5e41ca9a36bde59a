import Reticulum.Link.Actor

/-!
# The end of a link

A link is closed by `teardown`, which any holder of a handle can ask for, by
the watchdog, by a malformed advertisement and by a LINKCLOSE of the peer. All
of them come to `link_closed`, which drops the keys and starts the
application's `link_closed` callback. `closedOnce_iff_meets` says in which runs
this happens once.

## Implementation notes

`Endpoint` adds to the link what only its closing touches: the signing key, the
token of the key exchange, the registered callback and the status that the
handles read. `closedRuns` counts the runs of the callback. Messages that
neither write these fields nor send are one constructor.
-/

namespace Reticulum.Link

open Runs

/-- The link with its `sig_prv_bytes`, `token`, `callbacks.link_closed` and
`status_atomic`. -/
structure Endpoint where
  link : Link
  sigPrvBytes : Option Bytes
  token : Option Token
  linkClosedCallback : Bool
  statusAtomic : LinkState
  closedRuns : Nat

/-- What `initiate_prepare` draws and reads, and whether its packet was sent. -/
structure Initiation where
  prv : Bytes.Block 32
  sigPrv : Bytes.Block 32
  sigPub : Bytes.Block 32
  destType : UInt8
  destHash : Bytes.Block 16
  sent : Bool
  now : Nat

/-- The messages other than packets, teardowns and
`SetLinkEstablishedCallback`. -/
inductive EndpointMsg
  | initiate (initiation : Initiation)
  | setLinkClosedCallback (set : Bool)
  | identify (sent : Bool) (now : Nat)
  | sendResponse (sent : Bool) (now : Nat)
  | other

namespace Endpoint

/-- The token that goes with the derived key of a link. -/
def tokenOf (l : Link) : Option Token := l.derivedKey.bind fun key => (Token.new key).toOption

/-- A method of the link has run. Each run of `link_closed` in it has dropped
the keys and started the callback, if one is registered. -/
def after (e : Endpoint) (link : Link) : Endpoint :=
  let ran := link.closings - e.link.closings
  { e with
    link := link
    sigPrvBytes := if ran = 0 then e.sigPrvBytes else none
    token :=
      if ran ≠ 0 then none
      else if link.derivedKey = e.link.derivedKey then e.token else tokenOf link
    closedRuns := if e.linkClosedCallback then e.closedRuns + ran else e.closedRuns }

/-- `status_atomic.store(link.status)`. -/
def publish (e : Endpoint) : Endpoint := { e with statusAtomic := e.link.status }

/-- `initiate_prepare` and `initiate_send`. -/
def initiate (c : Crypto) (e : Endpoint) (k : Initiation) : Endpoint :=
  if ¬ e.link.initiator then e
  else
    let link :=
      if e.link.destination = .poisoned then
        { e.link with
          prvBytes := some k.prv.1, pubBytes := some (c.publicKey k.prv.1).1
          sigPubBytes := some k.sigPub.1 }
      else
        match initiatePrepare c e.link k.prv k.sigPub k.destType k.destHash with
        | (.error _, l) => l
        | (.ok _, l) => if k.sent then hadOutbound l k.now false else l
    { e with link := link, sigPrvBytes := some k.sigPrv.1 }

/-- `actor_handle_message`. -/
def handle (c : Crypto) (e : Endpoint) : EndpointMsg → Endpoint
  | .initiate k => initiate c e k
  | .setLinkClosedCallback set => { e with linkClosedCallback := set }
  | .identify sent now =>
      if e.link.initiator ∧ e.link.state = .active ∧ sent then
        { e with link := hadOutbound e.link now false }
      else e
  | .sendResponse sent now =>
      if sent then { e with link := hadOutbound e.link now false } else e
  | .other => e

end Endpoint

/-- The endpoint, as its actor uses it. -/
def endpointOps (c : Crypto) (m : Msgpack) :
    LinkOps Endpoint (Packet × Readings) EndpointMsg Readings where
  receive e packet :=
    (receive c m e.link packet.1 packet.2).map fun result => (e.after result.2).publish
  teardown e r := (e.after (teardown e.link r.now)).publish
  handle e message := some (e.handle c message)
  state e := e.link.state
  watchdog e r := (e.after (watchdog e.link r)).publish

/-! ## What closes a link -/

/-- The link is not closed, by either of its two fields. -/
def Open (l : Link) : Prop := l.state ≠ .closed ∧ l.status ≠ .closed

/-- The link is closed and has no keys. -/
def Closed (l : Link) : Prop :=
  l.state = .closed ∧ l.status = .closed ∧ l.prvBytes = none ∧ l.pubBytes = none ∧
    l.sigPubBytes = none ∧ l.sharedKey = none ∧ l.derivedKey = none

/-- A method leaves an open link open, or closes it with one `link_closed`. -/
def Settles (l l' : Link) : Prop :=
  Open l' ∧ l'.closings = l.closings ∨ Closed l' ∧ l'.closings = l.closings + 1

variable {c : Crypto} {m : Msgpack} {l l' : Link} {r : Readings} {packet : Packet}

theorem Settles.refl (hopen : Open l) : Settles l l := .inl ⟨hopen, rfl⟩

/-- A teardown always runs `link_closed`. -/
theorem closed_teardown (now : Nat) :
    Closed (teardown l now) ∧ (teardown l now).closings = l.closings + 1 := by
  unfold teardown
  split <;> exact ⟨⟨rfl, rfl, rfl, rfl, rfl, rfl, rfl⟩, rfl⟩

theorem settles_teardownPacket (hopen : Open l) (plaintext : Bytes) :
    Settles l (teardownPacket l plaintext) := by
  unfold teardownPacket
  split
  · exact .refl hopen
  · split
    · exact .refl hopen
    · exact .inr ⟨⟨rfl, rfl, rfl, rfl, rfl, rfl, rfl⟩, rfl⟩

/-- The link is open, and `link_closed` has run `n` times. -/
def OpenAt (n : Nat) (l : Link) : Prop := Open l ∧ l.closings = n

variable {n : Nat}

theorem openAt_updateKeepalive (h : OpenAt n l) : OpenAt n (updateKeepalive l r) := by
  unfold updateKeepalive
  split
  · exact h
  · exact h

theorem openAt_activate (h : l.closings = n) (data : Bytes) : OpenAt n (activate l data r) := by
  unfold activate
  apply openAt_updateKeepalive
  dsimp only
  split
  · exact ⟨⟨nofun, nofun⟩, h⟩
  · exact ⟨⟨nofun, nofun⟩, h⟩

theorem openAt_sendRtt (h : OpenAt n l) : OpenAt n (sendRtt c l r).2 := by
  unfold sendRtt
  split
  · split
    · exact h
    · exact h
  · exact h

theorem openAt_checkSignature (h : OpenAt n l) (data publicKey : Bytes) :
    OpenAt n (checkSignature c data publicKey r l).2 := by
  unfold checkSignature
  split
  · exact h
  · split
    · exact openAt_sendRtt (openAt_activate h.2 data)
    · exact h

theorem openAt_handshake (h : OpenAt n l) : OpenAt n (handshake c l).2 := by
  unfold handshake
  split
  · exact h
  split
  · unfold keyExchange
    split
    · exact ⟨⟨nofun, h.1.2⟩, h.2⟩
    split
    · exact ⟨⟨nofun, h.1.2⟩, h.2⟩
    dsimp only
    split
    · exact ⟨⟨nofun, h.1.2⟩, h.2⟩
    · exact ⟨⟨nofun, h.1.2⟩, h.2⟩
  · exact h

theorem openAt_loadPeer (h : OpenAt n l) (peerPub peerSigPub : Bytes) :
    OpenAt n (loadPeer l peerPub peerSigPub).2 := by
  unfold loadPeer
  split
  · exact h
  split
  · exact h
  · exact h

variable {result : LinkResult}

theorem openAt_andThen {next : Link → LinkResult} (h : OpenAt n result.2)
    (hnext : ∀ l', OpenAt n l' → OpenAt n (next l').2) : OpenAt n (result.andThen next).2 := by
  match result, h with
  | (.ok (), l'), h => exact hnext l' h
  | (.error _, _), h => exact h

/-- No link proof closes a link. -/
theorem openAt_handleProofPacket (h : OpenAt n l) :
    OpenAt n (handleProofPacket c l packet r).2 := by
  unfold handleProofPacket
  split
  · exact h
  split
  · exact h
  split
  · exact h
  split
  · exact h
  split
  · exact h
  · apply openAt_andThen (openAt_loadPeer h _ _)
    intro l₁ h₁
    apply openAt_andThen (openAt_handshake h₁)
    intro l₂ h₂
    exact openAt_checkSignature h₂ _ _

theorem settles_handlePlaintext (hopen : Open l) (context : UInt8) (plaintext : Bytes) :
    Settles l (handlePlaintext c m l context plaintext r).2 := by
  unfold handlePlaintext
  split
  · dsimp only
    split
    · exact .refl hopen
    · exact .inr (closed_teardown r.now)
  split
  · unfold handleLrrttPacket
    split
    · exact .refl hopen
    split
    · exact .refl hopen
    · apply Or.inl
      apply openAt_updateKeepalive
      exact ⟨⟨nofun, nofun⟩, rfl⟩
  split
  · unfold handleRequestPacket
    split <;> exact .refl hopen
  split
  · unfold handleResponsePacket
    split <;> exact .refl hopen
  split
  · unfold handleLinkidentifyPacket
    split
    · exact .refl hopen
    split
    · exact .refl hopen
    split
    · dsimp only
      split <;> exact .inl ⟨hopen, rfl⟩
    · exact .refl hopen
  split
  · exact settles_teardownPacket hopen plaintext
  · exact .refl hopen

theorem settles_dispatch (hopen : Open l) (h : dispatch c m l packet r = some result) :
    Settles l result.2 := by
  unfold dispatch at h
  split at h
  · unfold handleDataPacket at h
    split at h
    · obtain rfl := Option.some.inj h
      exact .refl hopen
    split at h
    · obtain rfl := Option.some.inj h
      unfold pong
      dsimp only
      split <;> exact .inl ⟨hopen, rfl⟩
    split at h
    · cases h
    · obtain rfl := Option.some.inj h
      exact .refl hopen
    · obtain rfl := Option.some.inj h
      exact settles_handlePlaintext hopen _ _
  · obtain rfl := Option.some.inj h
    exact .inl (openAt_handleProofPacket ⟨hopen, rfl⟩)
  · obtain rfl := Option.some.inj h
    exact .refl hopen

theorem openAt_heard (hopen : Open l) (now : Nat) : OpenAt l.closings (heard l now) := by
  rcases heard_cases (l := l) now with h | ⟨-, h⟩
  · rw [h]
    exact ⟨hopen, rfl⟩
  · rw [h]
    exact ⟨⟨nofun, nofun⟩, rfl⟩

theorem settles_release (h : Settles l result.2) : Settles l (release result).2 := by
  match result, h with
  | (.ok (), _), h => exact h
  | (.error _, _), h => exact h

/-- A packet settles an open link. -/
theorem settles_receive (hopen : Open l) (h : receive c m l packet r = some result) :
    Settles l result.2 := by
  unfold receive at h
  rw [if_neg hopen.1] at h
  obtain ⟨handled, hdispatch, rfl⟩ := Option.map_eq_some_iff.mp h
  obtain ⟨hheard, hclosings⟩ := openAt_heard hopen r.now
  apply settles_release
  have hsettles := settles_dispatch hheard hdispatch
  unfold Settles at hsettles
  rw [hclosings] at hsettles
  exact hsettles

/-- A packet does nothing to a closed link. -/
theorem receive_closed (hclosed : l.state = .closed) (h : receive c m l packet r = some result) :
    result.2 = { l with watchdogLock := false } := by
  unfold receive at h
  rw [if_pos hclosed] at h
  obtain rfl := Option.some.inj h
  rfl

theorem openAt_sendKeepalive (h : OpenAt n l) (now : Nat) : OpenAt n (sendKeepalive l now) := by
  unfold sendKeepalive
  split
  · exact h
  · exact h

/-- The watchdog settles an open link. -/
theorem settles_watchdog (hopen : Open l) : Settles l (watchdog l r) := by
  unfold watchdog
  split
  · exact .refl hopen
  unfold actorWatchdogTick
  split
  · split
    · exact .inr (closed_teardown r.now)
    · exact .refl hopen
  · split
    · exact .inr (closed_teardown r.now)
    · exact .refl hopen
  · split
    · split
      · exact .inl ⟨⟨nofun, nofun⟩, (openAt_sendKeepalive ⟨hopen, rfl⟩ r.now).2⟩
      · exact .inl (openAt_sendKeepalive ⟨hopen, rfl⟩ r.now)
    · exact .refl hopen
  · split
    · exact .inr (closed_teardown r.now)
    · exact .refl hopen
  · exact .refl hopen

/-! ## The closing of an endpoint -/

/-- A link that is closed says so in both of its fields and to its handles, has
no key material left, and has told the application at most once. -/
structure Reported (e : Endpoint) : Prop where
  fields : e.link.state = .closed ↔ e.link.status = .closed
  published : e.link.state = .closed ↔ e.statusAtomic = .closed
  erased : e.link.state = .closed → Closed e.link ∧ e.sigPrvBytes = none ∧ e.token = none
  once : e.closedRuns ≤ 1

/-- A closed link is told to tear down only when nothing will be told to the
application again, and is initiated only by a responder, which refuses. -/
def ClosesOnce (e : Endpoint) : LinkMsg (Packet × Readings) EndpointMsg → Prop
  | .teardown => e.link.state = .closed → e.linkClosedCallback = true → e.closedRuns = 0
  | .other (.initiate _) => e.link.state = .closed → e.link.initiator = false
  | _ => True

/-- The endpoint is open and has told nothing, or is closed for good. -/
def Phased (e : Endpoint) : Prop :=
  Open e.link ∧ e.statusAtomic = e.link.status ∧ e.closedRuns = 0 ∨
    Closed e.link ∧ e.statusAtomic = .closed ∧ e.sigPrvBytes = none ∧ e.token = none ∧
      e.closedRuns ≤ 1

variable {e e' : Endpoint}

theorem Phased.reported (h : Phased e) : Reported e := by
  rcases h with ⟨hopen, hpublished, hruns⟩ | ⟨hclosed, hpublished, hkey, htoken, hruns⟩
  · constructor
    · exact iff_of_false hopen.1 hopen.2
    · rw [hpublished]
      exact iff_of_false hopen.1 hopen.2
    · exact fun hstate => absurd hstate hopen.1
    · omega
  · constructor
    · exact iff_of_true hclosed.1 hclosed.2.1
    · exact iff_of_true hclosed.1 hpublished
    · exact fun _ => ⟨hclosed, hkey, htoken⟩
    · exact hruns

theorem Phased.open_of_ne (h : Phased e) (hstate : e.link.state ≠ .closed) :
    Open e.link ∧ e.statusAtomic = e.link.status ∧ e.closedRuns = 0 := by
  rcases h with h | ⟨hclosed, -⟩
  · exact h
  · exact absurd hclosed.1 hstate

theorem Phased.closed_of_eq (h : Phased e) (hstate : e.link.state = .closed) :
    Closed e.link ∧ e.statusAtomic = .closed ∧ e.sigPrvBytes = none ∧ e.token = none ∧
      e.closedRuns ≤ 1 := by
  rcases h with ⟨hopen, -⟩ | h
  · exact absurd hstate hopen.1
  · exact h

/-- One `link_closed` on an endpoint that has told nothing tells once. -/
theorem phased_after_closed {link : Link} (hruns : e.linkClosedCallback = true → e.closedRuns = 0)
    (hatMost : e.closedRuns ≤ 1) (hclosed : Closed link)
    (hclosings : link.closings = e.link.closings + 1) : Phased (e.after link).publish := by
  have hran : link.closings - e.link.closings = 1 := by omega
  right
  refine ⟨hclosed, hclosed.2.1, ?_, ?_, ?_⟩
  · simp [Endpoint.after, Endpoint.publish, hran]
  · simp [Endpoint.after, Endpoint.publish, hran]
  · by_cases hcallback : e.linkClosedCallback = true
    · simp [Endpoint.after, Endpoint.publish, hran, hcallback, hruns hcallback]
    · simpa [Endpoint.after, Endpoint.publish, hcallback] using hatMost

theorem phased_after_settles {link : Link} (hruns : e.closedRuns = 0)
    (hsettles : Settles e.link link) : Phased (e.after link).publish := by
  rcases hsettles with ⟨hopen, hclosings⟩ | ⟨hclosed, hclosings⟩
  · left
    refine ⟨hopen, rfl, ?_⟩
    simp [Endpoint.after, Endpoint.publish, hclosings, hruns]
  · exact phased_after_closed (fun _ => hruns) (by omega) hclosed hclosings

theorem phased_receive {packet : Packet × Readings} (h : Phased e)
    (hstep : (endpointOps c m).receive e packet = some e') : Phased e' := by
  obtain ⟨result, hresult, rfl⟩ := Option.map_eq_some_iff.mp hstep
  by_cases hstate : e.link.state = .closed
  · obtain ⟨hclosed, -, hkey, htoken, hruns⟩ := h.closed_of_eq hstate
    rw [receive_closed hstate hresult]
    right
    refine ⟨hclosed, hclosed.2.1, ?_, ?_, ?_⟩
    · simpa [Endpoint.after, Endpoint.publish] using hkey
    · simpa [Endpoint.after, Endpoint.publish] using htoken
    · simpa [Endpoint.after, Endpoint.publish] using hruns
  · obtain ⟨hopen, -, hruns⟩ := h.open_of_ne hstate
    exact phased_after_settles hruns (settles_receive hopen hresult)

theorem phased_teardown {r : Readings} (h : Phased e) (hok : ClosesOnce e .teardown) :
    Phased ((endpointOps c m).teardown e r) := by
  obtain ⟨hclosed, hclosings⟩ := closed_teardown (l := e.link) r.now
  have hreported := h.reported
  refine phased_after_closed (fun hcallback => ?_) hreported.once hclosed hclosings
  by_cases hstate : e.link.state = .closed
  · exact hok hstate hcallback
  · exact (h.open_of_ne hstate).2.2

theorem phased_watchdog {r : Readings} (h : Phased e) (hstate : e.link.state ≠ .closed) :
    Phased ((endpointOps c m).watchdog e r) := by
  obtain ⟨hopen, -, hruns⟩ := h.open_of_ne hstate
  exact phased_after_settles hruns (settles_watchdog hopen)

/-- Initiating a link changes neither of its states, nor what was told. -/
theorem initiate_frame (k : Initiation) :
    (e.initiate c k).link.state = e.link.state ∧ (e.initiate c k).link.status = e.link.status ∧
      (e.initiate c k).statusAtomic = e.statusAtomic ∧
      (e.initiate c k).closedRuns = e.closedRuns := by
  unfold Endpoint.initiate
  split
  · exact ⟨rfl, rfl, rfl, rfl⟩
  · rename_i hinitiator
    dsimp only
    split
    · exact ⟨rfl, rfl, rfl, rfl⟩
    · unfold initiatePrepare
      rw [if_neg hinitiator]
      dsimp only
      cases signallingBytes defaultMtu e.link.mode with
      | error _ => exact ⟨rfl, rfl, rfl, rfl⟩
      | ok bytes =>
          dsimp only
          split <;> exact ⟨rfl, rfl, rfl, rfl⟩

/-- An initiator that is initiated has a signing key. -/
theorem sigPrvBytes_initiate (k : Initiation) (hinitiator : e.link.initiator = true) :
    (e.initiate c k).sigPrvBytes = some k.sigPrv.1 := by
  unfold Endpoint.initiate
  rw [if_neg (not_not.mpr hinitiator)]

theorem state_handle (message : EndpointMsg) : (e.handle c message).link.state = e.link.state := by
  cases message with
  | initiate k => exact (initiate_frame k).1
  | setLinkClosedCallback set => rfl
  | identify sent now =>
      unfold Endpoint.handle
      dsimp only
      split <;> rfl
  | sendResponse sent now =>
      unfold Endpoint.handle
      dsimp only
      split <;> rfl
  | other => rfl

theorem phased_handle {message : EndpointMsg} (h : Phased e) (hok : ClosesOnce e (.other message)) :
    Phased (e.handle c message) := by
  cases message with
  | initiate k =>
      by_cases hstate : e.link.state = .closed
      · have hrefused : e.handle c (.initiate k) = e := by
          unfold Endpoint.handle Endpoint.initiate
          exact if_pos (by simp [hok hstate])
        rw [hrefused]
        exact h
      · obtain ⟨hopen, hpublished, hruns⟩ := h.open_of_ne hstate
        obtain ⟨hstate', hstatus', hpublished', hruns'⟩ := initiate_frame (c := c) (e := e) k
        left
        refine ⟨⟨?_, ?_⟩, ?_, ?_⟩
        · exact hstate' ▸ hopen.1
        · exact hstatus' ▸ hopen.2
        · exact hpublished'.trans (hpublished.trans hstatus'.symm)
        · exact hruns'.trans hruns
  | setLinkClosedCallback set => exact h
  | identify sent now =>
      unfold Endpoint.handle
      dsimp only
      split
      · exact h
      · exact h
  | sendResponse sent now =>
      unfold Endpoint.handle
      dsimp only
      split
      · exact h
      · exact h
  | other => exact h

/-! ## Runs of the actor -/

abbrev EndpointActor := Actor Endpoint (Packet × Readings) EndpointMsg

abbrev EndpointEvent := ActorEvent (Packet × Readings) EndpointMsg Readings

variable {a b : EndpointActor}

/-- The message that a step handles closes the link once. -/
def HandlesOnce (a : EndpointActor) (e : EndpointEvent) : Prop :=
  ∀ message, handled a e = some message → ClosesOnce a.link message

/-- Once a run has closed the link, the link stays closed. -/
def ClosedForGood (c : Crypto) (m : Msgpack) (a : EndpointActor) (es : List EndpointEvent) : Prop :=
  ∀ done rest a₁ a₂, done ++ rest <+: es → exec (actorStep (endpointOps c m)) a done = some a₁ →
    a₁.link.link.state = .closed → exec (actorStep (endpointOps c m)) a₁ rest = some a₂ →
    a₂.link.link.state = .closed

variable {event : EndpointEvent}

theorem closed_step (h : a.link.link.state = .closed)
    (hstep : actorStep (endpointOps c m) a event = some b) : b.link.link.state = .closed := by
  refine link_step (fun e => e.link.state = .closed) (fun _ _ => True) ?_ ?_ ?_ ?_ h
    (fun _ _ => True.intro) hstep
  · intro e e' packet hclosed _ hreceive
    obtain ⟨result, hresult, rfl⟩ := Option.map_eq_some_iff.mp hreceive
    show result.2.state = .closed
    rw [receive_closed hclosed hresult]
    exact hclosed
  · intro e clock _ _
    exact (closed_teardown clock.now).1.1
  · intro e e' message hclosed _ hhandle
    obtain rfl := Option.some.inj hhandle
    exact (state_handle message).trans hclosed
  · intro e clock hclosed hopen
    exact absurd hclosed hopen

theorem closedForGood (a : EndpointActor) (es : List EndpointEvent) : ClosedForGood c m a es :=
  fun _ _ _ _ _ _ hclosed hrest => invariant_of_step
    (P := fun a : EndpointActor => a.link.link.state = .closed)
    (fun _ _ _ h hstep => closed_step h hstep) hclosed hrest

theorem phased_step (h : Phased a.link) (hok : HandlesOnce a event)
    (hstep : actorStep (endpointOps c m) a event = some b) : Phased b.link := by
  refine link_step Phased ClosesOnce ?_ ?_ ?_ ?_ h hok hstep
  · intro e e' packet he _ hreceive
    exact phased_receive he hreceive
  · intro e clock he hclosesOnce
    exact phased_teardown he hclosesOnce
  · intro e e' message he hclosesOnce hhandle
    obtain rfl := Option.some.inj hhandle
    exact phased_handle he hclosesOnce
  · intro e clock he hopen
    exact phased_watchdog he hopen

/-- A second teardown of a closed link tells the application again. -/
theorem not_reported_of_teardown {r : Readings} (hcallback : e.linkClosedCallback = true)
    (hruns : e.closedRuns ≠ 0) : ¬ Reported ((endpointOps c m).teardown e r) := by
  intro hreported
  have honce := hreported.once
  obtain ⟨-, hclosings⟩ := closed_teardown (l := e.link) r.now
  simp only [endpointOps, Endpoint.after, Endpoint.publish, hcallback, hclosings, if_true] at honce
  omega

theorem not_reported_of_break (hbreak : ¬ HandlesOnce a event)
    (hstep : actorStep (endpointOps c m) a event = some b) : ¬ Reported b.link := by
  unfold HandlesOnce at hbreak
  push Not at hbreak
  obtain ⟨message, hhandled, hnot⟩ := hbreak
  cases message with
  | receive packet => exact absurd True.intro hnot
  | teardown =>
      unfold ClosesOnce at hnot
      push Not at hnot
      obtain ⟨-, hcallback, hruns⟩ := hnot
      obtain ⟨clock, hlink⟩ := link_of_handled_teardown hhandled hstep
      rw [hlink]
      exact not_reported_of_teardown hcallback hruns
  | setLinkEstablishedCallback set => exact absurd True.intro hnot
  | other message =>
      cases message with
      | initiate k =>
          unfold ClosesOnce at hnot
          push Not at hnot
          obtain ⟨hstate, hinitiator⟩ := hnot
          obtain ⟨link, hhandle, hlink⟩ := link_of_handled_other hhandled hstep
          obtain rfl := Option.some.inj hhandle
          have hclosed : (a.link.handle c (.initiate k)).link.state = .closed :=
            (state_handle _).trans hstate
          rcases hlink with hlink | ⟨hopen, -⟩
          · intro hreported
            rw [hlink] at hreported
            have hkey := (hreported.erased hclosed).2.1
            have hset : (a.link.handle c (.initiate k)).sigPrvBytes = some k.sigPrv.1 :=
              sigPrvBytes_initiate k (by simpa using hinitiator)
            rw [hset] at hkey
            cases hkey
          · exact absurd hclosed hopen
      | setLinkClosedCallback set => exact absurd True.intro hnot
      | identify sent now => exact absurd True.intro hnot
      | sendResponse sent now => exact absurd True.intro hnot
      | other => exact absurd True.intro hnot

/-- The actor of a link that has not been closed starts. -/
def Starts (a : EndpointActor) : Prop :=
  Open a.link.link ∧ a.link.statusAtomic = a.link.link.status ∧ a.link.closedRuns = 0

/-- A run closes its link for good, erases its keys and tells the application
once, exactly when no step tears down a closed link whose callback has run, or
initiates one. -/
theorem closedOnce_iff_meets (hstarts : Starts a) (es : List EndpointEvent) :
    (Always (actorStep (endpointOps c m)) (fun a => Reported a.link) a es ∧
      ClosedForGood c m a es) ↔
      Meets (actorStep (endpointOps c m)) HandlesOnce a es := by
  rw [and_iff_left (closedForGood a es)]
  have hphased : Phased a.link := .inl hstarts
  refine always_iff_meets (I := fun a : EndpointActor => Phased a.link) ?_ ?_ ?_ hphased es
  · intro a h
    exact h.reported
  · intro a event b h hok hstep
    exact phased_step h hok hstep
  · intro a event b _ hbreak hstep
    exact not_reported_of_break hbreak hstep

/-- The initiator's endpoint, waiting for a proof. -/
def sampleEndpoint : EndpointActor :=
  .start
    { link := sampleInitiator [sampleSigned], sigPrvBytes := some (pad 32 [5]).1, token := none
      linkClosedCallback := true, statusAtomic := .pending, closedRuns := 0 }
    true

/-- What a second initiation draws. -/
def sampleInitiation : Initiation :=
  { prv := pad 32 [6], sigPrv := pad 32 [7], sigPub := pad 32 [8], destType := 0
    destHash := pad 16 [9], sent := true, now := 3 }

/-- A teardown while the callback of the establishment runs closes the link. -/
theorem closedOnce_of_one_teardown :
    Starts sampleEndpoint ∧
    Always (actorStep (endpointOps (sampleCrypto [sampleSigned]) sampleMsgpack))
      (fun a => Reported a.link) sampleEndpoint
      [.send (.receive sampleGenuine), .recv sampleReadings, .send .teardown,
        .service sampleReadings, .finish, .resume sampleReadings] := by
  have hstarts : Starts sampleEndpoint := ⟨⟨by decide, by decide⟩, rfl, rfl⟩
  refine ⟨hstarts, ((closedOnce_iff_meets hstarts _).mpr ?_).1⟩
  rintro _ ⟨⟩
  refine ⟨nofun, ?_⟩
  rintro _ ⟨⟩
  refine ⟨?_, ?_⟩
  · rintro _ ⟨⟩
    exact True.intro
  rintro _ ⟨⟩
  refine ⟨nofun, ?_⟩
  rintro _ ⟨⟩
  refine ⟨?_, ?_⟩
  · rintro _ ⟨⟩
    exact nofun
  rintro _ ⟨⟩
  refine ⟨nofun, ?_⟩
  rintro _ ⟨⟩
  exact ⟨nofun, True.intro⟩

/-- Two holders tear the link down while the callback of the establishment
runs, and the application is told twice. Or one tears it down and another
initiates it: the closed link has keys again. -/
theorem closedOnce_false :
    (∃ a, exec (actorStep (endpointOps (sampleCrypto [sampleSigned]) sampleMsgpack)) sampleEndpoint
        [.send (.receive sampleGenuine), .recv sampleReadings, .send .teardown, .send .teardown,
          .service sampleReadings, .service sampleReadings] = some a ∧
      a.link.link.state = .closed ∧ a.link.closedRuns = 2 ∧ ¬ Reported a.link) ∧
    ∃ a, exec (actorStep (endpointOps (sampleCrypto [sampleSigned]) sampleMsgpack)) sampleEndpoint
        [.send (.receive sampleGenuine), .recv sampleReadings, .send .teardown,
          .send (.other (.initiate sampleInitiation)), .service sampleReadings,
          .service sampleReadings] = some a ∧
      a.link.link.state = .closed ∧ a.link.link.prvBytes = some (pad 32 [6]).1 ∧
      ¬ Reported a.link := by
  refine ⟨⟨_, rfl, rfl, rfl, ?_⟩, _, rfl, rfl, rfl, ?_⟩
  · intro hreported
    exact absurd hreported.once (by decide)
  · intro hreported
    exact nomatch (hreported.erased rfl).1.2.2.1

end Reticulum.Link
