import Reticulum.Lib.Runs
import Reticulum.Link.Rejection
import Reticulum.Link.Watchdog

/-!
# The actor of a link

`link_actor` owns the link and handles the messages of its mailbox one after
the other. A `Receive` that establishes the link starts the application's
`link_established` callback, and until it has finished the actor services its
own mailbox: packets that arrive are deferred, all other messages are handled.
The deferred packets are then sent to the mailbox again. `inOrder_of_quiet`
says when the packets keep their order.

## Implementation notes

The actor is generic in the link it owns (`LinkOps`). A run interleaves the
steps of the actor with those of any number of senders. The phase after the
callback sends one deferred packet at a time, so that senders may come between.
`enqueued` and `received` record the packets in the order of their `Receive`
messages and of the calls of `Link::receive`.
-/

namespace Reticulum.Link

open Runs

/-- What the actor asks of its link: packets `P`, other messages `M`, clock
readings `T`. A call that panics has no result. -/
structure LinkOps (L P M T : Type*) where
  receive : L → P → Option L
  teardown : L → T → L
  handle : L → M → Option L
  state : L → LinkState
  /-- the watchdog and the request timeouts, after every message -/
  watchdog : L → T → L

/-- The messages of the actor. -/
inductive LinkMsg (P M : Type*)
  | receive (packet : P)
  | teardown
  | setLinkEstablishedCallback (set : Bool)
  | other (message : M)
  deriving DecidableEq

/-- Where the actor's thread is. -/
inductive Phase (P : Type*)
  /-- `recv_timeout` of the actor's loop -/
  | idle
  /-- `service_mailbox_until_finished`, with the packets deferred so far -/
  | servicing (deferred : List P)
  /-- the callback is over; these packets are still to be sent again -/
  | puttingBack (rest : List P)
  | exited
  deriving DecidableEq

/-- The actor and its mailbox. -/
structure Actor (L P M : Type*) where
  link : L
  linkEstablished : Bool
  mailbox : List (LinkMsg P M)
  phase : Phase P
  enqueued : List P
  received : List P

/-- A step of a sender or of the actor. -/
inductive ActorEvent (P M T : Type*)
  | send (message : LinkMsg P M)
  | recv (clock : T)
  | timeout (clock : T)
  | service (clock : T)
  | finish
  | putBack
  | resume (clock : T)

variable {L P M T : Type*} (ops : LinkOps L P M T)

/-- The end of an iteration of the loop: a closed link ends the actor. -/
def endIteration (a : Actor L P M) (clock : T) : Actor L P M :=
  if ops.state a.link = .closed then { a with phase := .exited, mailbox := [] }
  else { a with phase := .idle, link := ops.watchdog a.link clock }

/-- `actor_handle_message` for a message that is no packet. -/
def handleMessage (a : Actor L P M) (clock : T) : LinkMsg P M → Option (Actor L P M)
  | .receive _ => none
  | .teardown => some { a with link := ops.teardown a.link clock }
  | .setLinkEstablishedCallback set => some { a with linkEstablished := set }
  | .other message => (ops.handle a.link message).map fun link => { a with link := link }

/-- The link is still being established. -/
def establishing (state : LinkState) : Bool := state = .pending ∨ state = .handshake

/-- `actor_handle_message` for a packet. The callback is started once, when the
packet has established the link. -/
def handleReceive (a : Actor L P M) (clock : T) (packet : P) : Option (Actor L P M) :=
  (ops.receive a.link packet).map fun link =>
    let b := { a with link := link, received := a.received ++ [packet] }
    if establishing (ops.state a.link) ∧ ops.state link = .active ∧ a.linkEstablished then
      { b with linkEstablished := false, phase := .servicing [] }
    else endIteration ops b clock

/-- One step. -/
def actorStep (a : Actor L P M) : ActorEvent P M T → Option (Actor L P M)
  | .send message =>
      match a.phase with
      | .exited => none
      | _ => some { a with
          mailbox := a.mailbox ++ [message]
          enqueued := a.enqueued ++ (match message with | .receive packet => [packet] | _ => []) }
  | .recv clock =>
      match a.phase, a.mailbox with
      | .idle, .receive packet :: rest => handleReceive ops { a with mailbox := rest } clock packet
      | .idle, .teardown :: _ =>
          some { a with mailbox := [], phase := .exited, link := ops.teardown a.link clock }
      | .idle, message :: rest =>
          (handleMessage ops { a with mailbox := rest } clock message).map
            fun a => endIteration ops a clock
      | _, _ => none
  | .timeout clock =>
      match a.phase, a.mailbox with
      | .idle, [] => some (endIteration ops a clock)
      | _, _ => none
  | .service clock =>
      match a.phase, a.mailbox with
      | .servicing deferred, .receive packet :: rest =>
          some { a with mailbox := rest, phase := .servicing (deferred ++ [packet]) }
      | .servicing _, message :: rest => handleMessage ops { a with mailbox := rest } clock message
      | _, _ => none
  | .finish =>
      match a.phase with
      | .servicing deferred => some { a with phase := .puttingBack deferred }
      | _ => none
  | .putBack =>
      match a.phase with
      | .puttingBack (packet :: rest) => some { a with
          mailbox := a.mailbox ++ [.receive packet], phase := .puttingBack rest }
      | _ => none
  | .resume clock =>
      match a.phase with
      | .puttingBack [] => some (endIteration ops a clock)
      | _ => none

/-- The packets in a mailbox. -/
def packets : List (LinkMsg P M) → List P
  | [] => []
  | .receive packet :: rest => packet :: packets rest
  | _ :: rest => packets rest

/-- The packets that wait, in the order in which the actor will come to
them. -/
def outstanding (a : Actor L P M) : List P :=
  match a.phase with
  | .idle => packets a.mailbox
  | .servicing deferred => deferred ++ packets a.mailbox
  | .puttingBack rest => packets a.mailbox ++ rest
  | .exited => []

/-- The packets are received in the order in which they were enqueued, and as
long as the actor runs none of them is lost. -/
def InOrder (a : Actor L P M) : Prop :=
  a.received <+: a.enqueued ∧ (a.phase ≠ .exited → a.received ++ outstanding a = a.enqueued)

/-- The callback ends with packets deferred only when no other packet is in the
mailbox, and no packet is enqueued before the deferred ones are back. -/
def Quiet (a : Actor L P M) : ActorEvent P M T → Prop
  | .finish => ∀ deferred, a.phase = .servicing deferred →
      deferred = [] ∨ packets a.mailbox = []
  | .send (.receive _) => ∀ rest, a.phase = .puttingBack rest → rest = []
  | _ => True

/-- An actor whose loop starts: no packet has arrived. -/
def Actor.start (link : L) (linkEstablished : Bool) : Actor L P M :=
  { link := link, linkEstablished := linkEstablished, mailbox := [], phase := .idle
    enqueued := [], received := [] }

/-! ## The order is kept -/

theorem packets_append (xs ys : List (LinkMsg P M)) :
    packets (xs ++ ys) = packets xs ++ packets ys := by
  induction xs with
  | nil => rfl
  | cons x xs ih => cases x <;> simp [packets, ih]

variable {ops} {a b : Actor L P M} {clock : T}

/-- An iteration that ends keeps the order if the packets left are those of the
mailbox. -/
theorem inOrder_endIteration (h : a.received ++ packets a.mailbox = a.enqueued) :
    InOrder (endIteration ops a clock) := by
  have hordered : a.received <+: a.enqueued := ⟨_, h⟩
  unfold endIteration
  split
  · exact ⟨hordered, fun hphase => absurd rfl hphase⟩
  · exact ⟨hordered, fun _ => h⟩

variable {e : ActorEvent P M T} {message : LinkMsg P M}

theorem handleMessage_fields (h : handleMessage ops a clock message = some b) :
    b.received = a.received ∧ b.enqueued = a.enqueued ∧ b.mailbox = a.mailbox ∧
      b.phase = a.phase ∧ ∀ packet, message ≠ .receive packet := by
  cases message with
  | receive packet => cases h
  | teardown =>
      obtain rfl := Option.some.inj h
      exact ⟨rfl, rfl, rfl, rfl, fun _ => nofun⟩
  | setLinkEstablishedCallback set =>
      obtain rfl := Option.some.inj h
      exact ⟨rfl, rfl, rfl, rfl, fun _ => nofun⟩
  | other message =>
      obtain ⟨link, -, rfl⟩ := Option.map_eq_some_iff.mp h
      exact ⟨rfl, rfl, rfl, rfl, fun _ => nofun⟩

theorem packets_cons_of_ne {rest : List (LinkMsg P M)} (h : ∀ packet, message ≠ .receive packet) :
    packets (message :: rest) = packets rest := by
  cases message with
  | receive packet => exact (h packet rfl).elim
  | teardown => rfl
  | setLinkEstablishedCallback set => rfl
  | other message => rfl

theorem inOrder_handleReceive {packet : P}
    (h : a.received ++ packet :: packets a.mailbox = a.enqueued)
    (hstep : handleReceive ops a clock packet = some b) : InOrder b := by
  obtain ⟨link, -, rfl⟩ := Option.map_eq_some_iff.mp hstep
  have h' : (a.received ++ [packet]) ++ packets a.mailbox = a.enqueued := by
    rw [List.append_assoc]
    exact h
  dsimp only
  split
  · exact ⟨⟨_, h'⟩, fun _ => h'⟩
  · exact inOrder_endIteration h'

/-- A message that is no packet moves no packet. -/
theorem inOrder_handleMessage {rest : List (LinkMsg P M)} (h : InOrder a)
    (hmailbox : a.mailbox = message :: rest) (hphase : a.phase ≠ .exited)
    (hstep : handleMessage ops { a with mailbox := rest } clock message = some b) : InOrder b := by
  obtain ⟨hreceived, henqueued, hrest, hsame, hmessage⟩ := handleMessage_fields hstep
  have houtstanding : outstanding b = outstanding a := by
    simp only [outstanding, hsame, hrest, hmailbox, packets_cons_of_ne hmessage]
  refine ⟨by rw [hreceived, henqueued]; exact h.1, fun _ => ?_⟩
  rw [houtstanding, hreceived, henqueued]
  exact h.2 hphase

/-- A quiet step keeps the order. -/
theorem inOrder_step (h : InOrder a) (hquiet : Quiet a e) (hstep : actorStep ops a e = some b) :
    InOrder b := by
  cases e with
  | send message =>
      simp only [actorStep] at hstep
      split at hstep
      · cases hstep
      · rename_i hphase
        obtain rfl := Option.some.inj hstep
        have hkeep := h.2 hphase
        refine ⟨h.1.trans (List.prefix_append _ _), fun _ => ?_⟩
        cases message with
        | receive packet =>
            dsimp only
            rw [← hkeep, List.append_assoc]
            congr 1
            cases hp : a.phase with
            | idle => simp [outstanding, hp, packets_append, packets]
            | servicing deferred => simp [outstanding, hp, packets_append, packets]
            | puttingBack rest =>
                obtain rfl := hquiet rest hp
                simp [outstanding, hp, packets_append, packets]
            | exited => exact (hphase hp).elim
        | teardown => simpa [outstanding, packets_append, packets] using hkeep
        | setLinkEstablishedCallback set => simpa [outstanding, packets_append, packets] using hkeep
        | other message => simpa [outstanding, packets_append, packets] using hkeep
  | recv clock =>
      simp only [actorStep] at hstep
      split at hstep
      · rename_i packet rest hphase hmailbox
        have hkeep := h.2 (by simp [hphase])
        simp only [outstanding, hphase, hmailbox, packets] at hkeep
        exact inOrder_handleReceive hkeep hstep
      · rename_i hphase hmailbox
        obtain rfl := Option.some.inj hstep
        exact ⟨h.1, fun hphase' => absurd rfl hphase'⟩
      · rename_i message rest _ _ hphase hmailbox
        obtain ⟨a', ha', rfl⟩ := Option.map_eq_some_iff.mp hstep
        have ha : InOrder a' := inOrder_handleMessage h hmailbox (by simp [hphase]) ha'
        have hphase' : a'.phase = .idle := (handleMessage_fields ha').2.2.2.1.trans hphase
        apply inOrder_endIteration
        have hkeep := ha.2 (by simp [hphase'])
        simpa [outstanding, hphase'] using hkeep
      · cases hstep
  | timeout clock =>
      simp only [actorStep] at hstep
      split at hstep
      · rename_i hphase hmailbox
        obtain rfl := Option.some.inj hstep
        apply inOrder_endIteration
        have hkeep := h.2 (by simp [hphase])
        simpa [outstanding, hphase] using hkeep
      · cases hstep
  | service clock =>
      simp only [actorStep] at hstep
      split at hstep
      · rename_i deferred packet rest hphase hmailbox
        obtain rfl := Option.some.inj hstep
        have hkeep := h.2 (by simp [hphase])
        refine ⟨h.1, fun _ => ?_⟩
        simpa [outstanding, hphase, hmailbox, packets] using hkeep
      · rename_i message rest _ hphase hmailbox
        exact inOrder_handleMessage h hmailbox (by simp [hphase]) hstep
      · cases hstep
  | finish =>
      simp only [actorStep] at hstep
      split at hstep
      · rename_i deferred hphase
        obtain rfl := Option.some.inj hstep
        have hkeep := h.2 (by simp [hphase])
        refine ⟨h.1, fun _ => ?_⟩
        rcases hquiet deferred hphase with rfl | hnone
        · simpa [outstanding, hphase] using hkeep
        · simpa [outstanding, hphase, hnone] using hkeep
      · cases hstep
  | putBack =>
      simp only [actorStep] at hstep
      split at hstep
      · rename_i packet rest hphase
        obtain rfl := Option.some.inj hstep
        have hkeep := h.2 (by simp [hphase])
        refine ⟨h.1, fun _ => ?_⟩
        simpa [outstanding, hphase, packets_append, packets] using hkeep
      · cases hstep
  | resume clock =>
      simp only [actorStep] at hstep
      split at hstep
      · rename_i hphase
        obtain rfl := Option.some.inj hstep
        apply inOrder_endIteration
        have hkeep := h.2 (by simp [hphase])
        simpa [outstanding, hphase] using hkeep
      · cases hstep

/-- In every quiet run, packets are received in the order in which they were
enqueued, and none is lost while the actor runs. -/
theorem inOrder_of_quiet {link : L} {linkEstablished : Bool} {es : List (ActorEvent P M T)}
    (hquiet : Meets (actorStep ops) Quiet (Actor.start link linkEstablished) es)
    (hrun : exec (actorStep ops) (Actor.start link linkEstablished) es = some a) : InOrder a := by
  apply invariant (fun _ _ _ h hok hstep => inOrder_step h hok hstep) _ hquiet hrun
  exact ⟨List.prefix_refl [], fun _ => rfl⟩

/-! ## Invariants of the link -/

/-- The message that a step handles. A packet that is deferred is not
handled. -/
def handled (a : Actor L P M) : ActorEvent P M T → Option (LinkMsg P M)
  | .recv _ =>
      match a.phase with
      | .idle => a.mailbox.head?
      | _ => none
  | .service _ =>
      match a.phase, a.mailbox with
      | .servicing _, .receive _ :: _ => none
      | .servicing _, message :: _ => some message
      | _, _ => none
  | _ => none

/-- Only the loop handles packets. -/
theorem handled_receive {packet : P} (h : handled a e = some (.receive packet)) :
    (∃ clock, e = .recv clock) ∧ a.phase = .idle ∧ ∃ rest, a.mailbox = .receive packet :: rest := by
  cases e with
  | recv clock =>
      simp only [handled] at h
      split at h
      · rename_i hphase
        exact ⟨⟨clock, rfl⟩, hphase, List.head?_eq_some_iff.mp h⟩
      · cases h
  | service clock =>
      simp only [handled] at h
      split at h
      · cases h
      · rename_i hpacket _ _
        exact (hpacket packet (Option.some.inj h)).elim
      · cases h
  | _ => cases h

section LinkInvariant

variable {J : L → Prop} {ok : L → LinkMsg P M → Prop}

theorem link_handleMessage (hteardown : ∀ l clock, J l → ok l .teardown → J (ops.teardown l clock))
    (hhandle : ∀ l l' message, J l → ok l (.other message) → ops.handle l message = some l' → J l')
    (h : J a.link) (hok : ok a.link message) (hstep : handleMessage ops a clock message = some b) :
    J b.link := by
  cases message with
  | receive packet => cases hstep
  | teardown =>
      obtain rfl := Option.some.inj hstep
      exact hteardown _ _ h hok
  | setLinkEstablishedCallback set =>
      obtain rfl := Option.some.inj hstep
      exact h
  | other message =>
      obtain ⟨link, hlink, rfl⟩ := Option.map_eq_some_iff.mp hstep
      exact hhandle _ _ _ h hok hlink

theorem link_endIteration
    (hwatchdog : ∀ l clock, J l → ops.state l ≠ .closed → J (ops.watchdog l clock)) (h : J a.link) :
    J (endIteration ops a clock).link := by
  unfold endIteration
  split
  · exact h
  · rename_i hstate
    exact hwatchdog _ _ h hstate

/-- What the operations of the link keep, on messages that meet `ok`, the actor
keeps. -/
theorem link_step (J : L → Prop) (ok : L → LinkMsg P M → Prop)
    (hreceive : ∀ l l' packet, J l → ok l (.receive packet) → ops.receive l packet = some l' → J l')
    (hteardown : ∀ l clock, J l → ok l .teardown → J (ops.teardown l clock))
    (hhandle : ∀ l l' message, J l → ok l (.other message) → ops.handle l message = some l' → J l')
    (hwatchdog : ∀ l clock, J l → ops.state l ≠ .closed → J (ops.watchdog l clock)) (h : J a.link)
    (hok : ∀ message, handled a e = some message → ok a.link message)
    (hstep : actorStep ops a e = some b) : J b.link := by
  cases e with
  | send message =>
      simp only [actorStep] at hstep
      split at hstep
      · cases hstep
      · obtain rfl := Option.some.inj hstep
        exact h
  | recv clock =>
      simp only [actorStep] at hstep
      split at hstep
      · rename_i packet rest hphase hmailbox
        obtain ⟨link, hlink, rfl⟩ := Option.map_eq_some_iff.mp hstep
        have hlink' : J link := hreceive _ _ _ h (hok _ (by simp [handled, hphase, hmailbox])) hlink
        dsimp only
        split
        · exact hlink'
        · exact link_endIteration hwatchdog hlink'
      · rename_i hphase hmailbox
        obtain rfl := Option.some.inj hstep
        exact hteardown _ _ h (hok _ (by simp [handled, hphase, hmailbox]))
      · rename_i message rest _ _ hphase hmailbox
        obtain ⟨a', ha', rfl⟩ := Option.map_eq_some_iff.mp hstep
        apply link_endIteration hwatchdog
        have hmessage : ok a.link message := hok _ (by simp [handled, hphase, hmailbox])
        exact link_handleMessage (a := { a with mailbox := rest }) hteardown hhandle h hmessage ha'
      · cases hstep
  | timeout clock =>
      simp only [actorStep] at hstep
      split at hstep
      · obtain rfl := Option.some.inj hstep
        exact link_endIteration hwatchdog h
      · cases hstep
  | service clock =>
      simp only [actorStep] at hstep
      split at hstep
      · obtain rfl := Option.some.inj hstep
        exact h
      · rename_i deferred message rest hpacket hphase hmailbox
        have hmessage : ok a.link message := by
          apply hok
          cases message with
          | receive packet => exact (hpacket packet rfl).elim
          | _ => simp [handled, hphase, hmailbox]
        exact link_handleMessage (a := { a with mailbox := rest }) hteardown hhandle h hmessage hstep
      · cases hstep
  | finish =>
      simp only [actorStep] at hstep
      split at hstep
      · obtain rfl := Option.some.inj hstep
        exact h
      · cases hstep
  | putBack =>
      simp only [actorStep] at hstep
      split at hstep
      · obtain rfl := Option.some.inj hstep
        exact h
      · cases hstep
  | resume clock =>
      simp only [actorStep] at hstep
      split at hstep
      · obtain rfl := Option.some.inj hstep
        exact link_endIteration hwatchdog h
      · cases hstep

end LinkInvariant

/-- A step that handles a teardown tears the link down, and nothing else. -/
theorem link_of_handled_teardown (h : handled a e = some .teardown)
    (hstep : actorStep ops a e = some b) : ∃ clock, b.link = ops.teardown a.link clock := by
  cases e with
  | recv clock =>
      simp only [handled] at h
      split at h
      · rename_i hphase
        obtain ⟨rest, hmailbox⟩ := List.head?_eq_some_iff.mp h
        simp only [actorStep, hphase, hmailbox] at hstep
        obtain rfl := Option.some.inj hstep
        exact ⟨clock, rfl⟩
      · cases h
  | service clock =>
      simp only [handled] at h
      split at h
      · cases h
      · rename_i hphase hmailbox
        obtain rfl := Option.some.inj h
        simp only [actorStep, hphase, hmailbox] at hstep
        obtain rfl := Option.some.inj hstep
        exact ⟨clock, rfl⟩
      · cases h
  | _ => cases h

/-- A step that handles another message runs its handler, and then the watchdog
if the loop goes on. -/
theorem link_of_handled_other {message : M} (h : handled a e = some (.other message))
    (hstep : actorStep ops a e = some b) :
    ∃ link, ops.handle a.link message = some link ∧
      (b.link = link ∨ ops.state link ≠ .closed ∧ ∃ clock, b.link = ops.watchdog link clock) := by
  cases e with
  | recv clock =>
      simp only [handled] at h
      split at h
      · rename_i hphase
        obtain ⟨rest, hmailbox⟩ := List.head?_eq_some_iff.mp h
        simp only [actorStep, hphase, hmailbox] at hstep
        obtain ⟨a', ha', rfl⟩ := Option.map_eq_some_iff.mp hstep
        obtain ⟨link, hlink, rfl⟩ := Option.map_eq_some_iff.mp ha'
        refine ⟨link, hlink, ?_⟩
        unfold endIteration
        split
        · exact .inl rfl
        · rename_i hstate
          exact .inr ⟨hstate, clock, rfl⟩
      · cases h
  | service clock =>
      simp only [handled] at h
      split at h
      · cases h
      · rename_i hphase hmailbox
        obtain rfl := Option.some.inj h
        simp only [actorStep, hphase, hmailbox] at hstep
        obtain ⟨link, hlink, rfl⟩ := Option.map_eq_some_iff.mp hstep
        exact ⟨link, hlink, .inl rfl⟩
      · cases h
  | _ => cases h

/-- The actor exits only when its link is closed. -/
def ExitsClosed (ops : LinkOps L P M T) (a : Actor L P M) : Prop :=
  a.phase = .exited → ops.state a.link = .closed

theorem exitsClosed_endIteration : ExitsClosed ops (endIteration ops a clock) := by
  unfold endIteration
  split
  · rename_i hstate
    exact fun _ => hstate
  · intro hphase
    cases hphase

theorem exitsClosed_step (hteardown : ∀ l clock, ops.state (ops.teardown l clock) = .closed)
    (hstep : actorStep ops a e = some b) : ExitsClosed ops b := by
  cases e with
  | send message =>
      simp only [actorStep] at hstep
      split at hstep
      · cases hstep
      · rename_i hphase
        obtain rfl := Option.some.inj hstep
        exact fun hexited => absurd hexited hphase
  | recv clock =>
      simp only [actorStep] at hstep
      split at hstep
      · rename_i packet rest hphase hmailbox
        obtain ⟨link, -, rfl⟩ := Option.map_eq_some_iff.mp hstep
        dsimp only
        split
        · exact nofun
        · exact exitsClosed_endIteration
      · obtain rfl := Option.some.inj hstep
        exact fun _ => hteardown _ _
      · rename_i message rest _ _ hphase hmailbox
        obtain ⟨a', -, rfl⟩ := Option.map_eq_some_iff.mp hstep
        exact exitsClosed_endIteration
      · cases hstep
  | timeout clock =>
      simp only [actorStep] at hstep
      split at hstep
      · rename_i hphase hmailbox
        obtain rfl := Option.some.inj hstep
        exact exitsClosed_endIteration
      · cases hstep
  | service clock =>
      simp only [actorStep] at hstep
      split at hstep
      · obtain rfl := Option.some.inj hstep
        exact nofun
      · rename_i deferred message rest hpacket hphase hmailbox
        have hphase' : b.phase = .servicing deferred :=
          (handleMessage_fields hstep).2.2.2.1.trans hphase
        intro hexited
        rw [hphase'] at hexited
        cases hexited
      · cases hstep
  | finish =>
      simp only [actorStep] at hstep
      split at hstep
      · obtain rfl := Option.some.inj hstep
        exact nofun
      · cases hstep
  | putBack =>
      simp only [actorStep] at hstep
      split at hstep
      · obtain rfl := Option.some.inj hstep
        exact nofun
      · cases hstep
  | resume clock =>
      simp only [actorStep] at hstep
      split at hstep
      · rename_i hphase
        obtain rfl := Option.some.inj hstep
        exact exitsClosed_endIteration
      · cases hstep

/-! ## The actor of the modelled link -/

/-- A message that reads or sets other fields of the link. -/
structure LinkUpdate where
  apply : Link → Link
  watchdogLock : ∀ l, (apply l).watchdogLock = l.watchdogLock

/-- The modelled link, as its actor uses it. -/
def linkOps (c : Crypto) (m : Msgpack) : LinkOps Link (Packet × Readings) LinkUpdate Readings where
  receive l packet := (receive c m l packet.1 packet.2).map Prod.snd
  teardown l r := teardown l r.now
  handle l update := some (update.apply l)
  state := Link.state
  watchdog := watchdog

/-- A keepalive packet, told apart from others by its data. -/
def sampleKeepalive (n : UInt8) : Packet × Readings :=
  ({ raw := [], header2 := false, packetType := .data, context := Packet.keepalive, data := [n] },
    sampleReadings)

/-- The proof that establishes the link of the sample initiator. -/
def sampleGenuine : Packet × Readings :=
  (sampleProof (pad 64 (List.replicate 64 1)), sampleReadings)

/-- The initiator's actor, waiting for a proof. -/
def sampleActor : Actor Link (Packet × Readings) LinkUpdate :=
  .start (sampleInitiator [sampleSigned]) true

/-- The proof establishes the link; a packet is deferred while the callback
runs, and received after it. -/
theorem inOrder_one_deferred : ∃ a,
    exec (actorStep (linkOps (sampleCrypto [sampleSigned]) sampleMsgpack)) sampleActor
      [.send (.receive sampleGenuine), .recv sampleReadings, .send (.receive (sampleKeepalive 1)),
        .service sampleReadings, .finish, .putBack, .resume sampleReadings,
        .recv sampleReadings] = some a ∧
    a.received = [sampleGenuine, sampleKeepalive 1] ∧ InOrder a := by
  have hquiet : Meets (actorStep (linkOps (sampleCrypto [sampleSigned]) sampleMsgpack)) Quiet
      sampleActor
      [.send (.receive sampleGenuine), .recv sampleReadings, .send (.receive (sampleKeepalive 1)),
        .service sampleReadings, .finish, .putBack, .resume sampleReadings,
        .recv sampleReadings] := by
    rintro _ ⟨⟩
    refine ⟨fun _ hphase => (nomatch hphase), ?_⟩
    rintro _ ⟨⟩
    refine ⟨True.intro, ?_⟩
    rintro _ ⟨⟩
    refine ⟨fun _ hphase => (nomatch hphase), ?_⟩
    rintro _ ⟨⟩
    refine ⟨True.intro, ?_⟩
    rintro _ ⟨⟩
    refine ⟨fun _ _ => .inr rfl, ?_⟩
    rintro _ ⟨⟩
    refine ⟨True.intro, ?_⟩
    rintro _ ⟨⟩
    refine ⟨True.intro, ?_⟩
    rintro _ ⟨⟩
    exact ⟨True.intro, True.intro⟩
  exact ⟨_, rfl, rfl, inOrder_of_quiet hquiet rfl⟩

/-- A packet that arrives after another was deferred, and before the callback
ends, overtakes it: the deferred one goes back to the tail of the mailbox. -/
theorem inOrder_false_of_overtaking : ∃ a,
    exec (actorStep (linkOps (sampleCrypto [sampleSigned]) sampleMsgpack)) sampleActor
      [.send (.receive sampleGenuine), .recv sampleReadings, .send (.receive (sampleKeepalive 1)),
        .service sampleReadings, .send (.receive (sampleKeepalive 2)), .finish, .putBack,
        .resume sampleReadings, .recv sampleReadings, .recv sampleReadings] = some a ∧
    a.enqueued = [sampleGenuine, sampleKeepalive 1, sampleKeepalive 2] ∧
    a.received = [sampleGenuine, sampleKeepalive 2, sampleKeepalive 1] ∧ a.phase = .idle ∧
    ¬ InOrder a := by
  obtain ⟨a, hrun, henqueued, hreceived, hphase⟩ : ∃ a,
      exec (actorStep (linkOps (sampleCrypto [sampleSigned]) sampleMsgpack)) sampleActor
        [.send (.receive sampleGenuine), .recv sampleReadings,
          .send (.receive (sampleKeepalive 1)), .service sampleReadings,
          .send (.receive (sampleKeepalive 2)), .finish, .putBack, .resume sampleReadings,
          .recv sampleReadings, .recv sampleReadings] = some a ∧
      a.enqueued = [sampleGenuine, sampleKeepalive 1, sampleKeepalive 2] ∧
      a.received = [sampleGenuine, sampleKeepalive 2, sampleKeepalive 1] ∧ a.phase = .idle :=
    ⟨_, rfl, rfl, rfl, rfl⟩
  refine ⟨a, hrun, henqueued, hreceived, hphase, ?_⟩
  rintro ⟨⟨rest, hrest⟩, -⟩
  rw [henqueued, hreceived] at hrest
  have hsecond : sampleKeepalive 2 = sampleKeepalive 1 :=
    (List.cons.inj (List.cons.inj hrest).2).1
  exact absurd (congrArg (fun packet => packet.1.data) hsecond) (by decide)

end Reticulum.Link
