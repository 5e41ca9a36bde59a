import Reticulum.Lib.Runs
import Reticulum.Transport.Admission
import Reticulum.Transport.AnnounceTable

/-!
# An announce that a path response displaces

`path_request` (`src/transport.rs`) answers with an entry of its own in
`announce_table`, and puts the entry that was there aside in `held_announces`.
Nothing takes it out of there again: in no later run is the displaced announce
queued or sent, unless `inbound` queues a newer emission (`displaced_never_returns`).
-/

namespace Reticulum.Transport

/-- A frame, a path request or a pass. -/
inductive AnnounceEvent
  | receive (frame : Incoming)
  | pathRequest (call : Call) (destinationHash : Bytes) (isFromLocalClient : Bool)
      (attachedInterface : Option String) (requestorTransportId tag : Option Bytes)
  | jobs (pass : Pass)

/-- A node after an event. -/
def announceStep (c : Crypto) (n : Instance) : AnnounceEvent → Option Instance
  | .receive frame => some (receive c n frame.call frame.raw frame.receivingInterface).1
  | .pathRequest call destinationHash isFromLocalClient attachedInterface requestorTransportId tag =>
      some (pathRequest c n call destinationHash isFromLocalClient attachedInterface
        requestorTransportId tag).1
  | .jobs pass => some (jobs n pass).1

/-- An announce of the destination is queued for its rebroadcasts. -/
def Queued (n : Instance) (destinationHash : Bytes) : Prop :=
  ∃ e, n.announceTable destinationHash = some e ∧ e.blockRebroadcasts = false

/-- An event replaces an announce that still has rebroadcasts to make by a path response. -/
structure Displaces (c : Crypto) (n : Instance) (event : AnnounceEvent) (n' : Instance)
    (destinationHash : Bytes) (e : AnnounceEntry) : Prop where
  before : n.announceTable destinationHash = some e
  announce : e.blockRebroadcasts = false
  rebroadcasts : e.completed = false
  step : announceStep c n event = some n'
  after : ∃ response, n'.announceTable destinationHash = some response ∧
    response.blockRebroadcasts = true

/-- No newer emission of the destination is queued by a frame. -/
def NoNewerEmission (c : Crypto) (destinationHash : Bytes) (n : Instance) : AnnounceEvent → Prop
  | .receive frame => ∀ p, queuedAnnounce c n frame ≠ some (destinationHash, p)
  | _ => True

/-- The path response for the destination is sent in a pass. -/
def ResponseSent (c : Crypto) (n : Instance) (events : List AnnounceEvent) (destinationHash : Bytes) :
    Prop :=
  ∃ done pass m sent, done ++ [.jobs pass] <+: events ∧
    Runs.exec (announceStep c) n done = some m ∧
    (jobs m pass).2.rebroadcasts destinationHash = some sent ∧ sent.context = pathResponse

section Displaced

variable {c : Crypto} {n n' : Instance} {destinationHash : Bytes}

theorem not_queued_of_heard {before after : Option AnnounceEntry} (h : Heard before after)
    (hbefore : ∀ e, before = some e → e.blockRebroadcasts = true) {e : AnnounceEntry}
    (he : after = some e) : e.blockRebroadcasts = true := by
  obtain heq | hnone | ⟨e', count, heq, hafter⟩ := h
  · exact hbefore e (heq.symm.trans he)
  · rw [hnone] at he
    cases he
  · obtain rfl := Option.some.inj (hafter.symm.trans he)
    exact hbefore e' heq

/-- Only a newer emission takes the place of a path response. -/
theorem not_queued_step (n : Instance) (event : AnnounceEvent) (n' : Instance)
    (h : ¬ Queued n destinationHash) (hevent : NoNewerEmission c destinationHash n event)
    (hstep : announceStep c n event = some n') : ¬ Queued n' destinationHash := by
  have hresponses : ∀ e, n.announceTable destinationHash = some e → e.blockRebroadcasts = true := by
    intro e he
    by_contra hblock
    exact h ⟨e, he, by simpa using hblock⟩
  rintro ⟨e, he, hannounce⟩
  suffices hresponse : e.blockRebroadcasts = true by
    rw [hannounce] at hresponse
    cases hresponse
  cases event with
  | receive frame =>
      obtain rfl := Option.some.inj hstep
      obtain ⟨p, hqueued, -⟩ | ⟨-, hheard | ⟨q, response, -, hafter, hblock⟩⟩ :=
        announceTable_receive c n frame destinationHash
      · exact absurd hqueued (hevent _)
      · exact not_queued_of_heard hheard hresponses he
      · exact Option.some.inj (hafter.symm.trans he) ▸ hblock
  | pathRequest call hash isFromLocalClient attachedInterface requestorTransportId tag =>
      obtain rfl := Option.some.inj hstep
      obtain hsame | ⟨response, hafter, hblock⟩ :=
        (Asked.pathRequest (c := c) (n := n) call isFromLocalClient
          requestorTransportId).responses destinationHash
      · exact hresponses e (hsame.symm.trans he)
      · exact Option.some.inj (hafter.symm.trans he) ▸ hblock
  | jobs pass =>
      obtain rfl := Option.some.inj hstep
      obtain ⟨hsame, -⟩ | ⟨hpass, -⟩ := announceTable_jobs n pass destinationHash
      · exact hresponses e (hsame.symm.trans he)
      · obtain ⟨e', he', hpassed⟩ := Option.bind_eq_some_iff.mp (hpass.symm.trans he)
        obtain ⟨-, ⟨-, rfl⟩ | ⟨-, timeout, rfl⟩⟩ := pass_eq_some hpassed
        · exact hresponses _ he'
        · exact hresponses e' he'

theorem never_queued {event : AnnounceEvent} {e : AnnounceEntry}
    (h : Displaces c n event n' destinationHash e) {events : List AnnounceEvent}
    (hevents : Runs.Meets (announceStep c) (NoNewerEmission c destinationHash) n' events) :
    Runs.Always (announceStep c) (fun m => ¬ Queued m destinationHash) n' events := by
  refine Runs.always_of_meets not_queued_step ?_ hevents
  rintro ⟨e', he', hannounce⟩
  obtain ⟨response, hafter, hblock⟩ := h.after
  obtain rfl := Option.some.inj (hafter.symm.trans he')
  rw [hblock] at hannounce
  cases hannounce

/-- An announce that a path response has displaced is not queued again, and what leaves for
its destination is path responses alone, in every later run without a newer emission. -/
theorem displaced_never_returns {event : AnnounceEvent} {e : AnnounceEntry}
    (h : Displaces c n event n' destinationHash e) (events : List AnnounceEvent)
    (hevents : Runs.Meets (announceStep c) (NoNewerEmission c destinationHash) n' events) :
    Runs.Always (announceStep c) (fun m => ¬ Queued m destinationHash ∧
      ∀ pass sent, (jobs m pass).2.rebroadcasts destinationHash = some sent →
        sent.context = pathResponse) n' events := by
  intro done m hdone hrun
  have hm := never_queued h hevents done m hdone hrun
  refine ⟨hm, ?_⟩
  intro pass sent hsent
  obtain ⟨-, hnone⟩ | ⟨-, hleaves⟩ := announceTable_jobs m pass destinationHash
  · rw [hnone] at hsent
    cases hsent
  · obtain ⟨entry, hentry, rfl⟩ := Option.map_eq_some_iff.mp (hleaves.symm.trans hsent)
    have hheld := Option.eq_some_of_filter_eq_some hentry
    have hblock : entry.blockRebroadcasts = true := by
      by_contra hannounce
      exact hm ⟨entry, hheld, by simpa using hannounce⟩
    simp [rebroadcastOf, hblock]

end Displaced

/-! ## An announce that is lost -/

/-- A relay with two interfaces. -/
def idleRelay : Instance :=
  { Instance.start with
    toTransportState := { twoInterfaces with
      transportEnabled := true, identityHash := some (List.replicate 16 9) } }

/-- The relay after it has heard the announce of the zero destination on the left. -/
def heardRelay : Instance :=
  (receive zeroCrypto idleRelay { reading := .zero, randomHash := [], tunnelPaths := [] }
    (zeroFrame 1) (some "left")).1

/-- Someone on the right asks for the zero destination. -/
def zeroRequest : AnnounceEvent :=
  .pathRequest { reading := .zero, randomHash := [], tunnelPaths := [] } (List.replicate 16 0) false
    (some "right") none (some [5])

/-- The relay after the request. -/
def askedRelay : Instance := ((announceStep zeroCrypto heardRelay zeroRequest).getD heardRelay)

/-- A pass that does nothing about links. -/
def plainPass (now : ℚ) : Pass := { now := now, closedLinks := [], linkOrder := [], pathOrder := [] }

section Samples

set_option maxRecDepth 4000

theorem displaces_zeroRequest :
    ∃ e, Displaces zeroCrypto heardRelay zeroRequest askedRelay (List.replicate 16 0) e := by
  have hbefore : ((heardRelay.announceTable (List.replicate 16 0)).map fun e =>
      (e.blockRebroadcasts, e.completed)) = some (false, false) := by decide +kernel
  have hafter : ((askedRelay.announceTable (List.replicate 16 0)).map fun e =>
      e.blockRebroadcasts) = some true := by decide +kernel
  obtain ⟨e, he, hfields⟩ := Option.map_eq_some_iff.mp hbefore
  obtain ⟨response, hresponse, hblock⟩ := Option.map_eq_some_iff.mp hafter
  exact ⟨e, he, congrArg Prod.fst hfields, congrArg Prod.snd hfields, rfl, response, hresponse,
    hblock⟩

/-- Three passes after the request. -/
def laterPasses : List AnnounceEvent :=
  [.jobs (plainPass 2), .jobs (plainPass 20), .jobs (plainPass 40)]

theorem meets_laterPasses (n : Instance) :
    Runs.Meets (announceStep zeroCrypto) (NoNewerEmission zeroCrypto (List.replicate 16 0)) n
      laterPasses := by
  rintro m₁ ⟨⟩
  refine ⟨True.intro, ?_⟩
  rintro m₂ ⟨⟩
  refine ⟨True.intro, ?_⟩
  rintro m₃ ⟨⟩
  exact ⟨True.intro, True.intro⟩

/-- The request displaces the announce, and it does not come back in the passes after. -/
theorem displaced_never_returns_zero :
    Runs.Always (announceStep zeroCrypto) (fun m => ¬ Queued m (List.replicate 16 0) ∧
      ∀ pass sent, (jobs m pass).2.rebroadcasts (List.replicate 16 0) = some sent →
        sent.context = pathResponse) askedRelay laterPasses := by
  obtain ⟨e, hdisplaces⟩ := displaces_zeroRequest
  exact displaced_never_returns hdisplaces _ (meets_laterPasses _)

/-- The response was sent, no newer emission came, and the announce is lost. -/
theorem displaced_returns_false :
    ¬ ∀ (c : Crypto) (n n' : Instance) (event : AnnounceEvent) (destinationHash : Bytes)
        (e : AnnounceEntry) (events : List AnnounceEvent),
      Displaces c n event n' destinationHash e →
      Runs.Meets (announceStep c) (NoNewerEmission c destinationHash) n' events →
      ResponseSent c n' events destinationHash →
      ∃ done m, done <+: events ∧ Runs.exec (announceStep c) n' done = some m ∧
        Queued m destinationHash := by
  intro hall
  obtain ⟨e, hdisplaces⟩ := displaces_zeroRequest
  have hsent : ResponseSent zeroCrypto askedRelay laterPasses (List.replicate 16 0) := by
    have hpass : (((jobs askedRelay (plainPass 2)).2.rebroadcasts (List.replicate 16 0)).map
        (·.context)) = some pathResponse := by decide +kernel
    obtain ⟨sent, hsent, hcontext⟩ := Option.map_eq_some_iff.mp hpass
    exact ⟨[], plainPass 2, askedRelay, sent, ⟨_, rfl⟩, rfl, hsent, hcontext⟩
  obtain ⟨done, m, hdone, hrun, hqueued⟩ :=
    hall _ _ _ _ _ _ laterPasses hdisplaces (meets_laterPasses _) hsent
  exact never_queued hdisplaces (meets_laterPasses _) done m hdone hrun hqueued

end Samples

end Reticulum.Transport
