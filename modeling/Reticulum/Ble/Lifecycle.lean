import Reticulum.Ble.Engine

/-!
# The lifecycle of Bluetooth links

What a host and the Transport see of the engine over any run of events. `Watch` reads
the effects in order and stops at one that is out of place; `orderly_run` says that it
never stops, that there are never too many links, and what the last scan effect says.

## Implementation notes

`close_all` takes the scan effects away, since the host stops scanning itself. After a
`close_all` that closed a link the last scan effect is therefore not that of the
engine, until the next one. The host scans before the first.
-/

namespace Reticulum.Ble

/-- An event of the host. -/
inductive HostEvent
  | sighted (address : String) (companyId : UInt16) (data : Bytes) (now : Nat) (nowUnix : ℚ)
  | linkReady (link maxWriteLen now : Nat) (nowUnix : ℚ)
  | linkReceived (link : Nat) (characteristic : Characteristic) (bytes : Bytes)
  | linkWriteDone (link : Nat) (ok : Bool) (nowUnix : ℚ)
  | sendPacket (link : Nat) (packet : Bytes) (nowUnix : ℚ)
  | linkClosed (link now : Nat)
  | expire (now : Nat)
  | closeAll

/-- The time of an event, when it has one. -/
def HostEvent.time : HostEvent → Option Nat
  | .sighted _ _ _ now _ => some now
  | .linkReady _ _ now _ => some now
  | .linkClosed _ now => some now
  | .expire now => some now
  | _ => none

/-- The link on which something was received. -/
def HostEvent.receiving : HostEvent → Option Nat
  | .linkReceived link _ _ => some link
  | _ => none

/-- The effects of a result; an error has none. -/
def effectsOf : Except String (List Effect) → List Effect
  | .ok effects => effects
  | .error _ => []

/-- The effects of an event, and the engine after it. -/
def Engine.handle (e : Engine) : HostEvent → List Effect × Engine
  | .sighted address companyId data now nowUnix =>
      (e.sighted address companyId data now nowUnix).2
  | .linkReady link maxWriteLen now nowUnix =>
      let result := e.linkReady link maxWriteLen now nowUnix
      (effectsOf result.1, result.2)
  | .linkReceived link characteristic bytes => e.linkReceived link characteristic bytes
  | .linkWriteDone link ok nowUnix => e.linkWriteDone link ok nowUnix
  | .sendPacket link packet nowUnix => (e.sendPacket link packet nowUnix).2
  | .linkClosed link now => e.linkClosed link now
  | .expire now => e.expire now
  | .closeAll => e.closeAll

/-- What was seen so far: the interfaces that are registered, the links that were closed, those that
are settled, each with its interface, the last scan effect, whether `close_all` has closed a link
since, and for each address when it was last dialled, unless such a link has settled since. -/
structure Watch where
  registered : List String
  closed : List Nat
  settled : List (Nat × String)
  lastScan : Bool
  stopped : Bool
  addressOf : Nat → String
  lastDial : String → Option Nat

namespace Watch

/-- Nothing was seen; the host scans. -/
def start : Watch :=
  { registered := [], closed := [], settled := [], lastScan := true, stopped := false
    addressOf := fun _ => "", lastDial := fun _ => none }

/-- A link changes its state. -/
def linkState (w : Watch) (link : Nat) (interface : Option String) : LinkState → Watch
  | .settled =>
      { w with
        settled := interface.toList.map (link, ·) ++ w.settled
        lastDial := Function.update w.lastDial (w.addressOf link) none }
  | .closed =>
      { w with
        closed := link :: w.closed
        settled := w.settled.filter fun entry => entry.1 ≠ link }
  | _ => w

/-- An effect is seen, unless it is out of place: a register of an interface that is registered, a
handover or a deregister of one that is not, a packet on a link that is not settled, or a write, a
register or a state of a link that was closed. -/
def effect (receiving : Option Nat) (w : Watch) : Effect → Option Watch
  | .register name link =>
      if name ∈ w.registered ∨ link ∈ w.closed then none
      else some { w with registered := name :: w.registered }
  | .handOver name link => if name ∉ w.registered ∨ link ∈ w.closed then none else some w
  | .deregister name =>
      if name ∈ w.registered then some { w with registered := w.registered.erase name } else none
  | .write link _ _ => if link ∈ w.closed then none else some w
  | .state link state _ interface =>
      if link ∈ w.closed then none else some (w.linkState link interface state)
  | .inbound name _ =>
      if (receiving.any fun link => (link, name) ∈ w.settled ∧ link ∉ w.closed) then some w else none
  | .scan on => some { w with lastScan := on, stopped := false }
  | _ => some w

/-- An address is dialled, unless it was less than `DIAL_FAILED_RETRY` ago. -/
def dial (w : Watch) (address : String) (now : Nat) (link : Option Nat) : Option Watch :=
  match link with
  | none => some w
  | some link =>
      if (w.lastDial address).any fun time => now < time + dialFailedRetry then none
      else some { w with
        addressOf := Function.update w.addressOf link address
        lastDial := Function.update w.lastDial address (some now) }

/-- What an event says besides its effects. -/
def event (w : Watch) (e : Engine) : HostEvent → Option Watch
  | .sighted address companyId data now nowUnix =>
      w.dial address now (e.sighted address companyId data now nowUnix).1
  | .closeAll => some { w with stopped := w.stopped || !e.links.isEmpty }
  | _ => some w

end Watch

/-- An engine, the time of the last event, and what was seen; nothing when an effect was out of
place. -/
structure Hosted where
  engine : Engine
  clock : Nat
  watch : Option Watch

namespace Hosted

/-- The engine after an event that does not come before the last one. -/
def step (w : Hosted) (event : HostEvent) : Option Hosted :=
  if (event.time.any fun now => now < w.clock) then none
  else
    let result := w.engine.handle event
    some
      { engine := result.2
        clock := event.time.getD w.clock
        watch := w.watch.bind fun watch => (watch.event w.engine event).bind fun watch =>
          Runs.exec (Watch.effect event.receiving) watch result.1 }

/-- Nothing was out of place, there are not too many links, and the last scan effect says whether
there could be another, unless `close_all` has closed one since. -/
def Orderly (w : Hosted) : Prop :=
  ∃ watch, w.watch = some watch ∧ w.engine.links.length ≤ maxNodes ∧
    (watch.stopped = false → watch.lastScan = decide (w.engine.links.length < maxNodes))

/-- The same, with no exception for `close_all`. -/
def OrderlyAlways (w : Hosted) : Prop :=
  ∃ watch, w.watch = some watch ∧ w.engine.links.length ≤ maxNodes ∧
    watch.lastScan = decide (w.engine.links.length < maxNodes)

/-- A new engine. -/
def start (identity : Bytes.Block 16) (endpoint : Endpoint) (clock : Nat) : Hosted :=
  { engine := Engine.new identity endpoint, clock := clock, watch := some Watch.start }

end Hosted

/-! ## What is tracked -/

/-- The interface of a settled link. -/
def Phase.interface : Phase → Option String
  | .settled _ interface => some interface
  | _ => none

/-- What was seen goes with the engine: the registered interfaces are those of the settled links,
the closed links are gone for good, and no dial is forgotten before `DIAL_FAILED_RETRY`. -/
structure Tracked (e : Engine) (clock : Nat) (w : Watch) : Prop where
  links : e.links.length ≤ maxNodes
  fresh : ∀ entry ∈ e.links, entry.1 < e.nextLink
  closed : ∀ link ∈ w.closed, link < e.nextLink ∧ ∀ entry ∈ e.links, entry.1 ≠ link
  registered : w.registered = e.links.filterMap fun entry => entry.2.phase.interface
  settled : w.settled =
    e.links.filterMap fun entry => entry.2.phase.interface.map fun name => (entry.1, name)
  scanning : e.scanning = decide (e.links.length < maxNodes)
  lastScan : w.stopped = false → w.lastScan = e.scanning
  addresses : ∀ entry ∈ e.links, w.addressOf entry.1 = entry.2.address
  dials : ∀ address time, w.lastDial address = some time → time ≤ clock ∧
    (time + dialFailedRetry ≤ clock ∨
      ∃ after, e.retryAfter address = some after ∧ time + dialFailedRetry ≤ after)

theorem tracked_start (identity : Bytes.Block 16) (endpoint : Endpoint) (clock : Nat) :
    Tracked (Engine.new identity endpoint) clock Watch.start where
  links := Nat.zero_le _
  fresh := fun _ hmem => by cases hmem
  closed := fun _ hmem => by cases hmem
  registered := rfl
  settled := rfl
  scanning := rfl
  lastScan := fun _ => rfl
  addresses := fun _ hmem => by cases hmem
  dials := fun _ _ htime => by cases htime

variable {e : Engine} {clock : Nat} {w : Watch} {link : Nat} {state : Link}

/-- What was seen is followed by the effects of a result, and goes with its engine. -/
def Follows (receiving : Option Nat) (clock : Nat) (w : Watch) (result : List Effect × Engine) :
    Prop :=
  ∃ w', Runs.exec (Watch.effect receiving) w result.1 = some w' ∧ Tracked result.2 clock w'

/-- There is one link at most, and so it is the one that is found. -/
theorem Tracked.only (h : Tracked e clock w) (hget : Assoc.get e.links link = some state) :
    e.links = [(link, state)] := by
  have hone := h.links
  cases hlinks : e.links with
  | nil =>
      rw [hlinks] at hget
      cases hget
  | cons entry rest =>
      rw [hlinks] at hone hget
      obtain rfl := List.eq_nil_of_length_eq_zero (Nat.le_zero.mp (Nat.le_of_succ_le_succ hone))
      obtain ⟨key, other⟩ := entry
      by_cases heq : key = link
      · subst heq
        simp [Assoc.get] at hget
        rw [hget]
      · simp [Assoc.get, heq] at hget

theorem put_only (new : Link) (hlinks : e.links = [(link, state)]) :
    Assoc.put e.links link new = [(link, new)] := by
  rw [hlinks]
  simp [Assoc.put]

section

variable (h : Tracked e clock w)

include h

section

variable (hlinks : e.links = [(link, state)])

include hlinks

theorem Tracked.not_closed :
    link ∉ w.closed := by
  intro hmem
  exact (h.closed link hmem).2 (link, state) (by rw [hlinks]; exact List.mem_cons_self) rfl

theorem Tracked.registered_only :
    w.registered = state.phase.interface.toList := by
  rw [h.registered, hlinks, List.filterMap_cons]
  cases state.phase.interface <;> rfl

theorem Tracked.settled_only :
    w.settled = state.phase.interface.toList.map fun name => (link, name) := by
  rw [h.settled, hlinks, List.filterMap_cons]
  cases state.phase.interface <;> rfl

theorem Tracked.scanning_only :
    e.scanning = false := by
  rw [h.scanning, hlinks]
  rfl

end

/-- A result without effects that changes nothing. -/
theorem Tracked.same (receiving : Option Nat) :
    Follows receiving clock w ([], e) := ⟨w, rfl, h⟩

theorem Tracked.log (receiving : Option Nat) (level : Level)
    (message : String) : Follows receiving clock w ([.log level message], e) := ⟨w, rfl, h⟩

/-- The link has changed, but neither its address nor its interface. -/
theorem Tracked.put (hlinks : e.links = [(link, state)]) (new : Link)
    (haddress : new.address = state.address)
    (hinterface : new.phase.interface = state.phase.interface) :
    Tracked { e with links := Assoc.put e.links link new } clock w := by
  have hput := put_only new hlinks
  have hfresh := h.fresh
  have hclosed := h.closed
  have hregistered := h.registered
  have hsettled := h.settled
  have hscanning := h.scanning
  have haddresses := h.addresses
  rw [hlinks] at hfresh hclosed hregistered hsettled hscanning haddresses
  constructor
  · dsimp only
    rw [hput]
    exact le_rfl
  · dsimp only
    rw [hput]
    intro entry hmem
    obtain rfl := List.mem_singleton.mp hmem
    exact hfresh (link, state) List.mem_cons_self
  · dsimp only
    rw [hput]
    intro other hother
    refine ⟨(hclosed other hother).1, fun entry hmem => ?_⟩
    obtain rfl := List.mem_singleton.mp hmem
    exact (hclosed other hother).2 (link, state) List.mem_cons_self
  · dsimp only
    rw [hput, hregistered]
    simp only [List.filterMap_cons, hinterface]
  · dsimp only
    rw [hput, hsettled]
    simp only [List.filterMap_cons, hinterface]
  · dsimp only
    rw [hput]
    exact hscanning
  · exact h.lastScan
  · dsimp only
    rw [hput]
    intro entry hmem
    obtain rfl := List.mem_singleton.mp hmem
    exact (haddresses (link, state) List.mem_cons_self).trans haddress.symm
  · exact h.dials

end

/-! ## Closing -/

/-- The engine after its only link was closed. -/
theorem close_only (hlinks : e.links = [(link, state)]) (hscanning : e.scanning = false)
    (why : String) (disconnect : Bool) :
    e.close link why disconnect =
      ((Engine.closedPhase state.phase).1 ++ (if disconnect then [.disconnect link] else []) ++
        [.state link .closed (Engine.closedPhase state.phase).2.1
            (Engine.closedPhase state.phase).2.2,
          .log .notice (linkText link ("closed, " ++ why))] ++ [.scan true],
        { e with links := [], scanning := true }) := by
  have hget : Assoc.get e.links link = some state := by
    rw [hlinks]
    simp [Assoc.get]
  have hretain : Assoc.retain (· ≠ link) e.links = [] := by
    rw [hlinks]
    simp [Assoc.retain]
  unfold Engine.close Engine.scanEffect
  rw [hget]
  dsimp only
  rw [hretain, hscanning]
  rfl

/-- What was seen after a link was closed, but for scanning. -/
def Watch.gone (w : Watch) (link : Nat) : Watch :=
  { w with registered := [], closed := link :: w.closed, settled := [] }

theorem Watch.none_registered (h : w.registered = []) : { w with registered := [] } = w := by
  rw [← h]

/-- The effects of closing the only link, but for that on scanning. -/
theorem exec_closed (h : Tracked e clock w) (hlinks : e.links = [(link, state)])
    (receiving : Option Nat) (disconnect : Bool) (message : String) :
    Runs.exec (Watch.effect receiving) w
        ((Engine.closedPhase state.phase).1 ++ (if disconnect then [.disconnect link] else []) ++
          [.state link .closed (Engine.closedPhase state.phase).2.1
            (Engine.closedPhase state.phase).2.2, .log .notice message]) =
      some (w.gone link) := by
  have hnot := h.not_closed hlinks
  have hregistered := h.registered_only hlinks
  have hsettled := h.settled_only hlinks
  have hphase : Runs.exec (Watch.effect receiving) w (Engine.closedPhase state.phase).1 =
      some { w with registered := [] } := by
    cases hphase : state.phase with
    | settled peer interface =>
        rw [hphase] at hregistered
        simp [Engine.closedPhase, Watch.effect, Runs.exec, hregistered, Phase.interface]
    | dialing dialed deadline =>
        rw [hphase] at hregistered
        exact congrArg some (Watch.none_registered hregistered).symm
    | handshaking hello deadline =>
        rw [hphase] at hregistered
        exact congrArg some (Watch.none_registered hregistered).symm
  have hdisconnect : ∀ w : Watch, Runs.exec (Watch.effect receiving) w
      (if disconnect then [.disconnect link] else []) = some w := by
    intro w
    split <;> rfl
  have hfilter : (w.settled.filter fun entry => entry.1 ≠ link) = [] := by
    rw [hsettled]
    cases state.phase.interface <;> simp
  rw [List.append_assoc, Runs.exec_append_of_eq hphase, Runs.exec_append_of_eq (hdisconnect _)]
  simp only [Runs.exec, Watch.effect, Option.bind_some, if_neg hnot, Watch.linkState, hfilter]
  rfl

/-- What was seen goes with the engine whose only link was closed. -/
theorem Tracked.closing (h : Tracked e clock w) (hlinks : e.links = [(link, state)])
    (lastScan stopped : Bool) (hscan : stopped = false → lastScan = true) :
    Tracked { e with links := [], scanning := true } clock
      { w.gone link with lastScan := lastScan, stopped := stopped } where
  links := Nat.zero_le _
  fresh := fun _ hmem => by cases hmem
  closed := by
    intro other hmem
    refine ⟨?_, fun _ hentry => by cases hentry⟩
    rcases List.mem_cons.mp hmem with rfl | hmem
    · exact h.fresh (other, state) (by rw [hlinks]; exact List.mem_cons_self)
    · exact (h.closed other hmem).1
  registered := rfl
  settled := rfl
  scanning := rfl
  lastScan := hscan
  addresses := fun _ hmem => by cases hmem
  dials := h.dials

/-- Closing a link is followed. -/
theorem Tracked.close (h : Tracked e clock w) (receiving : Option Nat) (link : Nat) (why : String)
    (disconnect : Bool) : Follows receiving clock w (e.close link why disconnect) := by
  cases hget : Assoc.get e.links link with
  | none =>
      have hnothing : e.close link why disconnect = ([], e) := by
        unfold Engine.close
        rw [hget]
      rw [hnothing]
      exact h.same receiving
  | some state =>
      have hlinks := h.only hget
      rw [close_only hlinks (h.scanning_only hlinks)]
      refine ⟨_, ?_, h.closing hlinks true false fun _ => rfl⟩
      dsimp only
      rw [Runs.exec_append_of_eq (exec_closed h hlinks receiving disconnect _)]
      rfl

/-- An effect that is always in its place follows. -/
theorem Follows.disconnect {receiving : Option Nat} {result : List Effect × Engine}
    (h : Follows receiving clock w result) (link : Nat) :
    Follows receiving clock w (result.1 ++ [.disconnect link], result.2) := by
  obtain ⟨w', hexec, htracked⟩ := h
  refine ⟨w', ?_, htracked⟩
  rw [Runs.exec_append_of_eq hexec]
  rfl

/-- Time passes. -/
theorem Tracked.later (h : Tracked e clock w) {now : Nat} (hnow : clock ≤ now) :
    Tracked e now w := by
  refine { h with dials := ?_ }
  intro address time htime
  obtain ⟨hle, hdial⟩ := h.dials address time htime
  exact ⟨hle.trans hnow, hdial.imp_left fun hpassed => hpassed.trans hnow⟩

/-- An address may be dialled again when `DIAL_FAILED_RETRY` has passed. -/
theorem Tracked.retry (h : Tracked e clock w) (address : String) :
    Tracked
      { e with retryAfter := Function.update e.retryAfter address (some (clock + dialFailedRetry)) }
      clock w := by
  refine { h with dials := ?_ }
  intro other time htime
  obtain ⟨hle, hdial⟩ := h.dials other time htime
  refine ⟨hle, ?_⟩
  by_cases heq : other = address
  · subst heq
    exact .inr ⟨_, Function.update_self _ _ _, Nat.add_le_add_right hle _⟩
  · refine hdial.imp_right fun ⟨after, hafter, hless⟩ => ⟨after, ?_, hless⟩
    exact (Function.update_of_ne heq _ _).trans hafter

theorem Tracked.failDial (h : Tracked e clock w) (receiving : Option Nat) (link : Nat)
    (why : String) : Follows receiving clock w (e.failDial link clock why) := by
  unfold Engine.failDial
  split
  · exact (h.retry _).close receiving link why false
  · exact h.close receiving link why false

/-! ## The events of a link -/

theorem Tracked.linkReady (h : Tracked e clock w) (receiving : Option Nat)
    (link maxWriteLen : Nat) (nowUnix : ℚ) :
    Follows receiving clock w
      (effectsOf (e.linkReady link maxWriteLen clock nowUnix).1,
        (e.linkReady link maxWriteLen clock nowUnix).2) := by
  unfold Engine.linkReady
  split
  · exact h.same receiving
  · rename_i state hget
    have hlinks := h.only hget
    have hnot := h.not_closed hlinks
    split
    · rename_i dialed deadline hphase
      dsimp only
      split
      · exact (h.failDial receiving link _).disconnect link
      · refine ⟨w, ?_, ?_⟩
        · simp only [effectsOf, Runs.exec, Watch.effect, Option.bind_some, if_neg hnot,
            Watch.linkState]
        · exact h.put hlinks _ rfl (by rw [hphase]; rfl)
    · exact h.same receiving

theorem Tracked.dataReceived (h : Tracked e clock w) (hlinks : e.links = [(link, state)])
    (bytes : Bytes) : Follows (some link) clock w (e.dataReceived link state bytes) := by
  unfold Engine.dataReceived
  split
  · rename_i peer interface hphase
    have hnot := h.not_closed hlinks
    have hsettled := h.settled_only hlinks
    rw [hphase] at hsettled
    have hplace : ∀ packet, Watch.effect (some link) w (.inbound interface packet) = some w := by
      intro packet
      simp [Watch.effect, hsettled, hnot, Phase.interface]
    dsimp only
    split
    · refine ⟨w, ?_, h.put hlinks _ rfl rfl⟩
      rw [Runs.exec_cons, hplace]
      rfl
    · exact ⟨w, rfl, h.put hlinks _ rfl rfl⟩
    · exact ⟨w, rfl, h.put hlinks _ rfl rfl⟩
  · exact h.log _ _ _

/-- The engine after its only link has settled. -/
def Engine.settled (e : Engine) (link : Nat) (state : Link) (peer : Bytes.Block 16) : Engine :=
  { e with
    retryAfter := Function.update e.retryAfter state.address none
    links := Assoc.put e.links link { state with phase := .settled peer (interfaceName peer) } }

theorem settled_links (hlinks : e.links = [(link, state)]) (peer : Bytes.Block 16) :
    (e.settled link state peer).links =
      [(link, { state with phase := .settled peer (interfaceName peer) })] :=
  put_only _ hlinks

/-- What was seen after a link has settled. -/
def Watch.settling (w : Watch) (link : Nat) (name : String) : Watch :=
  { w with
    registered := [name], settled := [(link, name)]
    lastDial := Function.update w.lastDial (w.addressOf link) none }

section

variable (h : Tracked e clock w)

include h

section

variable (hlinks : e.links = [(link, state)])

include hlinks

/-- The only link settles with an interface of its own. -/
theorem settle_only
    (greeting : Greeting) (helloSentAtUnix : ℚ) (hother : greeting.identity ≠ e.identity) :
    ∃ message, e.settle link greeting helloSentAtUnix =
      ([.checkLate "prns_ble.handshake" helloSentAtUnix,
        .register (interfaceName greeting.identity) link,
        .state link .settled (some greeting.identity) (some (interfaceName greeting.identity)),
        .log .notice message],
        e.settled link state greeting.identity) := by
  have hprevious : e.previous link greeting.identity = none := by
    unfold Engine.previous
    rw [hlinks]
    cases hphase : state.phase <;> simp [hphase]
  have htaken : e.takeOver link (interfaceName greeting.identity) greeting.identity =
      ([.register (interfaceName greeting.identity) link], e) := by
    unfold Engine.takeOver
    rw [hprevious]
  have hsettled : e.settleLink link (interfaceName greeting.identity) greeting.identity =
      e.settled link state greeting.identity := by
    unfold Engine.settleLink
    rw [hlinks]
    simp [Assoc.get, Engine.settled, hlinks]
  have hscan : (e.settled link state greeting.identity).scanEffect =
      ([], e.settled link state greeting.identity) := by
    have hfull : decide ((e.settled link state greeting.identity).links.length < maxNodes) =
        false := decide_eq_false (by rw [settled_links hlinks greeting.identity]; exact Nat.lt_irrefl 1)
    exact if_pos (hfull.trans (h.scanning_only hlinks).symm)
  unfold Engine.settle
  rw [if_neg hother]
  dsimp only
  rw [htaken, hsettled, hscan]
  exact ⟨_, rfl⟩

/-- What was seen goes with the engine whose only link has settled. -/
theorem Tracked.settling (peer : Bytes.Block 16) :
    Tracked (e.settled link state peer) clock (w.settling link (interfaceName peer)) := by
  have haddress := h.addresses (link, state) (by rw [hlinks]; exact List.mem_cons_self)
  have hone := settled_links hlinks peer
  constructor
  · rw [hone]
    exact le_rfl
  · rw [hone]
    intro entry hmem
    obtain rfl := List.mem_singleton.mp hmem
    exact h.fresh (link, state) (by rw [hlinks]; exact List.mem_cons_self)
  · rw [hone]
    intro other hother
    refine ⟨(h.closed other hother).1, fun entry hmem => ?_⟩
    obtain rfl := List.mem_singleton.mp hmem
    exact (h.closed other hother).2 (link, state) (by rw [hlinks]; exact List.mem_cons_self)
  · rw [hone]
    rfl
  · rw [hone]
    rfl
  · rw [hone]
    exact h.scanning_only hlinks
  · exact h.lastScan
  · rw [hone]
    intro entry hmem
    obtain rfl := List.mem_singleton.mp hmem
    exact haddress
  · intro address time htime
    dsimp only [Watch.settling, Engine.settled] at htime ⊢
    rw [haddress] at htime
    by_cases heq : address = state.address
    · subst heq
      rw [Function.update_self] at htime
      cases htime
    · rw [Function.update_of_ne heq] at htime ⊢
      exact h.dials address time htime

/-- A link that settles is followed. -/
theorem Tracked.settle (hphase : state.phase.interface = none)
    (receiving : Option Nat) (greeting : Greeting) (helloSentAtUnix : ℚ) :
    Follows receiving clock w (e.settle link greeting helloSentAtUnix) := by
  by_cases hsame : greeting.identity = e.identity
  · unfold Engine.settle
    rw [if_pos hsame]
    exact h.close receiving link _ true
  · obtain ⟨message, hsettle⟩ := settle_only h hlinks greeting helloSentAtUnix hsame
    have hnot := h.not_closed hlinks
    have hregistered := h.registered_only hlinks
    have hsettled := h.settled_only hlinks
    rw [hphase] at hregistered hsettled
    rw [hsettle]
    refine ⟨_, ?_, h.settling hlinks greeting.identity⟩
    simp [Runs.exec, Watch.effect, Watch.linkState, Watch.settling, hnot, hregistered, hsettled]

end

theorem Tracked.linkReceived (link : Nat) (characteristic : Characteristic) (bytes : Bytes) :
    Follows (some link) clock w (e.linkReceived link characteristic bytes) := by
  unfold Engine.linkReceived
  split
  · exact h.log _ _ _
  · rename_i state hget
    have hlinks := h.only hget
    cases characteristic with
    | data => exact h.dataReceived hlinks bytes
    | control =>
        dsimp only
        unfold Engine.controlReceived
        split
        · split
          · rename_i hphase
            exact h.settle hlinks (by rw [hphase]; rfl) _ _ _
          · exact h.close _ link _ true
          · exact h.log _ _ _
        · exact h.close _ link _ true
        · exact h.close _ link _ true
        · exact h.close _ link _ true

/-- What `next_write` does is in place on a link that was not closed. -/
theorem Tracked.nextWrite (hlinks : e.links = [(link, state)])
    (receiving : Option Nat) (nowUnix : ℚ) :
    Runs.exec (Watch.effect receiving) w (nextWrite link state nowUnix).1.toList = some w ∧
      (nextWrite link state nowUnix).2.address = state.address ∧
      (nextWrite link state nowUnix).2.phase = state.phase := by
  have hnot := h.not_closed hlinks
  unfold Ble.nextWrite
  split
  · exact ⟨rfl, rfl, rfl⟩
  · split
    · exact ⟨rfl, rfl, rfl⟩
    · refine ⟨?_, rfl, rfl⟩
      simp only [Option.toList, Runs.exec, Watch.effect, if_neg hnot, Option.bind_some]

theorem Tracked.linkWriteDone (receiving : Option Nat) (link : Nat)
    (ok : Bool) (nowUnix : ℚ) : Follows receiving clock w (e.linkWriteDone link ok nowUnix) := by
  unfold Engine.linkWriteDone
  split
  · exact h.same receiving
  · rename_i state hget
    have hlinks := h.only hget
    split
    · exact h.log _ _ _
    · rename_i done hflight
      have htracked := h.put hlinks { state with inFlight := none } rfl rfl
      have hdone := put_only { state with inFlight := none } hlinks
      dsimp only
      split
      · exact htracked.close receiving link _ true
      · obtain ⟨hexec, haddress, hphase⟩ := htracked.nextWrite hdone receiving nowUnix
        have hlate : Runs.exec (Watch.effect receiving) w
            (if done.handshake then [] else [.checkLate "prns_ble.write" done.sentAtUnix]) =
              some w := by
          split <;> rfl
        refine ⟨w, ?_, htracked.put hdone _ haddress (congrArg Phase.interface hphase)⟩
        dsimp only
        rw [Runs.exec_append_of_eq hlate]
        exact hexec

theorem Tracked.sendPacket (receiving : Option Nat) (link : Nat) (packet : Bytes) (nowUnix : ℚ) :
    Follows receiving clock w (e.sendPacket link packet nowUnix).2 := by
  unfold Engine.sendPacket
  split
  · exact h.log _ _ _
  · rename_i state hget
    have hlinks := h.only hget
    split
    · split
      · exact h.log _ _ _
      split
      · exact h.log _ _ _
      · have hqueued := h.put hlinks
          { state with tx := state.tx ++ [fragments packet state.fragmentSize] } rfl rfl
        obtain ⟨hexec, haddress, hphase⟩ :=
          hqueued.nextWrite (put_only _ hlinks) receiving nowUnix
        exact ⟨w, hexec, h.put hlinks _ haddress (congrArg Phase.interface hphase)⟩
    · exact h.log _ _ _

theorem Tracked.linkClosed (receiving : Option Nat) (link : Nat) :
    Follows receiving clock w (e.linkClosed link clock) := by
  unfold Engine.linkClosed
  split
  · exact h.same receiving
  · split
    · exact h.failDial receiving link _
    · exact h.close receiving link _ false

end

/-! ## Events of all links -/

section

variable (h : Tracked e clock w)

include h

/-- There is one link at most. -/
theorem Tracked.links_cases :
    e.links = [] ∨ ∃ link state, e.links = [(link, state)] := by
  have hone := h.links
  cases hlinks : e.links with
  | nil => exact .inl rfl
  | cons entry rest =>
      rw [hlinks] at hone
      obtain rfl := List.eq_nil_of_length_eq_zero (Nat.le_zero.mp (Nat.le_of_succ_le_succ hone))
      exact .inr ⟨entry.1, entry.2, rfl⟩

theorem Tracked.expire (receiving : Option Nat) :
    Follows receiving clock w (e.expire clock) := by
  unfold Engine.expire
  obtain hlinks | ⟨link, state, hlinks⟩ := h.links_cases
  · rw [hlinks]
    exact h.same receiving
  · rw [hlinks, List.filterMap_cons]
    dsimp only
    cases Engine.expired clock state.phase with
    | none => exact h.same receiving
    | some dialing =>
        dsimp only [Option.map_some, List.filterMap_nil, List.foldl_cons, List.foldl_nil]
        rw [List.nil_append]
        unfold Engine.expireLink
        split
        · exact (h.failDial receiving link _).disconnect link
        · exact h.close receiving link _ true

/-- The effects of `close_all` are followed, and what the host knows of scanning may be old after
them. -/
theorem Tracked.closeAll (receiving : Option Nat) :
    Follows receiving clock { w with stopped := w.stopped || !e.links.isEmpty } e.closeAll := by
  unfold Engine.closeAll
  obtain hlinks | ⟨link, state, hlinks⟩ := h.links_cases
  · rw [hlinks]
    refine ⟨w, ?_, h⟩
    simp
  · have hseen : Tracked e clock { w with stopped := true } :=
      { h with lastScan := fun hstopped => by cases hstopped }
    have hclose := close_only hlinks (h.scanning_only hlinks) "Bluetooth stopped" true
    have hfilter : (e.close link "Bluetooth stopped" true).1.filter
        (fun effect => !Engine.isScan effect) =
          (Engine.closedPhase state.phase).1 ++ (if true then [.disconnect link] else []) ++
            [.state link .closed (Engine.closedPhase state.phase).2.1
              (Engine.closedPhase state.phase).2.2,
              .log .notice (linkText link ("closed, " ++ "Bluetooth stopped"))] := by
      rw [hclose]
      cases state.phase <;> rfl
    rw [hlinks]
    simp only [List.map_cons, List.map_nil, List.foldl_cons, List.foldl_nil, List.nil_append]
    rw [hfilter, hclose]
    refine ⟨_, ?_, hseen.closing hlinks w.lastScan true fun hstopped => by cases hstopped⟩
    dsimp only
    rw [Bool.or_comm]
    exact exec_closed hseen hlinks receiving true _

/-- An address that may be dialled was not dialled just before. -/
theorem Tracked.rested {address : String}
    (hretry : ¬ (e.retryAfter address).any (fun after => clock < after) = true) :
    ¬ (w.lastDial address).any (fun time => clock < time + dialFailedRetry) = true := by
  have hdials := h.dials address
  generalize dialFailedRetry = retry at hdials ⊢
  cases hdial : w.lastDial address with
  | none => exact Bool.false_ne_true
  | some time =>
      obtain ⟨-, hpassed⟩ := hdials time hdial
      rw [Option.any_some, decide_eq_true_eq, Nat.not_lt]
      rcases hpassed with hpassed | ⟨after, hafter, hless⟩
      · exact hpassed
      · rw [hafter, Option.any_some, decide_eq_true_eq] at hretry
        exact hless.trans (Nat.le_of_not_lt hretry)

end

theorem dialFailedRetry_le : dialFailedRetry ≤ dialRetry :=
  Nat.mul_le_mul_right second (by decide)

/-- The engine after a dial, when it had no link. -/
theorem scanEffect_dial (hlinks : e.links = []) (hscanning : e.scanning = true)
    (retryAfter : String → Option Nat) (next : Nat) (state : Link) :
    Engine.scanEffect { e with
        retryAfter := retryAfter, nextLink := next, links := Assoc.put e.links link state } =
      ([.scan false], { e with
        retryAfter := retryAfter, nextLink := next, links := [(link, state)]
        scanning := false }) := by
  unfold Engine.scanEffect
  rw [hlinks, hscanning]
  rfl

/-- What was seen goes with the engine after a dial. -/
theorem Tracked.dialled (h : Tracked e clock w) (hlinks : e.links = []) (state : Link)
    (hinterface : state.phase.interface = none) :
    Tracked
      { e with
        retryAfter := Function.update
          (fun other => (e.retryAfter other).filter fun after => clock < after)
          state.address (some (clock + dialRetry))
        nextLink := e.nextLink + 1
        links := [(e.nextLink, state)]
        scanning := false }
      clock
      { w with
        lastScan := false, stopped := false
        addressOf := Function.update w.addressOf e.nextLink state.address
        lastDial := Function.update w.lastDial state.address (some clock) } := by
  have hregistered := h.registered
  have hsettled := h.settled
  rw [hlinks] at hregistered hsettled
  constructor
  · exact le_rfl
  · intro entry hmem
    obtain rfl := List.mem_singleton.mp hmem
    exact Nat.lt_succ_self _
  · intro other hother
    have hless := (h.closed other hother).1
    refine ⟨hless.trans (Nat.lt_succ_self _), fun entry hmem => ?_⟩
    obtain rfl := List.mem_singleton.mp hmem
    exact hless.ne'
  · dsimp only
    rw [hregistered, List.filterMap_cons, hinterface]
  · dsimp only
    rw [hsettled, List.filterMap_cons, hinterface]
    rfl
  · rfl
  · exact fun _ => rfl
  · intro entry hmem
    obtain rfl := List.mem_singleton.mp hmem
    exact Function.update_self _ _ _
  · intro address time htime
    dsimp only at htime ⊢
    have hle := dialFailedRetry_le
    have hdials := h.dials address time
    generalize dialFailedRetry = failed at hle hdials ⊢
    by_cases heq : address = state.address
    · rw [heq, Function.update_self] at htime
      cases htime
      refine ⟨le_rfl, .inr ⟨_, ?_, Nat.add_le_add_left hle _⟩⟩
      rw [heq]
      exact Function.update_self _ _ _
    · rw [Function.update_of_ne heq] at htime
      obtain ⟨hbefore, hpassed⟩ := hdials htime
      refine ⟨hbefore, ?_⟩
      rcases hpassed with hpassed | ⟨after, hafter, hless⟩
      · exact .inl hpassed
      · rcases Nat.lt_or_ge clock after with hlater | hpast
        · refine .inr ⟨after, ?_, hless⟩
          rw [Function.update_of_ne heq, hafter, Option.filter_some, if_pos]
          exact decide_eq_true hlater
        · exact .inl (hless.trans hpast)

/-- A link that is dialled is followed, and its address was not dialled just before. -/
theorem Tracked.sighted (h : Tracked e clock w) (receiving : Option Nat) (address : String)
    (companyId : UInt16) (data : Bytes) (nowUnix : ℚ) :
    ∃ w', w.dial address clock (e.sighted address companyId data clock nowUnix).1 = some w' ∧
      Follows receiving clock w' (e.sighted address companyId data clock nowUnix).2 := by
  unfold Engine.sighted
  split
  · exact ⟨w, rfl, h.same receiving⟩
  split
  · exact ⟨w, rfl, h.same receiving⟩
  rename_i hfree
  push Not at hfree
  obtain ⟨hroom, -, hretry⟩ := hfree
  have hlinks : e.links = [] := List.eq_nil_of_length_eq_zero (Nat.lt_one_iff.mp hroom)
  have hscanning : e.scanning = true := by
    rw [h.scanning]
    exact decide_eq_true hroom
  have hnot : e.nextLink ∉ w.closed := fun hmem => (h.closed _ hmem).1.ne rfl
  dsimp only
  rw [scanEffect_dial hlinks hscanning]
  refine ⟨_, if_neg (h.rested hretry), _, ?_, h.dialled hlinks
    { address := address, fragmentSize := 0
      phase := .dialing nowUnix (clock + dialCeiling)
      tx := [], inFlight := none, reassembler := .empty, badFragments := 0 } rfl⟩
  simp only [List.cons_append, List.nil_append, Runs.exec, Watch.effect, if_neg hnot,
    Watch.linkState, Option.bind_some]

/-! ## Runs -/

/-- What was seen goes with the engine, and nothing was out of place. -/
def Hosted.Kept (w : Hosted) : Prop :=
  ∃ watch, w.watch = some watch ∧ Tracked w.engine w.clock watch

theorem Tracked.handle (h : Tracked e clock w) (event : HostEvent)
    (htime : ∀ now, event.time = some now → now = clock) :
    ∃ w', w.event e event = some w' ∧
      Follows event.receiving clock w' (e.handle event) := by
  cases event with
  | sighted address companyId data now nowUnix =>
      obtain rfl := htime now rfl
      exact h.sighted none address companyId data nowUnix
  | linkReady link maxWriteLen now nowUnix =>
      obtain rfl := htime now rfl
      exact ⟨w, rfl, h.linkReady none link maxWriteLen nowUnix⟩
  | linkReceived link characteristic bytes =>
      exact ⟨w, rfl, h.linkReceived link characteristic bytes⟩
  | linkWriteDone link ok nowUnix => exact ⟨w, rfl, h.linkWriteDone none link ok nowUnix⟩
  | sendPacket link packet nowUnix => exact ⟨w, rfl, h.sendPacket none link packet nowUnix⟩
  | linkClosed link now =>
      obtain rfl := htime now rfl
      exact ⟨w, rfl, h.linkClosed none link⟩
  | expire now =>
      obtain rfl := htime now rfl
      exact ⟨w, rfl, h.expire none⟩
  | closeAll => exact ⟨_, rfl, h.closeAll none⟩

theorem Hosted.kept_step {w w' : Hosted} {event : HostEvent} (h : w.Kept)
    (hstep : w.step event = some w') : w'.Kept := by
  obtain ⟨watch, hwatch, htracked⟩ := h
  unfold Hosted.step at hstep
  split at hstep
  · cases hstep
  · rename_i hnow
    cases hstep
    have hlater : w.clock ≤ event.time.getD w.clock := by
      cases htime : event.time with
      | none => exact le_rfl
      | some now =>
          rw [htime, Option.any_some, decide_eq_true_eq] at hnow
          exact Nat.le_of_not_lt hnow
    obtain ⟨seen, hseen, after, hexec, hafter⟩ :=
      (htracked.later hlater).handle event fun now htime => by rw [htime]; rfl
    refine ⟨after, ?_, hafter⟩
    dsimp only
    rw [hwatch, Option.bind_some, hseen, Option.bind_some, hexec]

theorem Hosted.Kept.orderly {w : Hosted} (h : w.Kept) : w.Orderly := by
  obtain ⟨watch, hwatch, htracked⟩ := h
  exact ⟨watch, hwatch, htracked.links, fun hstopped =>
    (htracked.lastScan hstopped).trans htracked.scanning⟩

/-- Over any run of events no effect is out of place: each interface is registered and
deregistered in turn and handed over in between, a closed link is not heard of again, packets come
in on settled links only, no address is dialled too soon, there are never too many links, and the
last scan effect says whether there could be another, unless `close_all` has closed a link since. -/
theorem orderly_run (identity : Bytes.Block 16) (endpoint : Endpoint) (clock : Nat)
    (events : List HostEvent) :
    Runs.Always Hosted.step Hosted.Orderly (Hosted.start identity endpoint clock) events := by
  intro done w _ hexec
  have hstart : (Hosted.start identity endpoint clock).Kept :=
    ⟨Watch.start, rfl, tracked_start identity endpoint clock⟩
  have hkept := Runs.invariant_of_step (fun _ _ _ => Hosted.kept_step) hstart hexec
  exact hkept.orderly

/-- A node is dialled and everything is closed; no scan effect has come since the dial. -/
def closedDial : List HostEvent :=
  [.sighted "node" 0xFFFF [0x03, 0x01] 0 0, .closeAll]

/-- After `close_all` the last scan effect may not say that there could be another link. -/
theorem orderly_always_false :
    ¬ ∀ (identity : Bytes.Block 16) (endpoint : Endpoint) (clock : Nat) (events : List HostEvent),
      Runs.Always Hosted.step Hosted.OrderlyAlways (Hosted.start identity endpoint clock)
        events := by
  intro hall
  have h := hall ⟨List.replicate 16 0, rfl⟩ ⟨1, 0⟩ 0 closedDial
  have hexec : ∃ w, Runs.exec Hosted.step
      (Hosted.start ⟨List.replicate 16 0, rfl⟩ ⟨1, 0⟩ 0) closedDial = some w ∧
      w.watch.map (·.lastScan) = some false ∧ w.engine.links = [] :=
    ⟨_, rfl, rfl, rfl⟩
  obtain ⟨w, hexec, hscan, hlinks⟩ := hexec
  obtain ⟨watch, hwatch, -, hlast⟩ := h closedDial w (List.prefix_refl _) hexec
  rw [hwatch, Option.map_some, hlast, hlinks] at hscan
  cases hscan

end Reticulum.Ble
