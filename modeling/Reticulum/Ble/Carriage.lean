import Mathlib.Algebra.GroupWithZero.Nat
import Reticulum.Ble.Engine
import Reticulum.Ble.Reassembly

/-!
# Packets over a Bluetooth link

The packets that `send_packet` accepts on a settled link are cut into fragments that wait
in a queue, and one is written at a time: `Carries` says what the writes come to when
they are fed to a reassembler. `carries_run` is about every run of sends and completed
writes.

## Implementation notes

`partly` is what remains of a packet of which some fragments were written. A write of
the Hello that is not completed when the link settles counts as outstanding.
-/

namespace Reticulum.Ble

/-- The bytes of the data writes on a link. -/
def dataWrites (link : Nat) (effects : List Effect) : List Bytes :=
  effects.filterMap fun effect => match effect with
    | .write written .data bytes => if written = link then some bytes else none
    | _ => none

/-- A link of an engine, the data writes that were issued on it, the packets that were accepted for
it, and how many writes are not completed. -/
structure Carriage where
  engine : Engine
  issued : List Bytes
  accepted : List Bytes
  outstanding : Nat

/-- What happens on the link. -/
inductive CarriageEvent
  | sendPacket (packet : Bytes) (nowUnix : ℚ)
  | writeDone (nowUnix : ℚ)

namespace Carriage

/-- The link after an event. -/
def step (link : Nat) (w : Carriage) : CarriageEvent → Option Carriage
  | .sendPacket packet nowUnix =>
      let result := w.engine.sendPacket link packet nowUnix
      let writes := dataWrites link result.2.1
      some
        { engine := result.2.2
          issued := w.issued ++ writes
          accepted := if result.1 then w.accepted ++ [packet] else w.accepted
          outstanding := w.outstanding + writes.length }
  | .writeDone nowUnix =>
      let result := w.engine.linkWriteDone link true nowUnix
      let writes := dataWrites link result.1
      some
        { w with
          engine := result.2
          issued := w.issued ++ writes
          outstanding := w.outstanding - 1 + writes.length }

/-- The packets that come out when the writes are fed to a reassembler. -/
def delivered (w : Carriage) : List Bytes := (Reassembler.empty.receiveAll w.issued).1

/-- At most one write is outstanding, each fits a fragment, and they carry the accepted packets, in
order and each once: all of them when no write is outstanding, which enough completed writes
bring about. -/
structure Carries (link fragmentSize : Nat) (w : Carriage) : Prop where
  outstanding : w.outstanding ≤ 1
  size : ∀ bytes ∈ w.issued, bytes.length ≤ fragmentSize
  delivered : w.delivered <+: w.accepted
  all : w.outstanding = 0 → w.delivered = w.accepted
  drains : ∃ count w', Runs.exec (step link) w (List.replicate count (.writeDone 0)) = some w' ∧
    w'.outstanding = 0 ∧ w'.accepted = w.accepted

/-- A link that has settled and sent nothing yet. -/
structure JustSettled (link fragmentSize : Nat) (w : Carriage) : Prop where
  settled : ∃ state, Assoc.get w.engine.links link = some state ∧
    (∃ peer interface, state.phase = .settled peer interface) ∧
    state.fragmentSize = fragmentSize ∧ state.tx = [] ∧
    w.outstanding = if state.inFlight.isSome then 1 else 0
  size : fragmentHeaderLen < fragmentSize ∧ fragmentSize ≤ maxFragment
  issued : w.issued = []
  accepted : w.accepted = []

end Carriage

/-! ## The queue -/

/-- A queue of fragments carries packets to a reassembler: of the first packet so many fragments
have been fed, and those of the others all wait. -/
inductive Queued (fragmentSize : Nat) (r : Reassembler) : List (List Bytes) → List Bytes → Prop
  | idle : Queued fragmentSize r [] []
  | partly {packet : Bytes} {packets : List Bytes} {count : Nat}
      (hlength : ∀ p ∈ packet :: packets, p.length ≤ hwMtu)
      (hcount : count < fragmentTotal packet (fragmentCap fragmentSize))
      (hr : count = 0 ∨ r = Reassembler.partway packet (fragmentCap fragmentSize) count) :
      Queued fragmentSize r
        ((fragments packet fragmentSize).drop count :: packets.map (fragments · fragmentSize))
        (packet :: packets)

variable {fragmentSize : Nat} {r : Reassembler} {tx : List (List Bytes)} {packets : List Bytes}

/-- The queue of packets of which nothing was written. -/
theorem queued_map (r : Reassembler) (h : ∀ p ∈ packets, p.length ≤ hwMtu) :
    Queued fragmentSize r (packets.map (fragments · fragmentSize)) packets := by
  cases packets with
  | nil => exact .idle
  | cons packet packets => exact .partly h (fragmentTotal_pos _ _) (.inl rfl)

/-- A packet is put at the end of the queue. -/
theorem Queued.append (h : Queued fragmentSize r tx packets) {packet : Bytes}
    (hlength : packet.length ≤ hwMtu) :
    Queued fragmentSize r (tx ++ [fragments packet fragmentSize]) (packets ++ [packet]) := by
  cases h with
  | idle =>
      exact queued_map r fun p hp => by rwa [List.mem_singleton.mp hp]
  | @partly first rest count hlengths hcount hr =>
      have hall : ∀ p ∈ first :: (rest ++ [packet]), p.length ≤ hwMtu := by
        intro p hp
        rw [← List.cons_append] at hp
        rcases List.mem_append.mp hp with hp | hp
        · exact hlengths p hp
        · rwa [List.mem_singleton.mp hp]
      have hqueued := Queued.partly hall hcount hr
      rw [List.map_append] at hqueued
      exact hqueued

theorem drop_fragments {packet : Bytes} {count : Nat}
    (h : count < fragmentTotal packet (fragmentCap fragmentSize)) :
    (fragments packet fragmentSize).drop count =
      fragment packet (fragmentCap fragmentSize) (fragmentTotal packet (fragmentCap fragmentSize))
        count :: (fragments packet fragmentSize).drop (count + 1) := by
  unfold fragments
  dsimp only
  rw [List.drop_eq_getElem_cons (by simpa using h)]
  simp

/-- The next fragment is taken from the queue, and fed. -/
theorem Queued.take (h : Queued fragmentSize r tx packets)
    (hsize : fragmentHeaderLen < fragmentSize) (htx : tx ≠ []) :
    ∃ bytes rest, takeFragment tx = (some bytes, rest) ∧ bytes.length ≤ fragmentSize ∧
      (rest.map List.length).sum + 1 = (tx.map List.length).sum ∧
      ∃ packets', packets = (r.receive bytes).1.toList ++ packets' ∧
        Queued fragmentSize (r.receive bytes).2 rest packets' := by
  cases h with
  | idle => exact absurd rfl htx
  | @partly packet packets count hlengths hcount hr =>
      have hcap := fragmentCap_pos fragmentSize
      have hlength := hlengths packet List.mem_cons_self
      obtain ⟨hlast, hmiddle⟩ := Reassembler.receive_fragment hcap hlength hcount hr
      have hdrop := drop_fragments hcount
      have hcountLeft : ((fragments packet fragmentSize).drop (count + 1)).length =
          fragmentTotal packet (fragmentCap fragmentSize) - (count + 1) := by
        simp [fragments]
      rw [hdrop, takeFragment]
      refine ⟨_, _, rfl, length_fragment_le packet hsize _ _, ?_, ?_⟩
      · split
        · rename_i hempty
          rw [List.isEmpty_iff.mp hempty]
          simp
          omega
        · simp
          omega
      · by_cases hend : count + 1 = fragmentTotal packet (fragmentCap fragmentSize)
        · have hempty : ((fragments packet fragmentSize).drop (count + 1)).isEmpty = true := by
            rw [List.isEmpty_iff_length_eq_zero, hcountLeft]
            omega
          rw [hempty, if_pos rfl, hlast hend]
          exact ⟨packets, rfl, queued_map _ fun p hp => hlengths p (List.mem_cons_of_mem _ hp)⟩
        · have hmore : ((fragments packet fragmentSize).drop (count + 1)).isEmpty = false := by
            rw [Bool.eq_false_iff, ne_eq, List.isEmpty_iff_length_eq_zero, hcountLeft]
            omega
          rw [hmore, if_neg Bool.false_ne_true, hmiddle hend]
          exact ⟨packet :: packets, rfl, .partly hlengths (by omega) (.inr rfl)⟩

/-- Writes that a link has outstanding. -/
def Link.writing (state : Link) : Nat := if state.inFlight.isSome then 1 else 0

/-- Fragments that wait on a link. -/
def Link.waiting (state : Link) : Nat := (state.tx.map List.length).sum

/-- What `next_write` writes goes on from what was fed. -/
theorem nextWrite_spec (link : Nat) (state : Link) (nowUnix : ℚ)
    (hsize : fragmentHeaderLen < fragmentSize) (h : Queued fragmentSize r state.tx packets) :
    let result := nextWrite link state nowUnix
    let writes := dataWrites link result.1.toList
    (∀ bytes ∈ writes, bytes.length ≤ fragmentSize) ∧
      (∃ packets', Queued fragmentSize (r.receiveAll writes).2 result.2.tx packets' ∧
        packets = (r.receiveAll writes).1 ++ packets') ∧
      result.2.phase = state.phase ∧ result.2.fragmentSize = state.fragmentSize ∧
      (result.2.inFlight = none → result.2.tx = []) ∧
      state.writing + writes.length = result.2.writing ∧
      result.2.waiting + writes.length = state.waiting := by
  dsimp only
  unfold nextWrite
  cases hflight : state.inFlight with
  | some flight =>
      rw [Option.isSome_some, if_pos rfl]
      refine ⟨fun _ hmem => (by cases hmem), ⟨packets, h, rfl⟩, rfl, rfl, fun hnone => ?_, rfl, rfl⟩
      exact absurd (hflight.symm.trans hnone) (Option.some_ne_none flight)
  | none =>
      rw [Option.isSome_none, if_neg Bool.false_ne_true]
      by_cases htx : state.tx = []
      · rw [htx] at h ⊢
        rw [takeFragment]
        refine ⟨fun _ hmem => (by cases hmem), ⟨packets, h, rfl⟩, rfl, rfl, fun _ => rfl, ?_, ?_⟩
        · simp [Link.writing, dataWrites, hflight]
        · simp [Link.waiting, dataWrites, htx]
      · obtain ⟨bytes, rest, htake, hlength, hcount, packets', hpackets, hqueued⟩ := h.take hsize htx
        have hwrites : dataWrites link [Effect.write link .data bytes] = [bytes] := by
          simp [dataWrites]
        have hreceive : r.receiveAll [bytes] = ((r.receive bytes).1.toList, (r.receive bytes).2) := by
          simp [Reassembler.receiveAll]
        rw [htake]
        dsimp only [Option.toList]
        rw [hwrites, hreceive]
        refine ⟨fun b hmem => ?_, ⟨packets', hqueued, hpackets⟩, rfl, rfl, fun hnone => ?_, ?_, hcount⟩
        · rwa [List.mem_singleton.mp hmem]
        · cases hnone
        · simp [Link.writing, hflight]

namespace Carriage

variable {link : Nat} {w : Carriage}

/-- What a run keeps, with the state of the link: the queue goes on where the writes end. -/
structure Carrying (link fragmentSize : Nat) (w : Carriage) (state : Link) : Prop where
  found : Assoc.get w.engine.links link = some state
  settled : ∃ peer interface, state.phase = .settled peer interface
  same : state.fragmentSize = fragmentSize
  outstanding : w.outstanding = state.writing
  idle : state.inFlight = none → state.tx = []
  queued : ∃ packets, Queued fragmentSize (Reassembler.empty.receiveAll w.issued).2 state.tx packets ∧
    w.accepted = w.delivered ++ packets
  size : ∀ bytes ∈ w.issued, bytes.length ≤ fragmentSize

theorem JustSettled.carrying (h : JustSettled link fragmentSize w) :
    ∃ state, Carrying link fragmentSize w state := by
  obtain ⟨state, hfound, hsettled, hsize, htx, houtstanding⟩ := h.settled
  refine ⟨state, hfound, hsettled, hsize, houtstanding, fun _ => htx, ⟨[], ?_, ?_⟩, ?_⟩
  · rw [htx]
    exact .idle
  · rw [delivered, h.issued, h.accepted]
    rfl
  · rw [h.issued]
    intro bytes hmem
    cases hmem

/-- The link after `next_write`, when the packets of its queue were accepted. -/
theorem Carrying.write (state : Link) (engine : Engine) (accepted : List Bytes) (nowUnix : ℚ)
    {packets : List Bytes} (hsize : fragmentHeaderLen < fragmentSize)
    (hsettled : ∃ peer interface, state.phase = .settled peer interface)
    (hfragment : state.fragmentSize = fragmentSize)
    (hqueued : Queued fragmentSize (Reassembler.empty.receiveAll w.issued).2 state.tx packets)
    (haccepted : accepted = w.delivered ++ packets)
    (hissued : ∀ bytes ∈ w.issued, bytes.length ≤ fragmentSize)
    (hfound : Assoc.get engine.links link = some (nextWrite link state nowUnix).2) :
    Carrying link fragmentSize
        { engine := engine
          issued := w.issued ++ dataWrites link (nextWrite link state nowUnix).1.toList
          accepted := accepted
          outstanding :=
            state.writing + (dataWrites link (nextWrite link state nowUnix).1.toList).length }
        (nextWrite link state nowUnix).2 := by
  obtain ⟨hwrites, ⟨packets', hqueued', hpackets⟩, hphase, hsame, hidle, hwriting, -⟩ :=
    nextWrite_spec link state nowUnix hsize hqueued
  have hreceived := Reassembler.receiveAll_append .empty w.issued
    (dataWrites link (nextWrite link state nowUnix).1.toList)
  refine ⟨hfound, ?_, hsame.trans hfragment, hwriting, hidle, ⟨packets', ?_, ?_⟩, ?_⟩
  · rw [hphase]
    exact hsettled
  · dsimp only
    rw [hreceived]
    exact hqueued'
  · dsimp only [delivered]
    rw [hreceived, haccepted, hpackets, List.append_assoc]
    rfl
  · intro bytes hmem
    rcases List.mem_append.mp hmem with hmem | hmem
    · exact hissued bytes hmem
    · exact hwrites bytes hmem

theorem dataWrites_append (link : Nat) (first rest : List Effect) :
    dataWrites link (first ++ rest) = dataWrites link first ++ dataWrites link rest :=
  List.filterMap_append ..

/-- A packet that is sent is refused, or put at the end of the queue. -/
theorem Carrying.sendPacket {state : Link} (h : Carrying link fragmentSize w state)
    (hsize : fragmentHeaderLen < fragmentSize) (packet : Bytes) (nowUnix : ℚ) :
    ∃ w' state', step link w (.sendPacket packet nowUnix) = some w' ∧
      Carrying link fragmentSize w' state' := by
  obtain ⟨peer, interface, hphase⟩ := h.settled
  obtain ⟨packets, hqueued, haccepted⟩ := h.queued
  have hrefused : ∀ level message, w.engine.sendPacket link packet nowUnix =
      (false, [.log level message], w.engine) →
      ∃ w' state', step link w (.sendPacket packet nowUnix) = some w' ∧
        Carrying link fragmentSize w' state' := by
    intro level message hresult
    refine ⟨w, state, ?_, h⟩
    unfold step
    dsimp only
    rw [hresult]
    simp [dataWrites]
  by_cases hlong : hwMtu < packet.length
  · apply hrefused
    unfold Engine.sendPacket
    rw [h.found]
    dsimp only
    rw [hphase]
    exact if_pos hlong
  by_cases hfull : maxQueuedPackets ≤ state.tx.length
  · apply hrefused
    unfold Engine.sendPacket
    rw [h.found]
    dsimp only
    rw [hphase]
    dsimp only
    rw [if_neg hlong, if_pos hfull]
  · have hresult : w.engine.sendPacket link packet nowUnix =
        (true, (nextWrite link
          { state with tx := state.tx ++ [fragments packet fragmentSize] } nowUnix).1.toList,
          { w.engine with links := Assoc.put w.engine.links link (nextWrite link
            { state with tx := state.tx ++ [fragments packet fragmentSize] } nowUnix).2 }) := by
      unfold Engine.sendPacket
      rw [h.found]
      dsimp only
      rw [hphase]
      dsimp only
      rw [if_neg hlong, if_neg hfull, h.same]
    have hcarrying := Carrying.write
      { state with tx := state.tx ++ [fragments packet fragmentSize] }
      { w.engine with links := Assoc.put w.engine.links link (nextWrite link
        { state with tx := state.tx ++ [fragments packet fragmentSize] } nowUnix).2 }
      (w.accepted ++ [packet]) nowUnix hsize ⟨peer, interface, hphase⟩ h.same
      (hqueued.append (Nat.le_of_not_lt hlong)) (by rw [haccepted, List.append_assoc]) h.size
      Assoc.get_put_self
    refine ⟨_, _, ?_, hcarrying⟩
    unfold step
    dsimp only
    rw [hresult, h.outstanding]
    rfl

/-- A write that is completed makes room for the next. -/
theorem Carrying.writeDone {state : Link} (h : Carrying link fragmentSize w state)
    (hsize : fragmentHeaderLen < fragmentSize) (nowUnix : ℚ) :
    ∃ w' state', step link w (.writeDone nowUnix) = some w' ∧
      Carrying link fragmentSize w' state' ∧ w'.accepted = w.accepted ∧
      (w.outstanding ≠ 0 → state'.waiting + state'.writing < state.waiting + state.writing) := by
  obtain ⟨packets, hqueued, haccepted⟩ := h.queued
  cases hflight : state.inFlight with
  | none =>
      have hresult : w.engine.linkWriteDone link true nowUnix =
          ([.log .warning (linkText link "write completion with no write outstanding")],
            w.engine) := by
        unfold Engine.linkWriteDone
        rw [h.found]
        dsimp only
        rw [hflight]
      have hzero : w.outstanding = 0 := by
        rw [h.outstanding, Link.writing, hflight]
        rfl
      refine ⟨w, state, ?_, h, rfl, fun hne => absurd hzero hne⟩
      have hnothing : dataWrites link
          [.log .warning (linkText link "write completion with no write outstanding")] = [] := rfl
      unfold step
      dsimp only
      rw [hresult, hnothing, List.append_nil, hzero]
      exact congrArg some (congrArg (Carriage.mk w.engine w.issued w.accepted) hzero.symm)
  | some flight =>
      let done : Link := { state with inFlight := none }
      let engine : Engine := { w.engine with
        links := Assoc.put (Assoc.put w.engine.links link done) link (nextWrite link done nowUnix).2 }
      have hresult : w.engine.linkWriteDone link true nowUnix =
          ((if flight.handshake then [] else [.checkLate "prns_ble.write" flight.sentAtUnix]) ++
            (nextWrite link done nowUnix).1.toList, engine) := by
        unfold Engine.linkWriteDone
        rw [h.found]
        dsimp only
        rw [hflight]
        dsimp only
        rw [Bool.not_true, if_neg Bool.false_ne_true]
      have hlate : dataWrites link
          (if flight.handshake then [] else [.checkLate "prns_ble.write" flight.sentAtUnix]) =
            [] := by
        split <;> rfl
      have hone : w.outstanding = 1 := by
        rw [h.outstanding, Link.writing, hflight]
        rfl
      have hcarrying := Carrying.write done engine w.accepted nowUnix hsize h.settled h.same hqueued
        haccepted h.size Assoc.get_put_self
      obtain ⟨-, -, -, -, -, hwriting, hwaiting⟩ := nextWrite_spec link done nowUnix hsize
        hqueued
      refine ⟨_, _, ?_, hcarrying, rfl, fun _ => ?_⟩
      · unfold step
        dsimp only
        rw [hresult, dataWrites_append, hlate, List.nil_append, hone]
        rfl
      · have hidle : done.writing = 0 := rfl
        have hbusy : state.writing = 1 := by
          rw [Link.writing, hflight]
          rfl
        have hsame : done.waiting = state.waiting := rfl
        omega

/-- Enough completed writes leave none outstanding. -/
theorem Carrying.drains (hsize : fragmentHeaderLen < fragmentSize) {state : Link}
    (h : Carrying link fragmentSize w state) :
    ∃ count w', Runs.exec (step link) w (List.replicate count (.writeDone 0)) = some w' ∧
      w'.outstanding = 0 ∧ w'.accepted = w.accepted := by
  induction hleft : state.waiting + state.writing using Nat.strong_induction_on generalizing w state
    with
  | _ left ih =>
      by_cases hnone : w.outstanding = 0
      · exact ⟨0, w, rfl, hnone, rfl⟩
      · obtain ⟨w₁, state₁, hstep, h₁, haccepted₁, hless⟩ := h.writeDone hsize 0
        obtain ⟨count, w₂, hrun, hnone₂, haccepted₂⟩ :=
          ih _ (by rw [← hleft]; exact hless hnone) h₁ rfl
        refine ⟨count + 1, w₂, ?_, hnone₂, haccepted₂.trans haccepted₁⟩
        exact Runs.exec_cons_eq_some.mpr ⟨w₁, hstep, hrun⟩

theorem Carrying.carries (hsize : fragmentHeaderLen < fragmentSize) {state : Link}
    (h : Carrying link fragmentSize w state) : Carries link fragmentSize w where
  outstanding := by
    rw [h.outstanding, Link.writing]
    split <;> decide
  size := h.size
  delivered := by
    obtain ⟨packets, -, haccepted⟩ := h.queued
    exact ⟨packets, haccepted.symm⟩
  all := by
    intro hnone
    obtain ⟨packets, hqueued, haccepted⟩ := h.queued
    have hidle : state.inFlight = none := by
      rw [h.outstanding, Link.writing] at hnone
      cases hflight : state.inFlight with
      | none => rfl
      | some flight =>
          rw [hflight] at hnone
          cases hnone
    rw [h.idle hidle] at hqueued
    cases hqueued
    rw [haccepted, List.append_nil]
  drains := h.drains hsize

/-- In every run of sends and completed writes of a link that has just settled, its writes carry the
accepted packets. -/
theorem carries_run (link fragmentSize : Nat) (w : Carriage) (h : JustSettled link fragmentSize w)
    (events : List CarriageEvent) :
    Runs.Always (step link) (Carries link fragmentSize) w events := by
  have hkeep : ∀ (w : Carriage) (event : CarriageEvent) (w' : Carriage),
      (∃ state, Carrying link fragmentSize w state) → step link w event = some w' →
        ∃ state, Carrying link fragmentSize w' state := by
    intro w event w' hw hstep
    obtain ⟨state, hw⟩ := hw
    cases event with
    | sendPacket packet nowUnix =>
        obtain ⟨w₁, state₁, hstep₁, h₁⟩ := hw.sendPacket h.size.1 packet nowUnix
        obtain rfl := Option.some.inj (hstep.symm.trans hstep₁)
        exact ⟨state₁, h₁⟩
    | writeDone nowUnix =>
        obtain ⟨w₁, state₁, hstep₁, h₁, -⟩ := hw.writeDone h.size.1 nowUnix
        obtain rfl := Option.some.inj (hstep.symm.trans hstep₁)
        exact ⟨state₁, h₁⟩
  intro done w' hdone hrun
  obtain ⟨state, hw'⟩ := Runs.invariant_of_step hkeep h.carrying hrun
  exact hw'.carries h.size.1

/-- The writes of a link carry its packets, and a reassembler does what it should with arbitrary
bytes, exactly when it is never fed the fragment that makes the number of the next one overflow. -/
theorem bluetooth_iff (link fragmentSize : Nat) (w : Carriage)
    (h : JustSettled link fragmentSize w) (events : List CarriageEvent) (inputs : List Bytes) :
    Runs.Always (step link) (Carries link fragmentSize) w events ∧
        Runs.Always Feed.step Feed.WellFed Feed.start inputs ↔
      Runs.Meets Feed.step Feed.NoWrap Feed.start inputs :=
  ⟨fun hboth => (Feed.wellFed_iff inputs).mp hboth.2,
    fun hmeets => ⟨carries_run link fragmentSize w h events, (Feed.wellFed_iff inputs).mpr hmeets⟩⟩

/-- A link that has settled, with fragments of at most 20 bytes. -/
def sampleSettled : Carriage where
  engine :=
    { Engine.new ⟨List.replicate 16 1, rfl⟩ ⟨5, 0⟩ with
      links := [(1,
        { address := "node", fragmentSize := 20
          phase := .settled ⟨List.replicate 16 2, rfl⟩ "PrnsBLE"
          tx := [], inFlight := none, reassembler := .empty, badFragments := 0 })] }
  issued := []
  accepted := []
  outstanding := 0

theorem sampleSettled_justSettled : JustSettled 1 20 sampleSettled where
  settled := ⟨_, rfl, ⟨_, _, rfl⟩, rfl, rfl, rfl⟩
  size := by decide
  issued := rfl
  accepted := rfl

/-- A packet is sent in two fragments, and a reassembler is fed them and an empty fragment. -/
theorem bluetooth_iff_sample :
    Runs.Always (step 1) (Carries 1 20) sampleSettled
        [.sendPacket (List.replicate 20 7) 0, .writeDone 0, .writeDone 0] ∧
      Runs.Always Feed.step Feed.WellFed Feed.start
        (fragments (List.replicate 20 7) 20 ++ [Feed.zeroTotal 0]) := by
  refine (bluetooth_iff 1 20 sampleSettled sampleSettled_justSettled _ _).mpr ?_
  refine Runs.meets_of_invariant (I := fun _ => True) (fun _ _ _ _ _ => trivial)
    (fun w bytes _ hseq => Feed.noWrap_of_seq w hseq) trivial
    (Runs.meets_of_forall (by decide) _)

theorem bluetooth_false :
    ¬ ∀ (link fragmentSize : Nat) (w : Carriage) (events : List CarriageEvent)
        (inputs : List Bytes), JustSettled link fragmentSize w →
      Runs.Always (step link) (Carries link fragmentSize) w events ∧
        Runs.Always Feed.step Feed.WellFed Feed.start inputs := by
  intro h
  obtain ⟨w, hrun, hoverflowed⟩ := Feed.exec_zeroTotal_all
  have hwell := (h 1 20 sampleSettled [] ((List.range 65536).map Feed.zeroTotal)
    sampleSettled_justSettled).2 _ w (List.prefix_refl _) hrun
  exact absurd (hoverflowed.symm.trans hwell.nextSeq.2) (by decide)

end Carriage

end Reticulum.Ble
