import Reticulum.Link.Actor

/-!
# The watchdog lock over the runs of a link's actor

A packet that a handler refuses leaves the watchdog lock taken, and then the
watchdog does not run. In a run whose packets are all accepted the lock is free
after every message, and a link that hears nothing more becomes stale and is
torn down.
-/

namespace Reticulum.Link

open Runs

/-- The actor of the modelled link. -/
abbrev LinkActor := Actor Link (Packet × Readings) LinkUpdate

/-- A step of its actor or of a sender. -/
abbrev LinkEvent := ActorEvent (Packet × Readings) LinkUpdate Readings

/-- No handler refuses a packet that the actor takes from its mailbox. -/
def Heeded (c : Crypto) (m : Msgpack) (a : LinkActor) : LinkEvent → Prop
  | .recv _ => ∀ packet rest, a.phase = .idle → a.mailbox = .receive packet :: rest →
      Accepted c m a.link packet.1
  | _ => True

variable {c : Crypto} {m : Msgpack} {a b : LinkActor} {clock : Readings}

/-! ## The lock is free -/

/-- A step that takes no refused packet leaves the lock free. -/
theorem watchdogLock_step {e : LinkEvent} (h : a.link.watchdogLock = false)
    (hok : Heeded c m a e) (hstep : actorStep (linkOps c m) a e = some b) :
    b.link.watchdogLock = false := by
  refine link_step (fun l => l.watchdogLock = false)
    (fun l message => ∀ packet, message = .receive packet → Accepted c m l packet.1)
    ?_ ?_ ?_ ?_ h ?_ hstep
  · intro l l' packet _ haccepted hreceive
    obtain ⟨result, hresult, rfl⟩ := Option.map_eq_some_iff.mp hreceive
    exact (watchdogLock_receive_iff hresult).mpr (haccepted packet rfl)
  · intro l clock hl _
    exact (watchdogLock_teardown _).trans hl
  · intro l l' update hl _ hhandle
    obtain rfl := Option.some.inj hhandle
    exact (update.watchdogLock _).trans hl
  · intro l clock hl _
    exact watchdogLock_watchdog.trans hl
  · rintro _ hmessage packet rfl
    obtain ⟨⟨clock, rfl⟩, hphase, rest, hmailbox⟩ := handled_receive hmessage
    exact hok packet rest hphase hmailbox

/-! ## Silence -/

/-- The actor waits for messages, and none comes. -/
def Waiting (a : LinkActor) : Prop :=
  a.phase = .idle ∧ a.mailbox = [] ∧ a.link.watchdogLock = false

/-- The steps of an actor that only sees its receive time out. -/
def silence (clocks : List Readings) : List LinkEvent := clocks.map .timeout

theorem timeout_step (clock : Readings) (hwaiting : Waiting a) (hopen : a.link.state ≠ .closed) :
    actorStep (linkOps c m) a (.timeout clock) =
      some { a with link := watchdog a.link clock } := by
  obtain ⟨hphase, hmailbox, -⟩ := hwaiting
  have hstate : (linkOps c m).state a.link ≠ .closed := hopen
  simp only [actorStep, hphase, hmailbox, endIteration, if_neg hstate]
  rw [← hphase]
  rfl

/-- An active link becomes stale once its stale time has passed. -/
theorem stale_of_silence {clocks : List Readings} (hwaiting : Waiting a)
    (hstate : a.link.state = .active)
    (hlate : ∃ t ∈ clocks, lastHeard a.link + max a.link.keepalive a.link.staleTime ≤ t.now) :
    ∃ done s rest a', clocks = done ++ s :: rest ∧
      exec (actorStep (linkOps c m)) a (silence (done ++ [s])) = some a' ∧ Waiting a' ∧
      a'.link.state = .stale ∧ a'.link.staleSince = some s.now ∧
      a'.link.staleGrace = s.staleGrace := by
  induction clocks generalizing a with
  | nil =>
      obtain ⟨t, ht, -⟩ := hlate
      cases ht
  | cons s rest ih =>
      have hstep := timeout_step (c := c) (m := m) s hwaiting (by simp [hstate])
      rcases watchdog_active (r := s) hwaiting.2.2 hstate with
        ⟨⟨hlock, hheard, hkeepalive, hstale⟩, hactive, hearly⟩ | ⟨hlock, hstale, hsince, hgrace⟩
      · have hlate' : ∃ t ∈ rest, lastHeard (watchdog a.link s) +
            max (watchdog a.link s).keepalive (watchdog a.link s).staleTime ≤ t.now := by
          obtain ⟨t, ht, hdeadline⟩ := hlate
          rw [hheard, hkeepalive, hstale]
          rcases List.mem_cons.mp ht with rfl | ht
          · exact (hearly hdeadline).elim
          · exact ⟨t, ht, hdeadline⟩
        obtain ⟨done, s', rest', a', hsplit, hrun, hrest⟩ :=
          ih (a := { a with link := watchdog a.link s })
            ⟨hwaiting.1, hwaiting.2.1, hlock.trans hwaiting.2.2⟩ hactive hlate'
        refine ⟨s :: done, s', rest', a', by rw [hsplit]; rfl, ?_, hrest⟩
        exact exec_cons_eq_some.mpr ⟨_, hstep, hrun⟩
      · refine ⟨[], s, rest, _, rfl, exec_cons_eq_some.mpr ⟨_, hstep, rfl⟩,
          ⟨hwaiting.1, hwaiting.2.1, hlock⟩, hstale, hsince, hgrace⟩

/-- A stale link is closed once its grace time has passed. -/
theorem closed_of_silence (clocks : List Readings) {u : Readings} {since : Nat}
    (hwaiting : Waiting a) (hstate : a.link.state = .stale)
    (hsince : a.link.staleSince = some since) (hlate : since + max a.link.staleGrace 1 ≤ u.now) :
    ∃ done a', done <+: clocks ++ [u] ∧
      exec (actorStep (linkOps c m)) a (silence done) = some a' ∧ a'.link.state = .closed := by
  induction clocks with
  | nil =>
      have hstep := timeout_step (c := c) (m := m) u hwaiting (by simp [hstate])
      rcases watchdog_stale (r := u) hwaiting.2.2 hstate hsince with ⟨-, hearly⟩ | hclosed
      · exact (hearly hlate).elim
      · exact ⟨[u], _, List.prefix_refl _, exec_cons_eq_some.mpr ⟨_, hstep, rfl⟩, hclosed⟩
  | cons s rest ih =>
      have hstep := timeout_step (c := c) (m := m) s hwaiting (by simp [hstate])
      rcases watchdog_stale (r := s) hwaiting.2.2 hstate hsince with ⟨hsame, -⟩ | hclosed
      · rw [hsame] at hstep
        obtain ⟨done, a', hdone, hrun, hclosed⟩ := ih
        refine ⟨s :: done, a', ?_, exec_cons_eq_some.mpr ⟨a, hstep, hrun⟩, hclosed⟩
        exact List.cons_prefix_cons.mpr ⟨rfl, hdone⟩
      · refine ⟨[s], _, ?_, exec_cons_eq_some.mpr ⟨_, hstep, rfl⟩, hclosed⟩
        exact List.cons_prefix_cons.mpr ⟨rfl, List.nil_prefix⟩

/-- The lock is released exactly by the packets that no handler refuses. In
every run that takes no refused packet the lock is free, so the watchdog runs,
and a link that hears nothing more becomes stale and is closed. -/
theorem watchdog_of_accepted (c : Crypto) (m : Msgpack) :
    (∀ l packet r result, receive c m l packet r = some result →
      (result.2.watchdogLock = false ↔ Accepted c m l packet)) ∧
    ∀ link linkEstablished es a, link.watchdogLock = false →
      Meets (actorStep (linkOps c m)) (Heeded c m) (Actor.start link linkEstablished) es →
      exec (actorStep (linkOps c m)) (Actor.start link linkEstablished) es = some a →
      a.link.watchdogLock = false ∧
      (∀ clock, (linkOps c m).watchdog a.link clock = actorWatchdogTick a.link clock) ∧
      ∀ clocks u, a.phase = .idle → a.mailbox = [] → a.link.state = .active →
        (∃ t ∈ clocks, lastHeard a.link + max a.link.keepalive a.link.staleTime ≤ t.now) →
        (∀ s ∈ clocks, s.now + max s.staleGrace 1 ≤ u.now) →
        ∃ stale done a₁ a₂, stale <+: clocks ∧
          exec (actorStep (linkOps c m)) a (silence stale) = some a₁ ∧ a₁.link.state = .stale ∧
          done <+: clocks ++ [u] ∧
          exec (actorStep (linkOps c m)) a (silence done) = some a₂ ∧ a₂.link.state = .closed := by
  refine ⟨fun l packet r result h => watchdogLock_receive_iff h, ?_⟩
  intro link linkEstablished es a hlock hok hrun
  have ha : a.link.watchdogLock = false :=
    invariant (fun _ _ _ h hok hstep => watchdogLock_step h hok hstep) hlock hok hrun
  refine ⟨ha, fun clock => if_neg (by simp [ha]), ?_⟩
  intro clocks u hphase hmailbox hstate hlate hgrace
  obtain ⟨done, s, rest, a₁, rfl, hrun₁, hwaiting, hstale, hsince, hstaleGrace⟩ :=
    stale_of_silence (c := c) (m := m) ⟨hphase, hmailbox, ha⟩ hstate hlate
  obtain ⟨done₂, a₂, hdone₂, hrun₂, hclosed⟩ :=
    closed_of_silence (c := c) (m := m) rest (u := u) hwaiting hstale hsince
      (by rw [hstaleGrace]; exact hgrace s (by simp))
  refine ⟨done ++ [s], (done ++ [s]) ++ done₂, a₁, a₂, ?_, hrun₁, hstale, ?_, ?_, hclosed⟩
  · exact ⟨rest, by simp⟩
  · obtain ⟨tail, htail⟩ := hdone₂
    exact ⟨tail, by simp [← htail]⟩
  · unfold silence at hrun₁ ⊢
    rw [List.map_append, exec_append_of_eq hrun₁]
    exact hrun₂

/-! ## A packet that switches the watchdog off -/

/-- An established link of the responder. -/
def sampleResponder : Link :=
  { new false (.key (List.replicate 64 7)) modeDefault [] 0 with
    state := .active, status := .active, activatedAt := some 0
    derivedKey := some (List.replicate 64 0) }

/-- A LINKIDENTIFY packet whose plaintext is one byte long. -/
def sampleIdentify : Packet × Readings :=
  ({ raw := [], header2 := false, packetType := .data, context := Packet.linkIdentify
     data := List.replicate 16 0 ++ [1] ++ List.replicate 32 0 }, sampleReadings)

/-- A keepalive is accepted, and silence then closes the link. -/
theorem watchdog_after_keepalive :
    ∃ a, exec (actorStep (linkOps (sampleCrypto []) sampleMsgpack))
        (Actor.start sampleResponder false)
        [.send (.receive (sampleKeepalive 1)), .recv sampleReadings] = some a ∧
      a.link.watchdogLock = false ∧
      ∃ done a', exec (actorStep (linkOps (sampleCrypto []) sampleMsgpack)) a (silence done) =
        some a' ∧ a'.link.state = .closed := by
  have hok : Meets (actorStep (linkOps (sampleCrypto []) sampleMsgpack))
      (Heeded (sampleCrypto []) sampleMsgpack) (Actor.start sampleResponder false)
      [.send (.receive (sampleKeepalive 1)), .recv sampleReadings] := by
    rintro _ ⟨⟩
    refine ⟨True.intro, ?_⟩
    rintro _ ⟨⟩
    refine ⟨?_, True.intro⟩
    intro packet rest _ hmailbox
    obtain ⟨rfl, -⟩ : sampleKeepalive 1 = packet ∧ [] = rest := by
      simpa [Actor.start] using hmailbox
    refine (watchdogLock_receive_iff (r := sampleReadings) rfl).mp ?_
    rfl
  obtain ⟨a, hrun, hphase, hmailbox, hstate, hlate⟩ :
      ∃ a, exec (actorStep (linkOps (sampleCrypto []) sampleMsgpack))
          (Actor.start sampleResponder false)
          [.send (.receive (sampleKeepalive 1)), .recv sampleReadings] = some a ∧
        a.phase = .idle ∧ a.mailbox = [] ∧ a.link.state = .active ∧
        lastHeard a.link + max a.link.keepalive a.link.staleTime = 730 :=
    ⟨_, rfl, rfl, rfl, rfl, rfl⟩
  obtain ⟨hlock, -, hsilence⟩ := (watchdog_of_accepted _ _).2 _ _ _ _ rfl hok hrun
  obtain ⟨-, done, -, a', -, -, -, -, hdone, hclosed⟩ :=
    hsilence [{ sampleReadings with now := 730 }] { sampleReadings with now := 735 } hphase
      hmailbox hstate ⟨_, List.mem_singleton_self _, hlate.le⟩ (by decide)
  exact ⟨a, hrun, hlock, done, a', hdone, hclosed⟩

theorem silence_of_locked {clocks : List Readings} (hphase : a.phase = .idle)
    (hmailbox : a.mailbox = []) (hlock : a.link.watchdogLock = true)
    (hopen : a.link.state ≠ .closed) :
    exec (actorStep (linkOps c m)) a (silence clocks) = some a := by
  induction clocks with
  | nil => rfl
  | cons s rest ih =>
      have hstate : (linkOps c m).state a.link ≠ .closed := hopen
      have hsame : (linkOps c m).watchdog a.link s = a.link := if_pos hlock
      refine exec_cons_eq_some.mpr ⟨a, ?_, ih⟩
      simp only [actorStep, hphase, hmailbox, endIteration, if_neg hstate, hsame]
      rw [← hphase, ← hmailbox]

/-- After a LINKIDENTIFY packet of a wrong length the lock stays taken, and the
link stays ACTIVE however long it hears nothing. -/
theorem watchdog_off_after_identify :
    ∃ a, exec (actorStep (linkOps (sampleCrypto []) sampleMsgpack))
        (Actor.start sampleResponder false)
        [.send (.receive sampleIdentify), .recv sampleReadings] = some a ∧
      a.phase = .idle ∧ a.link.watchdogLock = true ∧
      ∀ clocks, ∃ a', exec (actorStep (linkOps (sampleCrypto []) sampleMsgpack)) a
        (silence clocks) = some a' ∧ a'.link.state = .active := by
  obtain ⟨a, hrun, hphase, hmailbox, hlock, hstate⟩ :
      ∃ a, exec (actorStep (linkOps (sampleCrypto []) sampleMsgpack))
          (Actor.start sampleResponder false)
          [.send (.receive sampleIdentify), .recv sampleReadings] = some a ∧
        a.phase = .idle ∧ a.mailbox = [] ∧ a.link.watchdogLock = true ∧
        a.link.state = .active := ⟨_, rfl, rfl, rfl, rfl, rfl⟩
  refine ⟨a, hrun, hphase, hlock, fun clocks => ⟨a, ?_, hstate⟩⟩
  exact silence_of_locked hphase hmailbox hlock (by simp [hstate])

end Reticulum.Link
