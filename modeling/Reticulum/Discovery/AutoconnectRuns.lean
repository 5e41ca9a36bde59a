import Reticulum.Discovery.AutoconnectNames

/-!
# Runs of the auto-connect

Every task keeps the invariant, so it holds in all states of a careful run, and with it the limits
of the auto-connect. Where announced addresses hold no opening bracket, the name with the endpoint
added is always free; the zone of an IPv6 address can hold one.
-/

namespace Reticulum.Discovery.Autoconnect

open Threads

variable {st : Setting} {c : Core} {p : List Task}

theorem quiet_map {α : Type} {f : α → Task} {l : List α} (h : ∀ a ∈ l, (f a).Quiet) :
    ∀ u ∈ l.map f, u.Quiet := by
  intro u hu
  obtain ⟨a, ha, rfl⟩ := List.mem_map.mp hu
  exact h a ha

/-- Watching does not change which interfaces are monitored. -/
theorem key_watched (monitored : List Autoconnected) (watches : List Watch) (now : Int)
    (hlen : monitored.length ≤ watches.length) :
    ((monitored.zip watches).map fun w => w.1.watched now w.2).map Autoconnected.key =
      monitored.map Autoconnected.key := by
  have hkey : ∀ w : Autoconnected × Watch, (w.1.watched now w.2).key = w.1.key := by
    rintro ⟨entry, watch⟩
    cases watch <;> rfl
  rw [List.map_map]
  have hcomp : (Autoconnected.key ∘ fun w : Autoconnected × Watch => w.1.watched now w.2) =
      Autoconnected.key ∘ Prod.fst := funext hkey
  rw [hcomp, ← List.map_map, List.map_fst_zip hlen]

theorem quiet_passPlan (hconf : ∀ config ∈ st.bootstrapConfigs, ¬ EndsBracket config.name)
    (online bootstrap : List String) (answer : Answer) :
    ∀ u ∈ (passPlan st online bootstrap answer c).next, u.Quiet := by
  have hnil := List.forall_mem_nil Task.Quiet
  refine List.forall_mem_append.mpr ⟨List.forall_mem_append.mpr ⟨List.forall_mem_append.mpr
    ⟨forall_mem_ite ?_ hnil, forall_mem_ite ?_ hnil⟩, ?_⟩, forall_mem_ite ?_ hnil⟩
  · exact quiet_map fun config hin => ⟨rfl, rfl, rfl, hconf config hin⟩
  · exact quiet_map fun _ _ => ⟨rfl, rfl, rfl, True.intro⟩
  · exact quiet_map fun _ _ => ⟨rfl, rfl, rfl, True.intro⟩
  · exact List.forall_mem_singleton.mpr ⟨rfl, rfl, rfl, True.intro⟩

/-- The invariant after a task. -/
abbrev KeptAfter (st : Setting) (c : Core) (p : List Task) (t : Task) (answer : Answer) : Prop :=
  Kept st (exec st t answer c).core
    ((exec st t answer c).next ++ ((exec st t answer c).started.flatten ++ p))

theorem kept_connectNext {infos : List InterfaceInfo} (h : Kept st c (.connectNext infos :: p))
    (answer : Answer) : KeptAfter st c p (.connectNext infos) answer := by
  have hnil := List.forall_mem_nil Task.Quiet
  have hone : ∀ {u : Task}, u.Quiet → ∀ v ∈ [u], v.Quiet := List.forall_mem_singleton.mpr
  cases infos with
  | nil => exact h.quiet _ rfl rfl hnil rfl rfl rfl rfl rfl
  | cons info rest =>
      simp only [KeptAfter, exec]
      split
      · exact h.spawn _ rfl rfl (hone ⟨rfl, rfl, rfl, True.intro⟩)
      · refine h.spawn [.tryAutoconnect info, .connectNext rest] rfl rfl ?_
        exact List.forall_mem_cons.mpr
          ⟨⟨rfl, rfl, rfl, True.intro⟩, hone ⟨rfl, rfl, rfl, True.intro⟩⟩

theorem kept_startMonitor (h : Kept st c (.startMonitor :: p)) (answer : Answer) :
    KeptAfter st c p .startMonitor answer := by
  have hnil := List.forall_mem_nil Task.Quiet
  have hone : ∀ {u : Task}, u.Quiet → ∀ v ∈ [u], v.Quiet := List.forall_mem_singleton.mpr
  simp only [KeptAfter, exec]
  split
  · exact h.spawn _ rfl rfl hnil
  · split
    · exact h.quiet [.monitorJob] rfl rfl (hone ⟨rfl, rfl, rfl, True.intro⟩) rfl rfl rfl
        rfl rfl
    · exact h.quiet _ rfl rfl (hone ⟨rfl, rfl, rfl, True.intro⟩) rfl rfl rfl rfl rfl

theorem kept_settle {dial : Dial} {connected : Option Nat}
    (h : Kept st c (.settle dial connected :: p)) (answer : Answer) :
    KeptAfter st c p (.settle dial connected) answer := by
  have hkept := h.settle
  simp only [KeptAfter, exec, started_settle]
  exact hkept

theorem kept_restoreStub {config : BootstrapConfig} (h : Kept st c (.restoreStub config :: p))
    (hfree : config.name ∉ (held c p).map Hold.name) (answer : Answer) :
    KeptAfter st c p (.restoreStub config) answer := by
  have hnot : ¬ EndsBracket config.name := h.configured _ List.mem_cons_self
  refine h.other rfl rfl (c.of_registerStub Core.monitored (fun _ => rfl) _)
    (c.of_registerStub Core.dialling (fun _ => rfl) _)
    (c.of_registerStub Core.stopped (fun _ => rfl) _)
    (c.of_registerStub Core.stopReturned (fun _ => rfl) _) ?_ ?_
  · intro n hn
    simp only [exec] at hn
    rwa [c.of_registerStub Core.localClientInterfaces fun _ => rfl] at hn
  · intro hledger
    simp only [exec]
    rw [registry_registerStub]
    exact hledger.otherStub hfree fun hlocal => hnot (h.locals _ hlocal)

theorem kept_teardownInterface {name : String} (h : Kept st c (.teardownInterface name :: p))
    (answer : Answer) : KeptAfter st c p (.teardownInterface name) answer := by
  have hkept := h.teardownInterface answer.busy
  simp only [KeptAfter, exec, started_teardownInterface]
  exact hkept

/-- Every task keeps the invariant. -/
theorem kept_exec (hconf : ∀ config ∈ st.bootstrapConfigs, ¬ EndsBracket config.name) (t : Task)
    (answer : Answer) (h : Kept st c (t :: p)) (hcareful : CarefulTask st t c (t :: p)) :
    KeptAfter st c p t answer := by
  have hnil := List.forall_mem_nil Task.Quiet
  have hone : ∀ {u : Task}, u.Quiet → ∀ v ∈ [u], v.Quiet := List.forall_mem_singleton.mpr
  cases t with
  | connectDiscovered | monitorJob =>
      exact h.spawn _ rfl rfl (forall_mem_ite (hone ⟨rfl, rfl, rfl, True.intro⟩) hnil)
  | tryAutoconnect | monitorInterface | candidate =>
      exact h.spawn _ rfl rfl (forall_mem_ite hnil (hone ⟨rfl, rfl, rfl, True.intro⟩))
  | monitorFailed => exact h.quiet _ rfl rfl hnil rfl rfl rfl rfl rfl
  | passOnline | passBootstrap =>
      exact h.spawn _ rfl rfl (hone ⟨rfl, rfl, rfl, True.intro⟩)
  | monitorWake =>
      refine h.spawn _ rfl rfl (forall_mem_ite ?_ hnil)
      exact List.forall_mem_cons.mpr
        ⟨⟨rfl, rfl, rfl, True.intro⟩, hone ⟨rfl, rfl, rfl, True.intro⟩⟩
  | connectNext infos => exact kept_connectNext h answer
  | reserve info =>
      have hkept := h.reserve hcareful
      rcases reserve_cases st info c with hnone | ⟨_, _, -, -, -, -, hsome⟩
      · simp only [KeptAfter, exec]
        rw [hnone] at hkept ⊢
        exact hkept
      · simp only [KeptAfter, exec]
        rw [hsome] at hkept ⊢
        exact hkept
  | connect dial =>
      have hkept := h.connect answer
      simp only [KeptAfter, exec] at hkept ⊢
      split at hkept
      · next hsucceeds =>
        rw [if_pos hsucceeds]
        exact hkept
      · next hfails =>
        rw [if_neg hfails]
        exact hkept
  | registerHandler dial i => exact h.registerHandler
  | registerStub dial i => exact h.registerStub rfl rfl
  | settle dial connected => exact kept_settle h answer
  | startMonitor => exact kept_startMonitor h answer
  | passPlan online bootstrap =>
      refine h.quiet (k := (passPlan st online bootstrap answer c).core) _ rfl rfl
        (quiet_passPlan hconf online bootstrap answer) rfl ?_ rfl rfl rfl
      exact key_watched _ _ _ (by simp [planMonitorPass])
  | restore config =>
      have hnot : ¬ EndsBracket config.name := h.configured _ List.mem_cons_self
      have hstub := hone (u := .restoreStub config) ⟨rfl, rfl, rfl, hnot⟩
      exact h.spawn _ rfl rfl (forall_mem_ite (forall_mem_ite (List.forall_mem_cons.mpr
        ⟨⟨rfl, rfl, rfl, hnot⟩, hstub⟩) hstub) hnil)
  | restoreHandler config =>
      exact h.other rfl rfl rfl rfl rfl rfl (fun _ hn => hn) fun hledger =>
        hledger.otherHandler hcareful
  | restoreStub config => exact kept_restoreStub h hcareful answer
  | teardownBootstrap names =>
      refine h.spawn _ rfl rfl ?_
      intro u hu
      obtain ⟨name, -, hin⟩ := List.mem_flatMap.mp hu
      have hboth : ∀ v ∈ [Task.bootstrapHandler name, .bootstrapStub name], v.Quiet :=
        List.forall_mem_cons.mpr
          ⟨⟨rfl, rfl, rfl, True.intro⟩, hone ⟨rfl, rfl, rfl, True.intro⟩⟩
      exact hboth u hin
  | bootstrapHandler name =>
      exact h.other rfl rfl rfl rfl rfl rfl (fun _ hn => hn) fun hledger =>
        hledger.otherDropHandler hcareful
  | bootstrapStub name =>
      refine h.other rfl rfl rfl rfl rfl rfl (fun n hn => (List.mem_filter.mp hn).1) ?_
      intro hledger
      simp only [exec]
      rw [registry_deregisterStub]
      exact hledger.otherDropStub hcareful
  | teardownInterface name => exact kept_teardownInterface h answer
  | removeHandler remover entry => exact h.removeHandler
  | removeStub remover entry => exact h.removeStub
  | setStopped => exact h.setStopped
  | clearMonitoring => exact h.clearMonitoring
  | takeMonitored => exact h.takeMonitored
  | stopNext entries =>
      cases entries with
      | nil => exact h.stopReturn fun u hu => hcareful u (List.mem_cons_of_mem _ hu)
      | cons entry rest => exact h.stopNext
  | setOnline name online =>
      refine h.quiet (k := c.setInterfaceOnline name online) _ rfl rfl hnil ?_ rfl rfl rfl rfl
      exact registry_setInterfaceOnline c name online

/-! ## Runs -/

/-- A quiet task may be added. -/
theorem Kept.add (h : Kept st c p) {u : Task} (hu : u.Quiet) : Kept st c (u :: p) := by
  obtain ⟨hholds, hdial, hflag, hconf⟩ := hu
  have hnot : u.afterTake ≠ true := by
    intro htake
    rw [u.afterFlag_of_afterTake htake] at hflag
    cases hflag
  refine { ledger := ?_, dialling := ?_, limit := h.limit, endpoints := h.endpoints,
           configured := ?_, locals := h.locals, flagged := ?_, taken := ?_, quit := ?_ }
  · have hsame := held_cons c u p
    rw [hholds] at hsame
    exact h.ledger.perm hsame.symm
  · rw [List.filterMap_cons_none hdial]
    exact h.dialling
  · intro t ht
    rcases List.mem_cons.mp ht with rfl | ht
    · exact hconf
    · exact h.configured t ht
  · intro t ht hf
    rcases List.mem_cons.mp ht with rfl | ht
    · rw [hflag] at hf
      cases hf
    · exact h.flagged t ht hf
  · intro t ht hf
    rcases List.mem_cons.mp ht with rfl | ht
    · exact absurd hf hnot
    · exact h.taken t ht hf
  · intro hquit
    obtain ⟨hs, hm, htasks⟩ := h.quit hquit
    refine ⟨hs, hm, fun t ht hne => ?_⟩
    rcases List.mem_cons.mp ht with rfl | ht
    · exact absurd hholds hne
    · exact htasks t ht hne

theorem quiet_start (call : Call) : ∃ u, start call = [u] ∧ u.Quiet := by
  cases call with
  | connectDiscovered | autoconnect | teardownInterface | stop | setInterfaceOnline =>
      exact ⟨_, rfl, rfl, rfl, rfl, True.intro⟩

/-- A name that does not end in an endpoint. -/
def NoEndpoint (name : String) : Prop := Endpoint name fun _ _ => False

/-- Nothing is discovered yet. No name that is registered ends in an endpoint; the configured
bootstrap interfaces have no name that ends in a bracket, as those of local clients do. -/
structure Start (st : Setting) (c : Core) : Prop where
  monitored : c.monitored = []
  dialling : c.dialling = []
  stopReturned : c.stopReturned = false
  clients : c.gone = []
  removals : c.removals = []
  owners : (∀ stub ∈ c.interfaces, stub.owner = .other) ∧ ∀ e ∈ c.outboundHandlers, e.2 = .other
  handlers : (c.outboundHandlers.map Prod.fst).Nodup
  names : (c.interfaces.map Stub.name ++ c.localClientInterfaces).Nodup
  interfaces : ∀ stub ∈ c.interfaces, NoEndpoint stub.name
  locals : ∀ name ∈ c.localClientInterfaces, EndsBracket name ∧ NoEndpoint name
  configs : ∀ config ∈ st.bootstrapConfigs, ¬ EndsBracket config.name

theorem Start.kept (h : Start st c) : Kept st c [] where
  ledger := by
    have hheld : held c [] = [] := by
      unfold held
      rw [h.monitored]
      rfl
    have hstubs : ∀ n i, (n, Owner.discovered i) ∉ c.registry.stubs := by
      intro n i hmem
      obtain ⟨stub, hs, heq⟩ := List.mem_map.mp hmem
      obtain ⟨-, howner⟩ := Prod.mk.inj heq
      rw [h.owners.1 stub hs] at howner
      cases howner
    have hhandlers : ∀ n i, (n, Owner.discovered i) ∉ c.registry.handlers := by
      intro n i hmem
      cases h.owners.2 _ hmem
    rw [hheld]
    exact {
      names := List.nodup_nil
      interfaces := by
        change (([] : List Nat) ++ c.gone).Nodup
        rw [h.clients]
        exact List.nodup_nil
      bound := by
        intro i hi
        change i ∈ ([] : List Nat) ++ c.gone at hi
        rw [h.clients] at hi
        exact absurd hi List.not_mem_nil
      stubs := fun n i => by simp [hstubs n i]
      handlers := fun n i => by simp [hhandlers n i]
      free := fun _ hold => absurd hold List.not_mem_nil
      displaced := fun _ hold => absurd hold List.not_mem_nil
      keys := h.handlers
      registered := by simpa [Core.registry, Function.comp_def] using h.names
      removals := by
        intro e he
        change e ∈ c.removals at he
        rw [h.removals] at he
        exact absurd he List.not_mem_nil }
  dialling := by
    rw [h.dialling]
    exact List.Perm.refl _
  limit := by simp [h.monitored, h.dialling]
  endpoints := by simp [h.monitored, h.dialling]
  configured _ ht := absurd ht List.not_mem_nil
  locals name hname := (h.locals name hname).1
  flagged _ ht := absurd ht List.not_mem_nil
  taken _ ht := absurd ht List.not_mem_nil
  quit hquit := by
    rw [h.stopReturned] at hquit
    cases hquit

theorem Start.named (h : Start st c) : Named st c [] := by
  refine ⟨⟨fun stub hs => ?_, fun name hname => (h.locals name hname).2, ?_, ?_⟩,
    fun _ ht => absurd ht List.not_mem_nil⟩
  · exact fun front address port hfree heq =>
      (h.interfaces stub hs front address port hfree heq).elim
  · rw [h.monitored]
    exact fun _ he => absurd he List.not_mem_nil
  · rw [h.dialling]
    exact fun _ hd => absurd hd List.not_mem_nil

/-- Auto-connect within its limits: at most so many interfaces and dials, no endpoint twice, no
name registered for two interfaces, nothing taken off but the interface that was to go, and
nothing left once `stop` has returned and every auto-connect that it found under way has ended. -/
structure WithinLimits (st : Setting) (s : Pool Core Task) : Prop where
  limit : s.core.monitored.length + s.core.dialling.length ≤ st.maxAutoconnected
  endpoints : (s.core.monitored.map Autoconnected.endpointHash ++
    s.core.dialling.map Prod.fst).Nodup
  names : (s.core.interfaces.map Stub.name ++ s.core.localClientInterfaces).Nodup
  owners : ∀ name o o', s.core.registry.Registered name o → s.core.registry.Registered name o' →
    o = o'
  removals : ∀ r ∈ s.core.removals, r.2 = .discovered r.1.interface
  gone : ∀ i ∈ s.core.gone, ∀ name, ¬ s.core.registry.Registered name (.discovered i)
  stopped : s.core.stopReturned = true → (∀ t ∈ s.pending, t.isTry = false) →
    ∀ name i, ¬ s.core.registry.Registered name (.discovered i)

theorem Kept.withinLimits {s : Pool Core Task} (h : Kept st s.core s.pending) :
    WithinLimits st s where
  limit := h.limit
  endpoints := h.endpoints
  names := by simpa [Core.registry, Function.comp_def] using h.ledger.registered
  owners _ _ _ ho ho' := h.ledger.owner_unique ho ho'
  removals := h.ledger.removals
  gone _ hi _ := h.ledger.not_registered_of_gone hi
  stopped := by
    intro hquit hended name i hr
    obtain ⟨-, hmon, htasks⟩ := h.quit hquit
    obtain ⟨hold, hmem, -, -⟩ := h.ledger.hold_of_registered hr
    rcases List.mem_append.mp hmem with hmem | hmem
    · rw [hmon] at hmem
      exact absurd hmem List.not_mem_nil
    · obtain ⟨t, ht, hhold⟩ := List.mem_flatMap.mp hmem
      have htry := htasks t ht (List.ne_nil_of_mem hhold)
      rw [hended t ht] at htry
      cases htry

/-- The steps of a run that the auto-connect counts on. -/
def Careful (st : Setting) : Pool Core Task → Threads.Event Call Answer → Prop :=
  Guarded (CarefulTask st)

instance (st : Setting) (s : Pool Core Task) (e : Threads.Event Call Answer) :
    Decidable (Careful st s e) :=
  inferInstanceAs (Decidable (Guarded (CarefulTask st) s e))

/-- The part of it that is about names. -/
def DialsFree (st : Setting) : Pool Core Task → Threads.Event Call Answer → Prop :=
  Guarded fun t c _ => ∀ info, t = .reserve info → NameFree st info c

/-- Only plain interfaces are announced. -/
def PlainEvent : Threads.Event Call Answer → Prop
  | .call call => call.Plain
  | .run _ answer => answer.Plain

theorem kept_step (hconf : ∀ config ∈ st.bootstrapConfigs, ¬ EndsBracket config.name)
    {s s' : Pool Core Task} {e : Threads.Event Call Answer} (h : Kept st s.core s.pending)
    (hok : Careful st s e) (hstep : step (system st) s e = some s') :
    Kept st s'.core s'.pending := by
  refine invariant_step (I := Kept st) (fun _ _ _ hp hk => hk.perm hp)
    (fun t c p q => carefulTask_perm t c p q) ?_ ?_ h hok hstep
  · intro call c p hk
    obtain ⟨u, hu, hquiet⟩ := quiet_start call
    change Kept st c (start call ++ p)
    rw [hu]
    exact hk.add hquiet
  · exact fun t answer c others hk hcareful => kept_exec hconf t answer hk hcareful

theorem named_step (hconf : ∀ config ∈ st.bootstrapConfigs, ¬ EndsBracket config.name)
    {s s' : Pool Core Task} {e : Threads.Event Call Answer} (h : Named st s.core s.pending)
    (hplain : PlainEvent e) (hstep : step (system st) s e = some s') :
    Named st s'.core s'.pending := by
  obtain ⟨hcore, htasks⟩ := h
  rcases step_cases hstep with ⟨call, rfl, hsame, hpending⟩ |
    ⟨i, answer, t, rest, others, rfl, -, hsame, hbefore, hafter⟩
  · refine ⟨hsame ▸ hcore, fun u hu => ?_⟩
    rcases List.mem_append.mp (hpending.mem_iff.mp hu) with hu | hu
    · cases call with
      | autoconnect info => exact List.mem_singleton.mp hu ▸ hplain
      | connectDiscovered | teardownInterface | stop | setInterfaceOnline =>
          exact List.mem_singleton.mp hu ▸ True.intro
    · exact htasks u hu
  · have ht : t.Named st := htasks t (hbefore.mem_iff.mpr List.mem_cons_self)
    obtain ⟨hcore', hnext, hstarted⟩ := named_exec hconf t answer hplain hcore ht
    refine ⟨hsame ▸ hcore', fun u hu => ?_⟩
    rcases List.mem_append.mp (hafter.mem_iff.mp hu) with hu | hu
    · exact hnext u hu
    · rcases List.mem_append.mp hu with hu | hu
      · exact hstarted u hu
      · exact htasks u (hbefore.mem_iff.mpr (List.mem_cons_of_mem _ hu))

/-- A careful run stays within the limits, and where only plain interfaces are announced every
dial gets a name that is free. -/
theorem within_limits (st : Setting) (c : Core) (h : Start st c) :
    (∀ es, Runs.Meets (step (system st)) (Careful st) ⟨c, []⟩ es →
      Runs.Always (step (system st)) (WithinLimits st) ⟨c, []⟩ es) ∧
    ∀ es, (∀ e ∈ es, PlainEvent e) →
      Runs.Meets (step (system st)) (DialsFree st) ⟨c, []⟩ es := by
  refine ⟨fun es hmeets => ?_, fun es hplain => ?_⟩
  · intro done s' hdone hrun
    have hkept := Runs.always_of_meets
      (P := fun s : Pool Core Task => Kept st s.core s.pending)
      (fun s e s' hI hok hstep => kept_step h.configs hI hok hstep) h.kept hmeets
    exact (hkept done s' hdone hrun).withinLimits
  · refine Runs.meets_of_meets (I := fun s : Pool Core Task => Named st s.core s.pending)
      (fun s e s' hI hok hstep => named_step h.configs hI hok hstep) ?_ h.named
      (Runs.meets_of_forall hplain _)
    intro s e hI hok
    cases e with
    | call call => exact True.intro
    | run i answer =>
        intro t rest hthread info ht
        subst ht
        have hin : Task.reserve info ∈ s.pending :=
          List.mem_flatten.mpr ⟨_, List.mem_of_getElem? hthread, List.mem_cons_self⟩
        exact nameFree_of_named hI.1 (hI.2 _ hin)

/-! ## Where it fails -/

def sampleSetting : Setting where
  maxAutoconnected := 4
  fullHash text := text.toList.map fun c => UInt8.ofNat c.toNat
  detachThreshold := 12
  bootstrapConfigs := []

/-- A backbone interface with this name at this address. -/
def sampleInfo (name address : String) : InterfaceInfo where
  interfaceType := "BackboneInterface"
  transport := true
  name := name
  received := 0
  stamp := []
  value := 14
  transportId := ""
  networkId := ""
  hops := 1
  latitude := none
  longitude := none
  height := none
  reachableOn := some address
  port := some 1

theorem start_sample : Start sampleSetting {} where
  monitored := rfl
  dialling := rfl
  stopReturned := rfl
  clients := rfl
  removals := rfl
  owners := ⟨fun _ hs => absurd hs List.not_mem_nil, fun _ he => absurd he List.not_mem_nil⟩
  handlers := List.nodup_nil
  names := List.nodup_nil
  interfaces _ hs := absurd hs List.not_mem_nil
  locals _ hn := absurd hn List.not_mem_nil
  configs _ hc := absurd hc List.not_mem_nil

/-- Two interfaces of one name are dialled to the end, the first is torn down, and then the
discovery stops. -/
def sampleRun : List (Threads.Event Call Answer) :=
  .call (.autoconnect (sampleInfo "N" "a.example")) :: List.replicate 8 (.run 0 {}) ++
    .call (.autoconnect (sampleInfo "N" "b.example")) :: List.replicate 8 (.run 2 {}) ++
    .call (.teardownInterface "N") :: List.replicate 3 (.run 3 {}) ++
    .call .stop :: List.replicate 7 (.run 4 {})

/-- The interfaces registered after the first steps of that run. -/
def namesAfter (n : Nat) : Option (List String) :=
  (Runs.exec (step (system sampleSetting)) ⟨{}, []⟩ (sampleRun.take n)).map fun s =>
    s.core.interfaces.map Stub.name

theorem within_limits_same_name :
    Runs.Always (step (system sampleSetting)) (WithinLimits sampleSetting) ⟨{}, []⟩ sampleRun ∧
    namesAfter 18 = some ["N", "N [b.example:1]"] ∧ namesAfter 22 = some ["N [b.example:1]"] ∧
    (Runs.exec (step (system sampleSetting)) ⟨{}, []⟩ sampleRun).map
        (fun s => (s.core.stopReturned, s.core.interfaces.map Stub.name, s.core.gone)) =
      some (true, [], [0, 1]) :=
  ⟨(within_limits sampleSetting {} start_sample).1 sampleRun (by decide +kernel),
    by decide +kernel, by decide +kernel, by decide +kernel⟩

/-- An interface as announces name them: a discovered name, and an address or a host name. -/
def Announced (info : InterfaceInfo) : Prop :=
  DiscoveredName info ∧ ∀ address, info.reachableOn = some address →
    (isIpAddress address || isHostname address) = true

/-- All interfaces that a call or an answer brings in were announced. -/
def AnnouncedEvent : Threads.Event Call Answer → Prop
  | .call (.autoconnect info) => Announced info
  | .call _ => True
  | .run _ answer => (∀ info ∈ answer.listed, Announced info) ∧
      ∀ info ∈ answer.selected, Announced info

/-- The second interface is unnamed beyond its endpoint, whose zone holds a bracket; the fourth
has the name and the address that read the same. -/
def collidingRun : List (Threads.Event Call Answer) :=
  [.call (.autoconnect (sampleInfo "N" "a.example")), .run 0 {}, .run 0 {},
    .call (.autoconnect (sampleInfo "N" "1::1%z [1::2")), .run 1 {}, .run 1 {}, .run 1 {},
    .run 1 {}, .run 1 {},
    .call (.autoconnect (sampleInfo "N [1::1%z" "b.example")), .run 2 {}, .run 2 {},
    .call (.autoconnect (sampleInfo "N [1::1%z" "1::2")), .run 3 {}, .run 3 {}, .run 3 {},
    .run 3 {}]

theorem announced_collidingRun : ∀ e ∈ collidingRun, AnnouncedEvent e := by
  have hinfo : ∀ info ∈ [sampleInfo "N" "a.example", sampleInfo "N" "1::1%z [1::2",
      sampleInfo "N [1::1%z" "b.example", sampleInfo "N [1::1%z" "1::2"], Announced info := by
    intro info hmem
    have hname : sanitizeName info.name = some info.name := by
      revert info
      decide
    have haddress : ∀ address ∈ info.reachableOn,
        (isIpAddress address || isHostname address) = true := by
      revert info
      decide
    exact ⟨Or.inl ⟨_, hname⟩, haddress⟩
  have hrun : ∀ i, AnnouncedEvent (.run i {}) := by
    intro i
    constructor
    · exact fun _ h => absurd h List.not_mem_nil
    · exact fun _ h => absurd h (Option.not_mem_none _)
  intro e he
  unfold collidingRun at he
  simp only [List.mem_cons, List.not_mem_nil, or_false] at he
  rcases he with rfl | rfl | rfl | rfl | rfl | rfl | rfl | rfl | rfl | rfl | rfl | rfl | rfl | rfl |
    rfl | rfl | rfl
  all_goals first
    | exact hrun _
    | exact hinfo _ (by simp)

/-- Two interfaces are registered under one name. -/
theorem within_limits_false :
    ¬ ∀ (st : Setting) (c : Core), Start st c → ∀ es, (∀ e ∈ es, AnnouncedEvent e) →
      Runs.Always (step (system st)) (WithinLimits st) ⟨c, []⟩ es := by
  intro hall
  have hlimits := hall sampleSetting {} start_sample collidingRun announced_collidingRun
  have hend : (Runs.exec (step (system sampleSetting)) ⟨{}, []⟩ collidingRun).any (fun s =>
      s.core.registry.stubs.contains ("N [1::1%z [1::2:1]", .discovered 0) &&
        s.core.registry.handlers.contains ("N [1::1%z [1::2:1]", .discovered 1)) = true := by
    decide
  obtain ⟨s, hs, hboth⟩ := (Option.any_eq_true _ _).mp hend
  simp only [Bool.and_eq_true, List.contains_iff_mem] at hboth
  cases (hlimits collidingRun s (List.prefix_refl _) hs).owners _ _ _ (Or.inl hboth.1)
    (Or.inr (Or.inl hboth.2))

-- `stop` returns while a teardown has still to take the interface off.
example : (Runs.exec (step (system sampleSetting)) ⟨{}, []⟩
    ([.call (.autoconnect (sampleInfo "N" "a.example")), .run 0 {}, .run 0 {}, .run 0 {}, .run 0 {},
      .run 0 {}, .run 0 {}, .call (.teardownInterface "N"), .run 1 {}, .call .stop, .run 2 {},
      .run 2 {}, .run 2 {}, .run 2 {}])).any (fun s =>
        s.core.stopReturned && s.pending.all (fun t => !t.isTry) &&
          s.core.registry.stubs.contains ("N", .discovered 0)) = true := by decide

-- A bootstrap interface comes back under the name of a discovered one that is offline.
example : (Runs.exec
    (step (system { sampleSetting with bootstrapConfigs := [{ name := "N" }] })) ⟨{}, []⟩
    ([.call (.autoconnect (sampleInfo "N" "a.example")), .run 0 {}, .run 0 {}, .run 0 {}, .run 0 {},
      .run 0 {}, .run 0 {}, .run 0 {}, .run 0 {}, .run 1 {}, .run 1 {}, .run 1 {}, .run 1 {},
      .run 1 {}, .run 1 {}, .run 1 {}])).any (fun s =>
        s.core.registry.stubs.contains ("N", .discovered 0) &&
          s.core.registry.handlers.contains ("N", .other)) = true := by decide

end Reticulum.Discovery.Autoconnect
