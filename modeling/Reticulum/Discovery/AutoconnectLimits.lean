import Reticulum.Discovery.Registrations

/-!
# Auto-connect within its limits

Over every interleaving of auto-connects, passes of the monitor, teardowns and `stop`, the number
of auto-connected interfaces stays within the limit, no two have one endpoint, every registered
name is one interface's, a teardown takes off its own interface only, and nothing is left after
`stop`. That needs three things that the code does not see to, which `Careful` names.

## Implementation notes

`Kept` ties the tasks to the tables of the discovery and, through the ledger, to Transport. Most
tasks trade themselves for others without moving anything; `Kept.trade` is the rule for those.
-/

namespace Reticulum.Discovery.Autoconnect

open Threads

/-! ## Registrations of the core -/

/-- A stub changes nothing but the interfaces. -/
theorem Core.of_registerStub {β : Type} (c : Core) (f : Core → β)
    (hf : ∀ interfaces, f { c with interfaces } = f c) (stub : Stub) :
    f (c.registerInterfaceStubConfig stub) = f c := by
  unfold Core.registerInterfaceStubConfig
  split
  · rfl
  · exact hf _

theorem registry_registerStub (c : Core) (stub : Stub) :
    (c.registerInterfaceStubConfig stub).registry = c.registry.addStub stub.name stub.owner := by
  have hiff : (c.interfaces.any fun iface => iface.name == stub.name) = true ↔
      stub.name ∈ c.registry.stubs.map Prod.fst := by
    simp [Core.registry]
  unfold Core.registerInterfaceStubConfig Registry.addStub
  by_cases h : (c.interfaces.any fun iface => iface.name == stub.name) = true
  · rw [if_pos h, if_pos (hiff.mp h)]
  · rw [if_neg h, if_neg fun hmem => h (hiff.mpr hmem)]
    simp [Core.registry]

theorem registry_deregisterStub (c : Core) (name : String) :
    (c.deregisterInterfaceStub name).registry = c.registry.dropStub name := by
  simp [Core.deregisterInterfaceStub, Core.registry, Registry.dropStub, List.filter_map,
    Function.comp_def]

theorem registry_setInterfaceOnline (c : Core) (name : String) (online : Bool) :
    (c.setInterfaceOnline name online).registry = c.registry := by
  have hmap : ∀ stub : Stub,
      ((if stub.name == name then { stub with online } else stub).name,
        (if stub.name == name then { stub with online } else stub).owner) =
        (stub.name, stub.owner) := by
    intro stub
    split <;> rfl
  simp only [Core.setInterfaceOnline, Core.registry, List.map_map, Function.comp_def, hmap]

theorem mem_stubOwners {c : Core} {name : String} {owner : Owner} (h : owner ∈ c.stubOwners name) :
    (name, owner) ∈ c.registry.stubs ∨ (name ∈ c.registry.locals ∧ owner = .other) := by
  rcases List.mem_append.mp h with h | h
  · obtain ⟨stub, hstub, rfl⟩ := List.mem_map.mp h
    obtain ⟨hmem, hname⟩ := List.mem_filter.mp hstub
    obtain rfl : stub.name = name := by simpa using hname
    exact Or.inl (List.mem_map_of_mem hmem)
  · obtain ⟨n, hn, rfl⟩ := List.mem_map.mp h
    obtain ⟨hmem, hname⟩ := List.mem_filter.mp hn
    obtain rfl : n = name := by simpa using hname
    exact Or.inr ⟨hmem, rfl⟩

theorem mem_handlerOwners {c : Core} {name : String} {owner : Owner}
    (h : owner ∈ c.handlerOwners name) : (name, owner) ∈ c.registry.handlers := by
  obtain ⟨⟨n, o⟩, he, rfl⟩ := List.mem_map.mp h
  obtain ⟨hmem, hname⟩ := List.mem_filter.mp he
  obtain rfl : n = name := by simpa using hname
  exact hmem

/-! ## What tasks hold -/

/-- What a monitored interface has registered. -/
def Autoconnected.hold (handler : Bool) (entry : Autoconnected) : Hold :=
  { name := entry.name, interface := some entry.interface, handler, stub := true }

/-- What `stop` has not taken off yet. -/
def Remover.holds : Remover → List Hold
  | .stop rest => rest.map (Autoconnected.hold true)
  | _ => []

/-- The reservations and registrations that a task answers for. -/
def Task.holds : Task → List Hold
  | .connect dial => [⟨dial.name, none, false, false⟩]
  | .registerHandler dial interface => [⟨dial.name, some interface, false, false⟩]
  | .registerStub dial interface => [⟨dial.name, some interface, true, false⟩]
  | .settle dial none => [⟨dial.name, none, false, false⟩]
  | .settle dial (some interface) => [⟨dial.name, some interface, true, true⟩]
  | .removeHandler remover entry => entry.hold true :: remover.holds
  | .removeStub remover entry => entry.hold false :: remover.holds
  | .stopNext entries => entries.map (Autoconnected.hold true)
  | _ => []

/-- The reservation of a dial that is under way. -/
def Task.dial : Task → Option (Bytes × String)
  | .connect dial => some (dial.endpointHash, dial.name)
  | .registerHandler dial _ => some (dial.endpointHash, dial.name)
  | .registerStub dial _ => some (dial.endpointHash, dial.name)
  | .settle dial _ => some (dial.endpointHash, dial.name)
  | _ => none

/-- A `try_autoconnect` that is past its first check. -/
def Task.isTry : Task → Bool
  | .reserve _ | .connect _ | .registerHandler _ _ | .registerStub _ _ | .settle _ _
  | .removeHandler .tryAutoconnect _ | .removeStub .tryAutoconnect _ => true
  | _ => false

/-- A `stop` that took the monitored interfaces. -/
def Task.afterTake : Task → Bool
  | .stopNext _ | .removeHandler (.stop _) _ | .removeStub (.stop _) _ => true
  | _ => false

/-- A `stop` that set the flag. -/
def Task.afterFlag : Task → Bool
  | .clearMonitoring | .takeMonitored => true
  | t => t.afterTake

/-- The name ends as one with an endpoint does. -/
def EndsBracket (name : String) : Prop := name.toList.getLast? = some ']'

/-- A configured name does not end in a bracket. -/
def Task.Configured : Task → Prop
  | .restore config | .restoreHandler config | .restoreStub config => ¬ EndsBracket config.name
  | _ => True

/-- A task that holds nothing, reserves nothing and is not part of `stop`. -/
def Task.Quiet (t : Task) : Prop :=
  t.holds = [] ∧ t.dial = none ∧ t.afterFlag = false ∧ t.Configured

theorem Task.afterFlag_of_afterTake (t : Task) (h : t.afterTake = true) : t.afterFlag = true := by
  cases t with
  | clearMonitoring | takeMonitored => rfl
  | _ => exact h

/-- Every reserved name: of monitored interfaces, and of those that tasks bring up or take off. -/
def held (c : Core) (p : List Task) : List Hold :=
  c.monitored.map (Autoconnected.hold true) ++ p.flatMap Task.holds

theorem held_perm {c : Core} {p q : List Task} (h : List.Perm p q) :
    List.Perm (held c p) (held c q) :=
  (h.flatMap_right _).append_left _

theorem held_append (c : Core) (p q : List Task) :
    List.Perm (held c (p ++ q)) (p.flatMap Task.holds ++ held c q) := by
  unfold held
  rw [List.flatMap_append, ← List.append_assoc, ← List.append_assoc]
  exact List.perm_append_comm.append_right _

theorem held_cons (c : Core) (t : Task) (p : List Task) :
    List.Perm (held c (t :: p)) (t.holds ++ held c p) := by
  simpa using held_append c [t] p

/-- A task that holds a name without a stub is a dial. -/
theorem dial_of_hold {t : Task} {hold : Hold} (h : hold ∈ t.holds) :
    (hold.stub = true ∧ hold.interface.isSome = true) ∨
      ∃ hash, t.dial = some (hash, hold.name) := by
  have hentries : ∀ entries : List Autoconnected, hold ∈ entries.map (Autoconnected.hold true) →
      hold.stub = true ∧ hold.interface.isSome = true := by
    intro entries hmem
    obtain ⟨entry, -, rfl⟩ := List.mem_map.mp hmem
    exact ⟨rfl, rfl⟩
  have hremover : ∀ remover : Remover, hold ∈ remover.holds →
      hold.stub = true ∧ hold.interface.isSome = true := by
    intro remover hmem
    cases remover with
    | stop rest => exact hentries rest hmem
    | tryAutoconnect => cases hmem
    | teardown => cases hmem
  cases t with
  | connect dial | registerHandler dial _ | registerStub dial _ =>
      obtain rfl := List.mem_singleton.mp h
      exact Or.inr ⟨_, rfl⟩
  | settle dial connected =>
      cases connected with
      | none =>
          obtain rfl := List.mem_singleton.mp h
          exact Or.inr ⟨_, rfl⟩
      | some i =>
          obtain rfl := List.mem_singleton.mp h
          exact Or.inr ⟨_, rfl⟩
  | removeHandler remover entry =>
      rcases List.mem_cons.mp h with rfl | h
      · exact Or.inl ⟨rfl, rfl⟩
      · exact Or.inl (hremover remover h)
  | removeStub remover entry =>
      rcases List.mem_cons.mp h with rfl | h
      · exact Or.inl ⟨rfl, rfl⟩
      · exact Or.inl (hremover remover h)
  | stopNext entries => exact Or.inl (hentries entries h)
  | _ => cases h

/-! ## The invariant -/

/-- What of a monitored interface never changes. -/
def Autoconnected.key (entry : Autoconnected) : String × Bytes × Nat :=
  (entry.name, entry.endpointHash, entry.interface)

/-- What every step keeps. -/
structure Kept (st : Setting) (c : Core) (p : List Task) : Prop where
  ledger : Ledger c.registry (held c p)
  dialling : List.Perm (p.filterMap Task.dial) c.dialling
  limit : c.monitored.length + c.dialling.length ≤ st.maxAutoconnected
  endpoints : (c.monitored.map Autoconnected.endpointHash ++ c.dialling.map Prod.fst).Nodup
  configured : ∀ t ∈ p, t.Configured
  locals : ∀ n ∈ c.localClientInterfaces, EndsBracket n
  flagged : ∀ t ∈ p, t.afterFlag = true → c.stopped = true
  taken : ∀ t ∈ p, t.afterTake = true → c.monitored = []
  quit : c.stopReturned = true → c.stopped = true ∧ c.monitored = [] ∧
    ∀ t ∈ p, t.holds ≠ [] → t.isTry = true

namespace Kept

variable {st : Setting} {c k : Core} {p q : List Task} {t : Task}

theorem perm (h : Kept st c p) (hp : List.Perm p q) : Kept st c q where
  ledger := h.ledger.perm (held_perm hp)
  dialling := (hp.symm.filterMap _).trans h.dialling
  limit := h.limit
  endpoints := h.endpoints
  configured u hu := h.configured u (hp.mem_iff.mpr hu)
  locals := h.locals
  flagged u hu := h.flagged u (hp.mem_iff.mpr hu)
  taken u hu := h.taken u (hp.mem_iff.mpr hu)
  quit hquit :=
    let ⟨hstopped, hmon, htasks⟩ := h.quit hquit
    ⟨hstopped, hmon, fun u hu => htasks u (hp.mem_iff.mpr hu)⟩

/-- The keys of the monitored interfaces fix what the invariant reads of them. -/
theorem monitored_alike (hkey : k.monitored.map Autoconnected.key =
    c.monitored.map Autoconnected.key) :
    (∀ p, held k p = held c p) ∧
      k.monitored.map Autoconnected.endpointHash = c.monitored.map Autoconnected.endpointHash ∧
      k.monitored.length = c.monitored.length ∧ (c.monitored = [] → k.monitored = []) := by
  refine ⟨fun p => ?_, ?_, ?_, fun hnil => ?_⟩
  · have hhold : Autoconnected.hold true =
        (fun k : String × Bytes × Nat => (⟨k.1, some k.2.2, true, true⟩ : Hold)) ∘
          Autoconnected.key := rfl
    unfold held
    rw [hhold, ← List.map_map, ← List.map_map, hkey]
  · have hhash : Autoconnected.endpointHash =
        (fun k : String × Bytes × Nat => k.2.1) ∘ Autoconnected.key := rfl
    rw [hhash, ← List.map_map, ← List.map_map, hkey]
  · have hlen := congrArg List.length hkey
    simpa using hlen
  · rw [hnil] at hkey
    simpa using hkey

/-- A task gives way to others. They carry on its reservation, and what they hold accounts for
the registrations as they are now. -/
theorem trade (h : Kept st c (t :: p)) (new : List Task)
    (hkey : k.monitored.map Autoconnected.key = c.monitored.map Autoconnected.key)
    (hdialling : k.dialling = c.dialling)
    (hstopped : c.stopped = true → k.stopped = true)
    (hreturned : k.stopReturned = c.stopReturned)
    (hlocals : ∀ n ∈ k.localClientInterfaces, n ∈ c.localClientInterfaces)
    (hdial : new.filterMap Task.dial = t.dial.toList)
    (hconfigured : ∀ u ∈ new, u.Configured)
    (hflag : ∀ u ∈ new, u.afterFlag = true → t.afterFlag = true ∨ k.stopped = true)
    (htake : ∀ u ∈ new, u.afterTake = true → t.afterTake = true)
    (htry : ∀ u ∈ new, u.holds ≠ [] → t.holds ≠ [] ∧ (t.isTry = true → u.isTry = true))
    (hledger : Ledger c.registry (t.holds ++ held c p) →
      Ledger k.registry (new.flatMap Task.holds ++ held c p)) :
    Kept st k (new ++ p) := by
  obtain ⟨hheld, hhash, hlen, hnil⟩ := monitored_alike hkey
  have hold : ∀ {P : Task → Prop}, (∀ u ∈ t :: p, P u) → P t ∧ ∀ u ∈ p, P u :=
    fun hall => ⟨hall _ List.mem_cons_self, fun u hu => hall u (List.mem_cons_of_mem _ hu)⟩
  refine { ledger := ?_, dialling := ?_, limit := ?_, endpoints := ?_, configured := ?_,
           locals := ?_, flagged := ?_, taken := ?_, quit := ?_ }
  · refine (hledger (h.ledger.perm (held_cons c t p))).perm ?_
    rw [← hheld p]
    exact (held_append k new p).symm
  · rw [hdialling, List.filterMap_append, hdial]
    refine List.Perm.trans ?_ h.dialling
    cases hd : t.dial with
    | none => rw [List.filterMap_cons_none hd]; exact List.Perm.refl _
    | some d => rw [List.filterMap_cons_some hd]; exact List.Perm.refl _
  · rw [hlen, hdialling]
    exact h.limit
  · rw [hhash, hdialling]
    exact h.endpoints
  · intro u hu
    rcases List.mem_append.mp hu with hu | hu
    · exact hconfigured u hu
    · exact (hold h.configured).2 u hu
  · exact fun n hn => h.locals n (hlocals n hn)
  · intro u hu hflagged
    rcases List.mem_append.mp hu with hu | hu
    · rcases hflag u hu hflagged with hflag | hflag
      · exact hstopped ((hold h.flagged).1 hflag)
      · exact hflag
    · exact hstopped ((hold h.flagged).2 u hu hflagged)
  · intro u hu htaken
    rcases List.mem_append.mp hu with hu | hu
    · exact hnil ((hold h.taken).1 (htake u hu htaken))
    · exact hnil ((hold h.taken).2 u hu htaken)
  · intro hquit
    rw [hreturned] at hquit
    obtain ⟨hs, hmon, htasks⟩ := h.quit hquit
    refine ⟨hstopped hs, hnil hmon, fun u hu hne => ?_⟩
    rcases List.mem_append.mp hu with hu | hu
    · obtain ⟨ht, htrue⟩ := htry u hu hne
      exact htrue ((hold htasks).1 ht)
    · exact (hold htasks).2 u hu hne

/-- A task that neither holds nor reserves anything gives way to others of the kind. -/
theorem quiet (h : Kept st c (t :: p)) (new : List Task) (hholds : t.holds = [])
    (hdial : t.dial = none) (hnew : ∀ u ∈ new, u.Quiet) (hregistry : k.registry = c.registry)
    (hkey : k.monitored.map Autoconnected.key = c.monitored.map Autoconnected.key)
    (hdialling : k.dialling = c.dialling) (hstopped : k.stopped = c.stopped)
    (hreturned : k.stopReturned = c.stopReturned) :
    Kept st k (new ++ p) := by
  have hempty : new.flatMap Task.holds = [] :=
    List.flatMap_eq_nil_iff.mpr fun u hu => (hnew u hu).1
  have hlocals : k.localClientInterfaces = c.localClientInterfaces :=
    congrArg Registry.locals hregistry
  refine h.trade new hkey hdialling (fun hs => hstopped.trans hs) hreturned ?_ ?_ ?_ ?_ ?_ ?_ ?_
  · exact fun n hn => hlocals ▸ hn
  · rw [hdial, Option.toList_none]
    exact List.filterMap_eq_nil_iff.mpr fun u hu => (hnew u hu).2.1
  · exact fun u hu => (hnew u hu).2.2.2
  · intro u hu hflag
    rw [(hnew u hu).2.2.1] at hflag
    cases hflag
  · intro u hu htake
    have hflag := u.afterFlag_of_afterTake htake
    rw [(hnew u hu).2.2.1] at hflag
    cases hflag
  · exact fun u hu hne => absurd (hnew u hu).1 hne
  · intro hledger
    rw [hregistry, hempty]
    rwa [hholds] at hledger

/-- Nothing changes but the tasks. -/
theorem spawn (h : Kept st c (t :: p)) (new : List Task) (hholds : t.holds = [])
    (hdial : t.dial = none) (hnew : ∀ u ∈ new, u.Quiet) : Kept st c (new ++ p) :=
  h.quiet new hholds hdial hnew rfl rfl rfl rfl rfl

/-- A name that is free is not held. -/
theorem not_held (h : Kept st c p) {name : String} (hfree : nameTaken c name = false) :
    name ∉ (held c p).map Hold.name := by
  unfold nameTaken at hfree
  simp only [Bool.or_eq_false_iff] at hfree
  obtain ⟨⟨hreg, hmon⟩, hdial⟩ := hfree
  rw [List.mem_map]
  rintro ⟨hold, hmem, rfl⟩
  rcases List.mem_append.mp hmem with hin | hin
  · obtain ⟨entry, hentry, rfl⟩ := List.mem_map.mp hin
    have hno := List.any_eq_false.mp hmon entry hentry
    exact hno (by simp [Autoconnected.hold])
  · obtain ⟨t, ht, hhold⟩ := List.mem_flatMap.mp hin
    rcases dial_of_hold hhold with ⟨hstub, hint⟩ | ⟨hash, hd⟩
    · obtain ⟨i, hi⟩ := Option.isSome_iff_exists.mp hint
      have hin : (hold.name, Owner.discovered i) ∈ c.registry.stubs :=
        (h.ledger.stubs _ _).mpr ⟨hold, hmem, rfl, hi, hstub⟩
      obtain ⟨stub, hs, hname⟩ := List.mem_map.mp hin
      obtain ⟨hname, -⟩ := Prod.mk.inj hname
      unfold Core.interfaceRegistered at hreg
      simp only [Bool.or_eq_false_iff] at hreg
      exact List.any_eq_false.mp hreg.1 stub hs (by simp [hname])
    · have hin : (hash, hold.name) ∈ c.dialling :=
        h.dialling.mem_iff.mp (List.mem_filterMap.mpr ⟨t, ht, hd⟩)
      exact List.any_eq_false.mp hdial _ hin (by simp)

end Kept

theorem not_registered_of_free {c : Core} {name : String} (hfree : nameTaken c name = false) :
    name ∉ c.registry.locals ∧ name ∉ c.registry.stubs.map Prod.fst := by
  unfold nameTaken Core.interfaceRegistered at hfree
  simp only [Bool.or_eq_false_iff] at hfree
  obtain ⟨⟨⟨hstubs, hlocals⟩, -⟩, -⟩ := hfree
  constructor
  · intro hmem
    have hin : name ∈ c.localClientInterfaces := hmem
    simp [hin] at hlocals
  · intro hmem
    simp only [Core.registry, List.map_map, List.mem_map, Function.comp_apply] at hmem
    obtain ⟨stub, hs, hname⟩ := hmem
    exact List.any_eq_false.mp hstubs stub hs (by simpa using hname)

/-! ## What the code leaves to chance -/

/-- Where the announced name is taken, the name with the endpoint added is not. -/
def NameFree (st : Setting) (info : InterfaceInfo) (c : Core) : Prop :=
  ∀ address port, info.reachableOn = some address → info.port = some port →
    existsIn c info (endpointHash st info) = false → nameTaken c info.name = true →
      nameTaken c (withEndpoint info.name address port) = false

/-- A dial that adds its endpoint to the name gets a name that is free. No bootstrap interface is
brought up or torn down under the name of a discovered one. When `stop` returns, only
auto-connects that it finds under way have still something to take off. -/
def CarefulTask (st : Setting) : Task → Core → List Task → Prop
  | .reserve info, c, _ => NameFree st info c
  | .restoreHandler config, c, p => config.name ∉ (held c p).map Hold.name
  | .restoreStub config, c, p => config.name ∉ (held c p).map Hold.name
  | .bootstrapHandler name, c, p => name ∉ (held c p).map Hold.name
  | .bootstrapStub name, c, p => name ∉ (held c p).map Hold.name
  | .stopNext [], _, p => ∀ t ∈ p, t.holds ≠ [] → t.isTry = true
  | _, _, _ => True

instance (st : Setting) (info : InterfaceInfo) (c : Core) : Decidable (NameFree st info c) :=
  match ha : info.reachableOn, hp : info.port with
  | some address, some port =>
      decidable_of_iff (existsIn c info (endpointHash st info) = false →
        nameTaken c info.name = true → nameTaken c (withEndpoint info.name address port) = false)
        (by simp [NameFree, ha, hp])
  | none, _ => isTrue (by simp [NameFree, ha])
  | some _, none => isTrue (by simp [NameFree, hp])

instance (st : Setting) (t : Task) (c : Core) (p : List Task) :
    Decidable (CarefulTask st t c p) :=
  match t with
  | .reserve info => inferInstanceAs (Decidable (NameFree st info c))
  | .restoreHandler { name, .. } | .restoreStub { name, .. } | .bootstrapHandler name
  | .bootstrapStub name => inferInstanceAs (Decidable (name ∉ (held c p).map Hold.name))
  | .stopNext [] => decidable_of_iff (∀ t ∈ p, t.holds.isEmpty = false → t.isTry = true) (by
      simp [CarefulTask])
  | .stopNext (_ :: _) => isTrue True.intro
  | .connectDiscovered | .connectNext _ | .tryAutoconnect _ | .connect _ | .registerHandler _ _
  | .registerStub _ _ | .settle _ _ | .monitorInterface | .startMonitor | .monitorFailed
  | .monitorJob | .monitorWake | .passOnline | .passBootstrap _ | .passPlan _ _ | .restore _
  | .candidate _ | .teardownBootstrap _ | .teardownInterface _ | .removeHandler _ _
  | .removeStub _ _ | .setStopped | .clearMonitoring | .takeMonitored | .setOnline _ _ =>
      isTrue True.intro

theorem carefulTask_perm {st : Setting} (t : Task) (c : Core) (p q : List Task)
    (hp : List.Perm p q) (h : CarefulTask st t c p) : CarefulTask st t c q := by
  have hnames : ∀ {name : String}, name ∉ (held c p).map Hold.name →
      name ∉ (held c q).map Hold.name :=
    fun hnot hmem => hnot (((held_perm hp).map _).mem_iff.mpr hmem)
  cases t with
  | restoreHandler config | restoreStub config | bootstrapHandler name | bootstrapStub name =>
      exact hnames h
  | stopNext entries =>
      cases entries with
      | nil => exact fun u hu => h u (hp.mem_iff.mpr hu)
      | cons entry rest => exact True.intro
  | reserve info => exact h
  | _ => exact True.intro

theorem free_uniqueInterfaceName {st : Setting} {c : Core} {info : InterfaceInfo} {address : String}
    {port : Nat} (h : NameFree st info c) (haddress : info.reachableOn = some address)
    (hport : info.port = some port) (hnew : existsIn c info (endpointHash st info) = false) :
    nameTaken c (uniqueInterfaceName c info.name address port) = false := by
  unfold uniqueInterfaceName
  split
  · next htaken => exact h address port haddress hport hnew htaken
  · next hfree => exact Bool.eq_false_iff.mpr hfree

theorem started_settle (dial : Dial) (connected : Option Nat) (c : Core) :
    (settle dial connected c).started = [] := by
  unfold settle
  cases connected with
  | none => rfl
  | some i =>
      dsimp only
      split <;> rfl

theorem started_teardownInterface (name : String) (busy : Bool) (c : Core) :
    (teardownInterface name busy c).started = [] := by
  unfold teardownInterface
  split
  · rfl
  · split <;> rfl

/-- What the first section can do. -/
theorem reserve_cases (st : Setting) (info : InterfaceInfo) (c : Core) :
    reserve st info c = { core := c } ∨
    ∃ address port, info.reachableOn = some address ∧ info.port = some port ∧
      autoconnectCount c < st.maxAutoconnected ∧
      existsIn c info (endpointHash st info) = false ∧
      reserve st info c =
        { core := { c with dialling := c.dialling ++
            [(endpointHash st info, uniqueInterfaceName c info.name address port)] }
          next := [.connect
            { name := uniqueInterfaceName c info.name address port, address, port,
              endpointHash := endpointHash st info }] } := by
  unfold reserve
  dsimp only
  split
  · exact Or.inl rfl
  · next hroom =>
    split
    · exact Or.inl rfl
    · split
      · exact Or.inl rfl
      · next hnew =>
        split
        · exact Or.inl rfl
        · next address haddress =>
          split
          · exact Or.inl rfl
          · split
            · exact Or.inl rfl
            · split
              · exact Or.inl rfl
              · split
                · exact Or.inl rfl
                · next port hport =>
                  exact Or.inr ⟨address, port, haddress, hport, Nat.lt_of_not_le hroom,
                    Bool.eq_false_iff.mpr hnew, rfl⟩

/-! ## One lemma for each task -/

namespace Kept

variable {st : Setting} {c k : Core} {p : List Task}

/-- A dial reserves its endpoint and its name. -/
theorem reserved {info : InterfaceInfo} (h : Kept st c (.reserve info :: p)) (dial : Dial)
    (hroom : autoconnectCount c < st.maxAutoconnected)
    (hnew : existsIn c info dial.endpointHash = false) (hfree : nameTaken c dial.name = false) :
    Kept st { c with dialling := c.dialling ++ [(dial.endpointHash, dial.name)] }
      (.connect dial :: p) := by
  have hledger := h.ledger.perm (held_cons c (.reserve info) p)
  obtain ⟨hlocal, hstub⟩ := not_registered_of_free hfree
  have hname : dial.name ∉ (held c p).map Hold.name :=
    fun hmem => h.not_held hfree (((held_cons c (.reserve info) p).map _).mem_iff.mpr hmem)
  unfold existsIn at hnew
  simp only [Bool.or_eq_false_iff] at hnew
  obtain ⟨⟨hmon, hdial⟩, -⟩ := hnew
  refine { ledger := ?_, dialling := ?_, limit := ?_, endpoints := ?_, configured := ?_,
           locals := h.locals, flagged := ?_, taken := ?_, quit := ?_ }
  · refine (hledger.reserve hname hlocal hstub).perm ?_
    exact (held_cons c (.connect dial) p).symm
  · have hold : List.Perm (p.filterMap Task.dial) c.dialling := h.dialling
    exact (hold.cons (dial.endpointHash, dial.name)).trans (List.perm_append_singleton _ _).symm
  · unfold autoconnectCount at hroom
    simp only [List.length_append, List.length_singleton]
    omega
  · rw [List.map_append, List.map_singleton, ← List.append_assoc, List.nodup_append]
    refine ⟨h.endpoints, List.nodup_singleton _, ?_⟩
    rintro hash hmem _ hlast rfl
    obtain rfl := List.mem_singleton.mp hlast
    rcases List.mem_append.mp hmem with hmem | hmem
    · obtain ⟨entry, hentry, heq⟩ := List.mem_map.mp hmem
      exact List.any_eq_false.mp hmon entry hentry (by simp [heq])
    · obtain ⟨d, hd, heq⟩ := List.mem_map.mp hmem
      exact List.any_eq_false.mp hdial d hd (by simp [heq])
  · exact List.forall_mem_cons.mpr ⟨True.intro, (List.forall_mem_cons.mp h.configured).2⟩
  · exact List.forall_mem_cons.mpr ⟨Bool.noConfusion, (List.forall_mem_cons.mp h.flagged).2⟩
  · exact List.forall_mem_cons.mpr ⟨Bool.noConfusion, (List.forall_mem_cons.mp h.taken).2⟩
  · intro hquit
    obtain ⟨hs, hm, htasks⟩ := h.quit hquit
    exact ⟨hs, hm, List.forall_mem_cons.mpr ⟨fun _ => rfl, (List.forall_mem_cons.mp htasks).2⟩⟩

theorem reserve {info : InterfaceInfo} (h : Kept st c (.reserve info :: p))
    (hcareful : NameFree st info c) :
    Kept st (reserve st info c).core ((reserve st info c).next ++ p) := by
  rcases reserve_cases st info c with hnone | ⟨address, port, haddress, hport, hroom, hnew, hsome⟩
  · rw [hnone]
    exact h.spawn [] rfl rfl (by simp)
  · rw [hsome]
    exact h.reserved ⟨_, address, port, _⟩ hroom hnew
      (free_uniqueInterfaceName hcareful haddress hport hnew)

/-- A dial gives way to its next task. -/
theorem dialTask {t u : Task} (h : Kept st c (t :: p)) (hkey : k.monitored = c.monitored)
    (hdialling : k.dialling = c.dialling) (hstopped : k.stopped = c.stopped)
    (hreturned : k.stopReturned = c.stopReturned)
    (hlocals : k.localClientInterfaces = c.localClientInterfaces) (hdial : u.dial = t.dial)
    (hsome : t.dial.isSome = true) (hholds : t.holds ≠ [])
    (hledger : Ledger c.registry (t.holds ++ held c p) → Ledger k.registry (u.holds ++ held c p)) :
    Kept st k (u :: p) := by
  obtain ⟨d, hd⟩ := Option.isSome_iff_exists.mp hsome
  have hu : u.Configured ∧ u.afterFlag = false ∧ u.afterTake = false ∧ u.isTry = true := by
    rw [← hdial] at hd
    cases u with
    | connect _ | registerHandler _ _ | registerStub _ _ | settle _ _ =>
        exact ⟨True.intro, rfl, rfl, rfl⟩
    | _ => cases hd
  refine h.trade [u] (by rw [hkey]) hdialling (fun hs => hstopped.trans hs) hreturned
    (fun n hn => hlocals ▸ hn) ?_ ?_ ?_ ?_ ?_ ?_
  · rw [hd] at hdial
    rw [hd, List.filterMap_cons_some hdial]
    rfl
  · exact fun v hv => List.mem_singleton.mp hv ▸ hu.1
  · intro v hv hflag
    rw [List.mem_singleton.mp hv, hu.2.1] at hflag
    cases hflag
  · intro v hv htake
    rw [List.mem_singleton.mp hv, hu.2.2.1] at htake
    cases htake
  · exact fun v hv _ => ⟨hholds, fun _ => List.mem_singleton.mp hv ▸ hu.2.2.2⟩
  · simpa using hledger

theorem connect {dial : Dial} (h : Kept st c (.connect dial :: p)) (answer : Answer) :
    Kept st (exec st (.connect dial) answer c).core
      ((exec st (.connect dial) answer c).next ++ p) := by
  simp only [exec]
  split
  · refine h.dialTask (u := .registerHandler dial c.clients) rfl rfl rfl rfl rfl rfl rfl ?_ ?_
    · exact List.cons_ne_nil _ _
    · exact fun hledger => hledger.create
  · refine h.dialTask (u := .settle dial none) rfl rfl rfl rfl rfl rfl rfl ?_ id
    exact List.cons_ne_nil _ _

theorem registerHandler {dial : Dial} {i : Nat} (h : Kept st c (.registerHandler dial i :: p)) :
    Kept st (c.registerOutboundHandler dial.name (.discovered i)) (.registerStub dial i :: p) :=
  h.dialTask rfl rfl rfl rfl rfl rfl rfl (List.cons_ne_nil _ _) fun hledger => hledger.putHandler

theorem registerStub {dial : Dial} {i : Nat} {stub : Stub}
    (h : Kept st c (.registerStub dial i :: p)) (hname : stub.name = dial.name)
    (howner : stub.owner = .discovered i) :
    Kept st (c.registerInterfaceStubConfig stub) (.settle dial (some i) :: p) := by
  have hsame {β : Type} (f : Core → β) (hf : ∀ interfaces, f { c with interfaces } = f c) :
      f (c.registerInterfaceStubConfig stub) = f c := c.of_registerStub f hf stub
  refine h.dialTask (hsame Core.monitored fun _ => rfl) (hsame Core.dialling fun _ => rfl)
    (hsame Core.stopped fun _ => rfl) (hsame Core.stopReturned fun _ => rfl)
    (hsame Core.localClientInterfaces fun _ => rfl) rfl rfl (List.cons_ne_nil _ _) ?_
  intro hledger
  rw [registry_registerStub, hname, howner]
  exact hledger.addStub

/-- Settling takes the dial's own reservation back, and no other. -/
theorem dialling_settle {dial : Dial} {connected : Option Nat}
    (h : Kept st c (.settle dial connected :: p)) :
    List.Perm (p.filterMap Task.dial)
        (c.dialling.filter fun d => d.1 != dial.endpointHash) ∧
      List.Perm ((dial.endpointHash, dial.name) ::
        c.dialling.filter fun d => d.1 != dial.endpointHash) c.dialling := by
  have hall : List.Perm ((dial.endpointHash, dial.name) :: p.filterMap Task.dial) c.dialling :=
    h.dialling
  have hnodup : (((dial.endpointHash, dial.name) :: p.filterMap Task.dial).map Prod.fst).Nodup :=
    (hall.map _).nodup_iff.mpr (List.nodup_append.mp h.endpoints).2.1
  have hrest : (p.filterMap Task.dial).filter (fun d => d.1 != dial.endpointHash) =
      p.filterMap Task.dial := by
    refine List.filter_eq_self.mpr fun d hd => ?_
    rw [List.map_cons, List.nodup_cons] at hnodup
    have hne : d.1 ≠ dial.endpointHash := by
      intro heq
      exact hnodup.1 (List.mem_map.mpr ⟨d, hd, heq⟩)
    simpa using hne
  have hfilter := hall.filter fun d => d.1 != dial.endpointHash
  rw [List.filter_cons_of_neg (by simp), hrest] at hfilter
  exact ⟨hfilter, (hfilter.symm.cons _).trans hall⟩

/-- A dial that is over may leave a task that is no dial. -/
theorem settled {dial : Dial} {connected : Option Nat}
    (h : Kept st c (.settle dial connected :: p)) (next : List Task)
    (hdials : next.filterMap Task.dial = [])
    (hnext : ∀ u ∈ next, u.Configured ∧ u.afterFlag = false ∧ u.afterTake = false ∧ u.isTry = true)
    (hledger : Ledger c.registry (held c (next ++ p))) :
    Kept st { c with dialling := c.dialling.filter fun d => d.1 != dial.endpointHash }
      (next ++ p) := by
  obtain ⟨hdial, -⟩ := h.dialling_settle
  have hsub : (c.dialling.filter fun d => d.1 != dial.endpointHash).Sublist c.dialling :=
    List.filter_sublist
  refine { ledger := hledger, dialling := ?_, limit := ?_, endpoints := ?_, configured := ?_,
           locals := h.locals, flagged := ?_, taken := ?_, quit := ?_ }
  · rw [List.filterMap_append, hdials]
    exact hdial
  · exact Nat.le_trans (Nat.add_le_add_left hsub.length_le _) h.limit
  · exact h.endpoints.sublist ((hsub.map _).append_left _)
  · exact List.forall_mem_append.mpr
      ⟨fun u hu => (hnext u hu).1, (List.forall_mem_cons.mp h.configured).2⟩
  · refine List.forall_mem_append.mpr ⟨fun u hu hflag => ?_, (List.forall_mem_cons.mp h.flagged).2⟩
    cases (hnext u hu).2.1.symm.trans hflag
  · refine List.forall_mem_append.mpr ⟨fun u hu htake => ?_, (List.forall_mem_cons.mp h.taken).2⟩
    cases (hnext u hu).2.2.1.symm.trans htake
  · intro hquit
    obtain ⟨hs, hm, htasks⟩ := h.quit hquit
    exact ⟨hs, hm, List.forall_mem_append.mpr
      ⟨fun u hu _ => (hnext u hu).2.2.2, (List.forall_mem_cons.mp htasks).2⟩⟩

theorem settle_none {dial : Dial} (h : Kept st c (.settle dial none :: p)) :
    Kept st { c with dialling := c.dialling.filter fun d => d.1 != dial.endpointHash } p :=
  h.settled [] rfl (List.forall_mem_nil _) (h.ledger.perm (held_cons c _ p)).release

/-- A dial that ends after `stop` leaves its interface to be taken off. -/
theorem settle_stopped {dial : Dial} {i : Nat} (h : Kept st c (.settle dial (some i) :: p)) :
    Kept st { c with dialling := c.dialling.filter fun d => d.1 != dial.endpointHash }
      (.removeHandler .tryAutoconnect
        { name := dial.name, endpointHash := dial.endpointHash, interface := i } :: p) := by
  refine h.settled [_] rfl (List.forall_mem_singleton.mpr ⟨True.intro, rfl, rfl, rfl⟩) ?_
  exact (h.ledger.perm (held_cons c _ p)).perm (held_cons c _ p).symm

/-- A dial that ends before `stop` leaves its interface with the monitor. -/
theorem settle_monitored {dial : Dial} {i : Nat} (h : Kept st c (.settle dial (some i) :: p))
    (hrun : c.stopped = false) :
    Kept st
      { c with
        dialling := c.dialling.filter fun d => d.1 != dial.endpointHash
        monitored := c.monitored ++
          [{ name := dial.name, endpointHash := dial.endpointHash, interface := i }] }
      (.monitorInterface :: p) := by
  obtain ⟨hdial, hback⟩ := h.dialling_settle
  have hnot : ∀ u ∈ p, u.afterFlag ≠ true := by
    intro u hu hflag
    rw [h.flagged u (List.mem_cons_of_mem _ hu) hflag] at hrun
    cases hrun
  refine { ledger := ?_, dialling := hdial, limit := ?_, endpoints := ?_, configured := ?_,
           locals := h.locals, flagged := ?_, taken := ?_, quit := ?_ }
  · refine (h.ledger.perm (held_cons c _ p)).perm ?_
    have hmiddle : List.Perm
        (⟨dial.name, some i, true, true⟩ ::
          (c.monitored.map (Autoconnected.hold true) ++ p.flatMap Task.holds))
        (c.monitored.map (Autoconnected.hold true) ++
          ⟨dial.name, some i, true, true⟩ :: p.flatMap Task.holds) := List.perm_middle.symm
    unfold held
    rw [List.map_append, List.map_singleton, List.append_assoc]
    exact hmiddle
  · have hlen := hback.length_eq
    have hlimit := h.limit
    simp only [List.length_cons] at hlen
    simp only [List.length_append, List.length_singleton]
    omega
  · have hp := (hback.map Prod.fst).append_left (c.monitored.map Autoconnected.endpointHash)
    have hnodup := hp.nodup_iff.mpr h.endpoints
    simpa using hnodup
  · exact List.forall_mem_cons.mpr ⟨True.intro, (List.forall_mem_cons.mp h.configured).2⟩
  · intro u hu hflag
    rcases List.mem_cons.mp hu with rfl | hu
    · cases hflag
    · exact absurd hflag (hnot u hu)
  · intro u hu htake
    rcases List.mem_cons.mp hu with rfl | hu
    · cases htake
    · exact absurd (u.afterFlag_of_afterTake htake) (hnot u hu)
  · intro hquit
    obtain ⟨hs, -⟩ := h.quit hquit
    rw [hrun] at hs
    cases hs

theorem settle {dial : Dial} {connected : Option Nat}
    (h : Kept st c (.settle dial connected :: p)) :
    Kept st (settle dial connected c).core ((settle dial connected c).next ++ p) := by
  unfold Autoconnect.settle
  cases connected with
  | none => exact h.settle_none
  | some i =>
      dsimp only
      split
      · exact h.settle_stopped
      · next hrun => exact h.settle_monitored (Bool.eq_false_iff.mpr hrun)

/-- A teardown takes the interface of that name out of the monitored ones. -/
theorem teardownInterface {name : String} (h : Kept st c (.teardownInterface name :: p))
    (busy : Bool) :
    Kept st (teardownInterface name busy c).core
      ((teardownInterface name busy c).next ++ p) := by
  have hnone : Kept st c p := h.spawn [] rfl rfl (by simp)
  unfold Autoconnect.teardownInterface
  split
  · exact hnone
  · next entry hfind =>
    split
    · exact hnone
    · obtain ⟨hname, front, back, hsplit, hfront⟩ := List.find?_eq_some_iff_append.mp hfind
      have herase : c.monitored.eraseP (fun e => e.name == name) = front ++ back := by
        rw [hsplit, List.eraseP_append_right _ (by simpa using hfront),
          List.eraseP_cons_of_pos (p := fun e : Autoconnected => e.name == name) hname]
      have hperm : List.Perm c.monitored (entry :: (front ++ back)) := by
        rw [hsplit]
        exact List.perm_middle
      have hsub : (front ++ back).Sublist c.monitored := by
        rw [hsplit]
        exact (List.sublist_cons_self _ _).append_left _
      have hne : c.monitored ≠ [] := by
        rw [hsplit]
        simp
      rw [herase]
      refine { ledger := ?_, dialling := ?_, limit := ?_, endpoints := ?_, configured := ?_,
               locals := h.locals, flagged := ?_, taken := ?_, quit := ?_ }
      · refine h.ledger.perm ?_
        unfold held
        have hmiddle : List.Perm
            (entry.hold true ::
              ((front ++ back).map (Autoconnected.hold true) ++ p.flatMap Task.holds))
            ((front ++ back).map (Autoconnected.hold true) ++
              entry.hold true :: p.flatMap Task.holds) := List.perm_middle.symm
        exact ((hperm.map _).append_right _).trans hmiddle
      · exact h.dialling
      · exact Nat.le_trans (Nat.add_le_add_right hsub.length_le _) h.limit
      · exact h.endpoints.sublist ((hsub.map _).append_right _)
      · exact List.forall_mem_cons.mpr ⟨True.intro, (List.forall_mem_cons.mp h.configured).2⟩
      · exact List.forall_mem_cons.mpr ⟨Bool.noConfusion, (List.forall_mem_cons.mp h.flagged).2⟩
      · intro u hu htake
        rcases List.mem_cons.mp hu with rfl | hu
        · cases htake
        · exact absurd (h.taken u (List.mem_cons_of_mem _ hu) htake) hne
      · intro hquit
        exact absurd (h.quit hquit).2.1 hne

/-- `unregister_outbound_handler` takes off the handler of the interface it is for. -/
theorem removeHandler {remover : Remover} {entry : Autoconnected}
    (h : Kept st c (.removeHandler remover entry :: p)) :
    Kept st (removeHandler remover entry c).core (.removeStub remover entry :: p) := by
  have hledger : Ledger c.registry (entry.hold true :: (remover.holds ++ held c p)) :=
    h.ledger.perm (held_cons c _ p)
  refine h.trade [.removeStub remover entry] rfl rfl id rfl (fun _ hn => hn) rfl
    ?_ ?_ ?_ ?_ ?_
  · exact fun u hu => List.mem_singleton.mp hu ▸ True.intro
  · intro u hu hflag
    obtain rfl := List.mem_singleton.mp hu
    cases remover with
    | stop rest => exact Or.inl rfl
    | tryAutoconnect | teardown => cases hflag
  · intro u hu htake
    obtain rfl := List.mem_singleton.mp hu
    cases remover with
    | stop rest => rfl
    | tryAutoconnect | teardown => cases htake
  · intro u hu _
    obtain rfl := List.mem_singleton.mp hu
    refine ⟨List.cons_ne_nil _ _, fun htry => ?_⟩
    cases remover with
    | tryAutoconnect => rfl
    | stop rest => cases htry
    | teardown => cases htry
  · intro _
    have hdrop := hledger.dropHandler
      (c.removals ++ (c.handlerOwners entry.name).map fun owner => (entry, owner)) ?_
    · rw [List.flatMap_singleton]
      exact hdrop
    · intro e he
      rcases List.mem_append.mp he with he | he
      · exact h.ledger.removals e he
      · obtain ⟨owner, howner, rfl⟩ := List.mem_map.mp he
        exact hledger.owner_of_mem (mem_handlerOwners howner)

/-- `deregister_interface_stub` takes off the stub of the interface it is for. -/
theorem removeStub {remover : Remover} {entry : Autoconnected}
    (h : Kept st c (.removeStub remover entry :: p)) :
    Kept st (removeStub remover entry c).core ((removeStub remover entry c).next ++ p) := by
  have hledger : Ledger c.registry (entry.hold false :: (remover.holds ++ held c p)) :=
    h.ledger.perm (held_cons c _ p)
  have hregistry : (Autoconnect.removeStub remover entry c).core.registry =
      { c.registry.dropStub entry.name with
        gone := c.registry.gone ++ [entry.interface]
        removals := c.removals ++ (c.stubOwners entry.name).map fun owner => (entry, owner) } := by
    rw [← registry_deregisterStub]
    rfl
  have hdrop := hledger.dropStub
    (c.removals ++ (c.stubOwners entry.name).map fun owner => (entry, owner)) ?_
  · refine h.trade (k := (Autoconnect.removeStub remover entry c).core) _ rfl rfl id rfl ?_ ?_ ?_ ?_
      ?_ ?_ ?_
    · exact fun n hn => (List.mem_filter.mp hn).1
    · cases remover <;> rfl
    · cases remover with
      | stop rest => exact fun u hu => List.mem_singleton.mp hu ▸ True.intro
      | tryAutoconnect | teardown => exact fun u hu => absurd hu List.not_mem_nil
    · cases remover with
      | stop rest => exact fun u hu _ => Or.inl rfl
      | tryAutoconnect | teardown => exact fun u hu => absurd hu List.not_mem_nil
    · cases remover with
      | stop rest => exact fun u hu _ => rfl
      | tryAutoconnect | teardown => exact fun u hu => absurd hu List.not_mem_nil
    · intro u hu _
      refine ⟨List.cons_ne_nil _ _, fun htry => ?_⟩
      cases remover with
      | stop rest => cases htry
      | tryAutoconnect | teardown => exact absurd hu List.not_mem_nil
    · intro _
      rw [hregistry]
      cases remover with
      | stop rest =>
          change Ledger _ ([Task.stopNext rest].flatMap Task.holds ++ held c p)
          rw [List.flatMap_singleton]
          exact hdrop
      | tryAutoconnect | teardown => exact hdrop
  · intro e he
    rcases List.mem_append.mp he with he | he
    · exact h.ledger.removals e he
    · obtain ⟨owner, howner, rfl⟩ := List.mem_map.mp he
      rcases mem_stubOwners howner with hstub | ⟨hlocal, -⟩
      · have hmine : (entry.name, Owner.discovered entry.interface) ∈ c.registry.stubs :=
          (hledger.stubs _ _).mpr ⟨_, List.mem_cons_self, rfl, rfl, rfl⟩
        exact Assoc.eq_of_mem (List.nodup_append.mp hledger.registered).1 hstub hmine
      · exact absurd hlocal hledger.free_head.1

/-! ### Stopping -/

theorem setStopped (h : Kept st c (.setStopped :: p)) :
    Kept st { c with stopped := true } (.clearMonitoring :: p) := by
  refine h.trade [.clearMonitoring] rfl rfl (fun _ => rfl) rfl (fun _ hn => hn) rfl
    ?_ ?_ ?_ ?_ id
  · exact fun u hu => List.mem_singleton.mp hu ▸ True.intro
  · exact fun u hu _ => Or.inr rfl
  · intro u hu htake
    rw [List.mem_singleton.mp hu] at htake
    cases htake
  · exact fun u hu hne => absurd (List.mem_singleton.mp hu ▸ rfl) hne

theorem clearMonitoring (h : Kept st c (.clearMonitoring :: p)) :
    Kept st { c with monitoringAutoconnects := false } (.takeMonitored :: p) := by
  refine h.trade [.takeMonitored] rfl rfl id rfl (fun _ hn => hn) rfl ?_ ?_ ?_ ?_ id
  · exact fun u hu => List.mem_singleton.mp hu ▸ True.intro
  · exact fun u hu _ => Or.inl rfl
  · intro u hu htake
    rw [List.mem_singleton.mp hu] at htake
    cases htake
  · exact fun u hu hne => absurd (List.mem_singleton.mp hu ▸ rfl) hne

/-- `stop` takes all monitored interfaces. -/
theorem takeMonitored (h : Kept st c (.takeMonitored :: p)) :
    Kept st { c with monitored := [] } (.stopNext c.monitored :: p) := by
  have hstopped : c.stopped = true := h.flagged _ List.mem_cons_self rfl
  refine { ledger := h.ledger, dialling := h.dialling, limit := ?_, endpoints := ?_,
           configured := ?_, locals := h.locals, flagged := fun _ _ _ => hstopped,
           taken := fun _ _ _ => rfl, quit := ?_ }
  · exact Nat.le_trans (Nat.add_le_add_right (Nat.zero_le _) _) h.limit
  · exact (List.nodup_append.mp h.endpoints).2.1
  · exact List.forall_mem_cons.mpr ⟨True.intro, (List.forall_mem_cons.mp h.configured).2⟩
  · intro hquit
    obtain ⟨hs, hm, htasks⟩ := h.quit hquit
    refine ⟨hs, rfl, fun u hu hne => ?_⟩
    rcases List.mem_cons.mp hu with rfl | hu
    · exact absurd (by rw [hm]; rfl) hne
    · exact htasks u (List.mem_cons_of_mem _ hu) hne

/-- `stop` returns. -/
theorem stopReturn (h : Kept st c (.stopNext [] :: p))
    (hcareful : ∀ t ∈ p, t.holds ≠ [] → t.isTry = true) :
    Kept st { c with stopReturned := true } p where
  ledger := h.ledger
  dialling := h.dialling
  limit := h.limit
  endpoints := h.endpoints
  configured u hu := h.configured u (List.mem_cons_of_mem _ hu)
  locals := h.locals
  flagged u hu := h.flagged u (List.mem_cons_of_mem _ hu)
  taken u hu := h.taken u (List.mem_cons_of_mem _ hu)
  quit _ := ⟨h.flagged _ List.mem_cons_self rfl, h.taken _ List.mem_cons_self rfl, hcareful⟩

theorem stopNext {entry : Autoconnected} {rest : List Autoconnected}
    (h : Kept st c (.stopNext (entry :: rest) :: p)) :
    Kept st c (.removeHandler (.stop rest) entry :: p) := by
  refine h.trade [.removeHandler (.stop rest) entry] rfl rfl id rfl (fun _ hn => hn) rfl
    ?_ ?_ ?_ ?_ ?_
  · exact fun u hu => List.mem_singleton.mp hu ▸ True.intro
  · exact fun u hu _ => Or.inl rfl
  · exact fun u hu _ => rfl
  · intro u hu _
    refine ⟨List.cons_ne_nil _ _, fun htry => ?_⟩
    cases htry
  · intro hledger
    simpa [Task.holds, Remover.holds] using hledger

/-! ### Bootstrap interfaces -/

/-- A bootstrap interface's call into Transport. -/
theorem other {t : Task} (h : Kept st c (t :: p)) (hholds : t.holds = []) (hdial : t.dial = none)
    (hkey : k.monitored = c.monitored) (hdialling : k.dialling = c.dialling)
    (hstopped : k.stopped = c.stopped) (hreturned : k.stopReturned = c.stopReturned)
    (hlocals : ∀ n ∈ k.localClientInterfaces, n ∈ c.localClientInterfaces)
    (hledger : Ledger c.registry (held c p) → Ledger k.registry (held c p)) : Kept st k p := by
  refine h.trade [] (by rw [hkey]) hdialling (fun hs => hstopped.trans hs) hreturned
    hlocals (by rw [hdial]; rfl) ?_ ?_ ?_ ?_ ?_
  · exact fun u hu => absurd hu List.not_mem_nil
  · exact fun u hu => absurd hu List.not_mem_nil
  · exact fun u hu => absurd hu List.not_mem_nil
  · exact fun u hu => absurd hu List.not_mem_nil
  · rw [hholds]
    exact hledger

end Kept

end Reticulum.Discovery.Autoconnect
