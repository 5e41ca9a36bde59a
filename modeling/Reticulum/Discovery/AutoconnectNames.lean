import Reticulum.Lib.Text
import Reticulum.Discovery.AutoconnectLimits

/-!
# Names with an endpoint

A discovered name that is taken gets its endpoint added in brackets. Discovered names are
sanitised and end in no bracket, so a name that does is read back: what stands behind the last
opening bracket is the endpoint. Two interfaces with one such name would have one endpoint, and an
endpoint is dialled once.
-/

namespace Reticulum.Discovery.Autoconnect

open Threads

/-! ## Reading a name back -/

/-- A text without an opening bracket. -/
def Unbracketed (text : String) : Prop := '[' ∉ text.toList

theorem toList_port (port : Nat) : (toString port).toList = Nat.toDigits 10 port := by
  rw [Nat.toString_eq_ofList_toDigits, String.toList_ofList]

theorem isDigit_of_mem_port {port : Nat} {c : Char} (h : c ∈ (toString port).toList) :
    c.isDigit = true := by
  rw [toList_port] at h
  exact Nat.isDigit_of_mem_toDigits (by decide) (by decide) h

theorem port_inj {port port' : Nat} (h : (toString port).toList = (toString port').toList) :
    port = port' := by
  rw [toList_port, toList_port] at h
  have hvalue := congrArg (fun digits => Nat.ofDigitChars 10 digits 0) h
  simpa only [Nat.ofDigitChars_ten_toDigits] using hvalue

theorem toList_endpoint (address : String) (port : Nat) :
    (endpoint address port).toList = address.toList ++ ':' :: (toString port).toList := by
  simp [endpoint]

theorem endpoint_inj {address address' : String} {port port' : Nat}
    (h : endpoint address port = endpoint address' port') : address = address' ∧ port = port' := by
  have hlist := congrArg String.toList h
  rw [toList_endpoint, toList_endpoint] at hlist
  have hcolon : ∀ n : Nat, ':' ∉ (toString n).toList := by
    intro n hmem
    have hdigit := isDigit_of_mem_port hmem
    revert hdigit
    decide
  obtain ⟨haddress, hport⟩ := Text.append_cons_inj_last (hcolon _) (hcolon _) hlist
  exact ⟨String.toList_injective haddress, port_inj hport⟩

theorem toList_withEndpoint (name address : String) (port : Nat) :
    (withEndpoint name address port).toList =
      (name.toList ++ [' ']) ++ '[' :: ((endpoint address port).toList ++ [']']) := by
  simp [withEndpoint]

theorem withEndpoint_inj {name name' address address' : String} {port port' : Nat}
    (ha : Unbracketed address) (ha' : Unbracketed address')
    (h : withEndpoint name address port = withEndpoint name' address' port') :
    address = address' ∧ port = port' := by
  have hlist := congrArg String.toList h
  rw [toList_withEndpoint, toList_withEndpoint] at hlist
  have hfree : ∀ (address : String) (port : Nat), Unbracketed address →
      '[' ∉ (endpoint address port).toList ++ [']'] := by
    intro address port haddress hmem
    rw [toList_endpoint] at hmem
    simp only [List.mem_append, List.mem_cons, List.not_mem_nil, or_false] at hmem
    rcases hmem with (hmem | hmem | hmem) | hmem
    · exact haddress hmem
    · exact absurd hmem (by decide)
    · have hdigit := isDigit_of_mem_port hmem
      revert hdigit
      decide
    · exact absurd hmem (by decide)
  obtain ⟨-, hrest⟩ := Text.append_cons_inj_last (hfree _ _ ha) (hfree _ _ ha') hlist
  exact endpoint_inj (String.toList_injective (List.append_cancel_right hrest))

theorem endsBracket_withEndpoint (name address : String) (port : Nat) :
    EndsBracket (withEndpoint name address port) := by
  unfold EndsBracket
  rw [toList_withEndpoint, ← List.cons_append, ← List.append_assoc, List.getLast?_concat]

/-! ## Discovered names -/

/-- The name of a discovered interface: a sanitised one, or one made from the type. -/
def DiscoveredName (info : InterfaceInfo) : Prop :=
  (∃ text, sanitizeName text = some info.name) ∨
    (info.name = "Discovered " ++ info.interfaceType ∧
      discoverableInterfaceTypes.contains info.interfaceType = true)

theorem not_endsBracket_of_discoveredName {info : InterfaceInfo} (h : DiscoveredName info) :
    ¬ EndsBracket info.name := by
  intro hend
  rcases h with ⟨text, htext⟩ | ⟨hname, htype⟩
  · have hlast := getLast?_sanitizeName htext ']' hend
    revert hlast
    decide
  · have hall : ∀ type ∈ discoverableInterfaceTypes,
        ("Discovered " ++ type).toList.getLast? ≠ some ']' := by decide
    rw [hname] at hend
    exact hall _ (List.contains_iff_mem.mp htype) hend

/-- An announced interface whose address has no opening bracket. -/
def Plain (info : InterfaceInfo) : Prop :=
  DiscoveredName info ∧ ∀ address, info.reachableOn = some address → Unbracketed address

/-! ## The invariant -/

/-- A name that ends in an endpoint is the name of something on that endpoint. -/
def Endpoint (name : String) (on : String → Nat → Prop) : Prop :=
  ∀ front address port, Unbracketed address → name = withEndpoint front address port →
    on address port

theorem Endpoint.of_not_endsBracket {name : String} {on : String → Nat → Prop}
    (h : ¬ EndsBracket name) : Endpoint name on := by
  rintro front address port - rfl
  exact absurd (endsBracket_withEndpoint _ _ _) h

/-- The stub, the reservation or the dial of an interface is on the endpoint in its name. -/
def Stub.Named (stub : Stub) : Prop :=
  Endpoint stub.name fun address port => stub.address = some address ∧ stub.port = some port

/-- If the name has an endpoint, the hash is of that endpoint. -/
def HashNamed (st : Setting) (name : String) (hash : Bytes) : Prop :=
  Endpoint name fun address port => hash = st.fullHash (endpoint address port)

/-- A dial whose name has an endpoint goes to that endpoint. -/
def Dial.Named (st : Setting) (dial : Dial) : Prop :=
  HashNamed st dial.name dial.endpointHash ∧
    Endpoint dial.name fun address port => dial.address = address ∧ dial.port = port

/-- What a task is about to dial or restore is named so. -/
def Task.Named (st : Setting) : Task → Prop
  | .connectNext infos => ∀ info ∈ infos, Plain info
  | .tryAutoconnect info | .reserve info | .candidate info => Plain info
  | .connect dial | .registerHandler dial _ | .registerStub dial _ | .settle dial _ =>
      dial.Named st
  | .restore config | .restoreHandler config | .restoreStub config => ¬ EndsBracket config.name
  | _ => True

/-- So is what the tables hold. -/
structure CoreNamed (st : Setting) (c : Core) : Prop where
  interfaces : ∀ stub ∈ c.interfaces, stub.Named
  locals : ∀ name ∈ c.localClientInterfaces, Endpoint name fun _ _ => False
  monitored : ∀ entry ∈ c.monitored, HashNamed st entry.name entry.endpointHash
  dialling : ∀ d ∈ c.dialling, HashNamed st d.2 d.1

/-- The tables and the tasks name endpoints rightly. -/
def Named (st : Setting) (c : Core) (p : List Task) : Prop :=
  CoreNamed st c ∧ ∀ t ∈ p, t.Named st

/-- What comes from outside announces plain interfaces. -/
def Answer.Plain (answer : Answer) : Prop :=
  (∀ info ∈ answer.listed, Autoconnect.Plain info) ∧
    ∀ info ∈ answer.selected, Autoconnect.Plain info

/-- The call brings no address with a bracket. -/
def Call.Plain : Call → Prop
  | .autoconnect info => Autoconnect.Plain info
  | _ => True

variable {st : Setting} {c : Core} {p : List Task}

/-- The endpoint hash is taken over the endpoint. -/
theorem endpointHash_eq {info : InterfaceInfo} {address : String} {port : Nat}
    (haddress : info.reachableOn = some address) (hport : info.port = some port) :
    endpointHash st info = st.fullHash (endpoint address port) := by
  unfold endpointHash endpoint
  rw [haddress, hport, String.append_assoc]
  rfl

/-- The name with the endpoint added is free, since the endpoint is. -/
theorem nameFree_of_named (h : CoreNamed st c) {info : InterfaceInfo} (hplain : Plain info) :
    NameFree st info c := by
  intro address port haddress hport hnew _
  have hfree := hplain.2 address haddress
  rw [endpointHash_eq haddress hport] at hnew
  unfold existsIn Core.hasInterfaceEndpoint at hnew
  simp only [haddress, hport, Bool.or_eq_false_iff, Option.any_some, Option.all_some] at hnew
  obtain ⟨⟨hmon, hdial⟩, hstubs⟩ := hnew
  unfold nameTaken Core.interfaceRegistered
  simp only [Bool.or_eq_false_iff]
  refine ⟨⟨⟨?_, ?_⟩, ?_⟩, ?_⟩
  · refine List.any_eq_false.mpr fun stub hs hname => ?_
    obtain ⟨ha, hp⟩ := h.interfaces stub hs _ address port hfree (by simpa using hname)
    exact List.any_eq_false.mp hstubs stub hs (by simp [ha, hp])
  · refine Bool.eq_false_iff.mpr fun hmem => ?_
    exact h.locals _ (List.contains_iff_mem.mp hmem) _ address port hfree rfl
  · refine List.any_eq_false.mpr fun entry hentry hname => ?_
    have hhash := h.monitored entry hentry _ address port hfree (by simpa using hname)
    exact List.any_eq_false.mp hmon entry hentry (by simp [hhash])
  · refine List.any_eq_false.mpr fun d hd hname => ?_
    have hhash := h.dialling d hd _ address port hfree (by simpa using hname)
    exact List.any_eq_false.mp hdial d hd (by simp [hhash])

/-- The name that a dial takes names its own endpoint or none. -/
theorem named_uniqueInterfaceName (st : Setting) (c : Core) {info : InterfaceInfo}
    {address : String} {port : Nat} (hplain : Plain info)
    (haddress : info.reachableOn = some address) (hport : info.port = some port) :
    Dial.Named st
      { name := uniqueInterfaceName c info.name address port, address, port,
        endpointHash := endpointHash st info } := by
  have hend := not_endsBracket_of_discoveredName hplain.1
  unfold Dial.Named HashNamed uniqueInterfaceName
  split
  · refine ⟨fun front other port' hother heq => ?_, fun front other port' hother heq => ?_⟩
    · obtain ⟨rfl, rfl⟩ := withEndpoint_inj (hplain.2 address haddress) hother heq
      exact endpointHash_eq haddress hport
    · exact withEndpoint_inj (hplain.2 address haddress) hother heq
  · exact ⟨Endpoint.of_not_endsBracket hend, Endpoint.of_not_endsBracket hend⟩

/-! ## Every task keeps it -/

namespace CoreNamed

variable {k : Core}

section

variable (h : CoreNamed st c)

include h

/-- Nothing new is registered, monitored or dialled. -/
theorem mono
    (hinterfaces : ∀ stub ∈ k.interfaces, ∃ old ∈ c.interfaces,
      old.name = stub.name ∧ old.address = stub.address ∧ old.port = stub.port)
    (hlocals : ∀ name ∈ k.localClientInterfaces, name ∈ c.localClientInterfaces)
    (hmonitored : ∀ entry ∈ k.monitored, ∃ old ∈ c.monitored, old.key = entry.key)
    (hdialling : ∀ d ∈ k.dialling, d ∈ c.dialling) : CoreNamed st k where
  interfaces stub hstub := by
    obtain ⟨old, hold, hname, haddress, hport⟩ := hinterfaces stub hstub
    have hnamed := h.interfaces old hold
    unfold Stub.Named at hnamed ⊢
    rwa [hname, haddress, hport] at hnamed
  locals name hname := h.locals name (hlocals name hname)
  monitored entry hentry := by
    obtain ⟨old, hold, hkey⟩ := hmonitored entry hentry
    obtain ⟨hname, hrest⟩ := Prod.mk.inj hkey
    obtain ⟨hhash, -⟩ := Prod.mk.inj hrest
    exact hname ▸ hhash ▸ h.monitored old hold
  dialling d hd := h.dialling d (hdialling d hd)

theorem registerStub {stub : Stub} (hstub : stub.Named) :
    CoreNamed st (c.registerInterfaceStubConfig stub) := by
  unfold Core.registerInterfaceStubConfig
  split
  · exact h
  · refine ⟨fun s hs => ?_, h.locals, h.monitored, h.dialling⟩
    rcases List.mem_append.mp hs with hs | hs
    · exact h.interfaces s hs
    · exact List.mem_singleton.mp hs ▸ hstub

theorem deregisterStub (name : String) :
    CoreNamed st (c.deregisterInterfaceStub name) :=
  h.mono (fun stub hs => ⟨stub, (List.mem_filter.mp hs).1, rfl, rfl, rfl⟩)
    (fun _ hn => (List.mem_filter.mp hn).1) (fun entry he => ⟨entry, he, rfl⟩) fun _ hd => hd

theorem setInterfaceOnline (name : String) (online : Bool) :
    CoreNamed st (c.setInterfaceOnline name online) := by
  refine h.mono (fun stub hs => ?_) (fun _ hn => hn) (fun entry he => ⟨entry, he, rfl⟩)
    fun _ hd => hd
  obtain ⟨old, hold, rfl⟩ := List.mem_map.mp hs
  refine ⟨old, hold, ?_⟩
  split <;> exact ⟨rfl, rfl, rfl⟩

theorem settle {dial : Dial} (hdial : dial.Named st)
    (connected : Option Nat) : CoreNamed st (settle dial connected c).core := by
  have hfewer : CoreNamed st
      { c with dialling := c.dialling.filter fun d => d.1 != dial.endpointHash } :=
    h.mono (fun stub hs => ⟨stub, hs, rfl, rfl, rfl⟩) (fun _ hn => hn)
      (fun entry he => ⟨entry, he, rfl⟩) fun _ hd => (List.mem_filter.mp hd).1
  unfold Autoconnect.settle
  cases connected with
  | none => exact hfewer
  | some i =>
      dsimp only
      split
      · exact hfewer
      · refine ⟨hfewer.interfaces, hfewer.locals, fun entry he => ?_, hfewer.dialling⟩
        rcases List.mem_append.mp he with he | he
        · exact h.monitored entry he
        · exact List.mem_singleton.mp he ▸ hdial.1

theorem passPlan (online bootstrap : List String) (answer : Answer) :
    CoreNamed st (passPlan st online bootstrap answer c).core := by
  refine h.mono (fun stub hs => ⟨stub, hs, rfl, rfl, rfl⟩) (fun _ hn => hn) (fun entry he => ?_)
    fun _ hd => hd
  obtain ⟨⟨old, watch⟩, hw, rfl⟩ := List.mem_map.mp he
  refine ⟨old, (List.of_mem_zip hw).1, ?_⟩
  cases watch <;> rfl

end

end CoreNamed

theorem named_settle {dial : Dial} {connected : Option Nat} :
    ∀ u ∈ (settle dial connected c).next, u.Named st := by
  unfold settle
  intro u hu
  cases connected with
  | none => exact absurd hu List.not_mem_nil
  | some i =>
      dsimp only at hu
      split at hu
      · exact List.mem_singleton.mp hu ▸ True.intro
      · exact List.mem_singleton.mp hu ▸ True.intro

theorem named_passPlan (hconf : ∀ config ∈ st.bootstrapConfigs, ¬ EndsBracket config.name)
    {online bootstrap : List String} {answer : Answer} (hanswer : answer.Plain) :
    ∀ u ∈ (passPlan st online bootstrap answer c).next, u.Named st := by
  intro u hu
  unfold passPlan at hu
  simp only [List.mem_append, List.mem_map] at hu
  rcases hu with ((hu | hu) | ⟨name, -, rfl⟩) | hu
  · split at hu
    · obtain ⟨config, hin, rfl⟩ := List.mem_map.mp hu
      exact hconf config hin
    · exact absurd hu List.not_mem_nil
  · split at hu
    · obtain ⟨info, hin, rfl⟩ := List.mem_map.mp hu
      exact hanswer.2 info (Option.mem_toList.mp hin)
    · exact absurd hu List.not_mem_nil
  · exact True.intro
  · split at hu
    · exact List.mem_singleton.mp hu ▸ True.intro
    · exact absurd hu List.not_mem_nil

/-- What a task goes on to do names endpoints rightly, and so do the tables. -/
abbrev NamedAfter (st : Setting) (c : Core) (t : Task) (answer : Answer) : Prop :=
  CoreNamed st (exec st t answer c).core ∧
    (∀ u ∈ (exec st t answer c).next, u.Named st) ∧
    ∀ u ∈ (exec st t answer c).started.flatten, u.Named st

theorem named_reserve {info : InterfaceInfo} (h : CoreNamed st c) (hinfo : Plain info)
    (answer : Answer) : NamedAfter st c (.reserve info) answer := by
  have hnone := List.forall_mem_nil (Task.Named st)
  simp only [NamedAfter, exec]
  rcases reserve_cases st info c with hno | ⟨address, port, haddress, hport, -, -, hyes⟩
  · rw [hno]
    exact ⟨h, hnone, hnone⟩
  · rw [hyes]
    have hdial := named_uniqueInterfaceName st c hinfo haddress hport
    refine ⟨⟨h.interfaces, h.locals, h.monitored, fun d hd => ?_⟩,
      List.forall_mem_singleton.mpr hdial, hnone⟩
    rcases List.mem_append.mp hd with hd | hd
    · exact h.dialling d hd
    · exact List.mem_singleton.mp hd ▸ hdial.1

theorem named_teardownInterface (h : CoreNamed st c) (name : String) (answer : Answer) :
    NamedAfter st c (.teardownInterface name) answer := by
  have hnone := List.forall_mem_nil (Task.Named st)
  simp only [NamedAfter, exec]
  unfold teardownInterface
  split
  · exact ⟨h, hnone, hnone⟩
  · split
    · exact ⟨h, hnone, hnone⟩
    · refine ⟨h.mono (fun stub hs => ⟨stub, hs, rfl, rfl, rfl⟩) (fun _ hn => hn)
        (fun entry he => ⟨entry, List.mem_of_mem_eraseP he, rfl⟩) fun _ hd => hd,
        List.forall_mem_singleton.mpr True.intro, hnone⟩

theorem named_exec (hconf : ∀ config ∈ st.bootstrapConfigs, ¬ EndsBracket config.name) (t : Task)
    (answer : Answer) (hanswer : answer.Plain) (h : CoreNamed st c) (ht : t.Named st) :
    NamedAfter st c t answer := by
  have hnone := List.forall_mem_nil (Task.Named st)
  have hone : ∀ {u : Task}, u.Named st → ∀ v ∈ [u], v.Named st := List.forall_mem_singleton.mpr
  have htwo : ∀ {u v : Task}, u.Named st → v.Named st → ∀ w ∈ [u, v], w.Named st :=
    fun hu hv => List.forall_mem_cons.mpr ⟨hu, hone hv⟩
  have hframe : ∀ k : Core, k.interfaces = c.interfaces →
      k.localClientInterfaces = c.localClientInterfaces → k.monitored = c.monitored →
      k.dialling = c.dialling → CoreNamed st k := by
    intro k hi hl hm hd
    exact ⟨hi ▸ h.interfaces, hl ▸ h.locals, hm ▸ h.monitored, hd ▸ h.dialling⟩
  cases t with
  | connectDiscovered => exact ⟨h, forall_mem_ite (hone hanswer.1) hnone, hnone⟩
  | connectNext infos =>
      cases infos with
      | nil => exact ⟨hframe _ rfl rfl rfl rfl, hnone, hnone⟩
      | cons info rest =>
          have hrest : ∀ i ∈ rest, Plain i := fun i hi => ht i (List.mem_cons_of_mem _ hi)
          have hempty : ∀ i ∈ ([] : List InterfaceInfo), Plain i :=
            fun _ hi => absurd hi List.not_mem_nil
          simp only [NamedAfter, exec]
          split
          · exact ⟨h, hone hempty, hnone⟩
          · exact ⟨h, htwo (ht info List.mem_cons_self) hrest, hnone⟩
  | tryAutoconnect info => exact ⟨h, forall_mem_ite hnone (hone ht), hnone⟩
  | reserve info => exact named_reserve h ht answer
  | connect dial =>
      simp only [NamedAfter, exec]
      split
      · exact ⟨hframe _ rfl rfl rfl rfl, hone ht, hnone⟩
      · exact ⟨h, hone ht, hnone⟩
  | registerHandler dial i => exact ⟨hframe _ rfl rfl rfl rfl, hone ht, hnone⟩
  | registerStub dial i =>
      refine ⟨h.registerStub fun front address port hfree heq => ?_, hone ht, hnone⟩
      obtain ⟨rfl, rfl⟩ := ht.2 front address port hfree heq
      exact ⟨rfl, rfl⟩
  | settle dial connected =>
      simp only [NamedAfter, exec, started_settle]
      exact ⟨h.settle ht connected, named_settle, hnone⟩
  | monitorInterface => exact ⟨h, forall_mem_ite hnone (hone True.intro), hnone⟩
  | startMonitor =>
      simp only [NamedAfter, exec]
      split
      · exact ⟨h, hnone, hnone⟩
      · split
        · exact ⟨hframe _ rfl rfl rfl rfl, hnone, hone True.intro⟩
        · exact ⟨hframe _ rfl rfl rfl rfl, hone True.intro, hnone⟩
  | monitorFailed => exact ⟨hframe _ rfl rfl rfl rfl, hnone, hnone⟩
  | monitorJob => exact ⟨h, forall_mem_ite (hone True.intro) hnone, hnone⟩
  | monitorWake => exact ⟨h, forall_mem_ite (htwo True.intro True.intro) hnone, hnone⟩
  | passOnline => exact ⟨h, hone True.intro, hnone⟩
  | passBootstrap online => exact ⟨h, hone True.intro, hnone⟩
  | passPlan online bootstrap =>
      exact ⟨h.passPlan online bootstrap answer, named_passPlan hconf hanswer, hnone⟩
  | restore config => exact ⟨h, forall_mem_ite (forall_mem_ite (htwo ht ht) (hone ht)) hnone, hnone⟩
  | restoreHandler config => exact ⟨hframe _ rfl rfl rfl rfl, hnone, hnone⟩
  | restoreStub config =>
      exact ⟨h.registerStub (Endpoint.of_not_endsBracket ht), hnone, hnone⟩
  | candidate info => exact ⟨h, forall_mem_ite hnone (hone ht), hnone⟩
  | teardownBootstrap names =>
      refine ⟨h, fun u hu => ?_, hnone⟩
      obtain ⟨name, -, hin⟩ := List.mem_flatMap.mp hu
      have hboth : ∀ w ∈ [Task.bootstrapHandler name, Task.bootstrapStub name], w.Named st :=
        htwo True.intro True.intro
      exact hboth u hin
  | bootstrapHandler name => exact ⟨hframe _ rfl rfl rfl rfl, hnone, hnone⟩
  | bootstrapStub name => exact ⟨h.deregisterStub name, hnone, hnone⟩
  | teardownInterface name => exact named_teardownInterface h name answer
  | removeHandler remover entry => exact ⟨hframe _ rfl rfl rfl rfl, hone True.intro, hnone⟩
  | removeStub remover entry =>
      have hdrop := h.deregisterStub entry.name
      refine ⟨⟨hdrop.interfaces, hdrop.locals, hdrop.monitored, hdrop.dialling⟩, ?_, hnone⟩
      cases remover with
      | stop rest => exact hone True.intro
      | tryAutoconnect | teardown => exact hnone
  | setStopped => exact ⟨hframe _ rfl rfl rfl rfl, hone True.intro, hnone⟩
  | clearMonitoring => exact ⟨hframe _ rfl rfl rfl rfl, hone True.intro, hnone⟩
  | takeMonitored =>
      exact ⟨⟨h.interfaces, h.locals, fun _ he => absurd he List.not_mem_nil, h.dialling⟩,
        hone True.intro, hnone⟩
  | stopNext entries =>
      cases entries with
      | nil => exact ⟨hframe _ rfl rfl rfl rfl, hnone, hnone⟩
      | cons entry rest => exact ⟨h, hone True.intro, hnone⟩
  | setOnline name online => exact ⟨h.setInterfaceOnline name online, hnone, hnone⟩

end Reticulum.Discovery.Autoconnect
