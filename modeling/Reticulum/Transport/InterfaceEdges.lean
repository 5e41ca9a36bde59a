import Mathlib.Data.Finset.SDiff
import Mathlib.Data.Finset.Card
import Reticulum.Lib.FirstMatch
import Reticulum.Transport.OwnAnnounces

/-!
# Up-edges and down-edges of interfaces

The calls of `src/transport.rs` that register an interface, set it online and take it
away, with what they tell `notify_interface_up` and `notify_interface_down`. A listener
that hears every edge knows which interfaces are online, unless an interface is
registered online with `register_interface_stub_config` (`edges_truthful_iff`).

## Implementation notes

The calls are made one after the other, each with its notification.
-/

namespace Reticulum.Transport

/-- An edge that listeners are told of. -/
inductive Edge
  | up
  | down
  deriving DecidableEq

/-- A call that may change which interfaces are online. -/
inductive EdgeCall
  | registerInterfaceStub (i : InterfaceStub)
  | registerAutoInterfacePeer (i : InterfaceStub)
  | setInterfaceOnline (name : String) (online : Bool)
  | deregisterInterfaceStub (name : String)
  | deregisterAutoInterfacePeer (name : String)

namespace Announcer

def onlineInterfaceNames (a : Announcer) : List String :=
  (a.interfaces.filter (·.online)).map (·.name)

/-- An interface has this name. -/
def isRegistered (a : Announcer) (name : String) : Bool := a.interfaces.any fun i => i.name == name

/-- Whether the first interface with this name, here and among local clients, is online as said. -/
def findsOnline (a : Announcer) (name : String) (online : Bool) : Bool :=
  (a.interfaces.find? fun i => i.name == name).any (fun i => i.online == online) ||
    (a.localClientInterfaces.find? fun i => i.name == name).any fun i => i.online == online

/-- `was_online` of `remove_interface_stub_locked`. -/
def wasOnline (a : Announcer) (name : String) : Bool :=
  (a.interfaces.any fun i => i.name == name && i.online) ||
    a.localClientInterfaces.any fun i => i.name == name && i.online

/-- The announcer after a call. -/
def after (a : Announcer) : EdgeCall → Announcer
  | .registerInterfaceStub i => a.registerInterfaceStub i
  | .registerAutoInterfacePeer i => a.registerAutoInterfacePeer i
  | .setInterfaceOnline name online => a.setInterfaceOnline name online
  | .deregisterInterfaceStub name => a.deregisterInterfaceStub name
  | .deregisterAutoInterfacePeer name => a.deregisterAutoInterfacePeer name

/-- The calls of `notify_interface_up` and `notify_interface_down` that a call makes. -/
def notifies (a : Announcer) : EdgeCall → List (Edge × String)
  | .registerInterfaceStub _ => []
  | .registerAutoInterfacePeer i =>
      if a.isRegistered i.name then [] else if i.online then [(.up, i.name)] else []
  | .setInterfaceOnline name online =>
      (if online && a.findsOnline name false then [(.up, name)] else []) ++
        if !online && a.findsOnline name true then [(.down, name)] else []
  | .deregisterInterfaceStub name => if a.wasOnline name then [(.down, name)] else []
  | .deregisterAutoInterfacePeer name => if a.wasOnline name then [(.down, name)] else []

end Announcer

/-- The announcer, the edges so far, `interface_up_edges`, and how often a name came to be in
`online_interface_names`. -/
structure Edges where
  announcer : Announcer
  notified : List (Edge × String)
  upEdges : Nat
  entered : Nat

namespace Edges

/-- No interface is registered yet. -/
def start (a : Announcer) : Edges :=
  { announcer := { a with interfaces := [], localClientInterfaces := [] }
    notified := [], upEdges := 0, entered := 0 }

/-- The interfaces that are online. -/
def online (s : Edges) : List String := s.announcer.onlineInterfaceNames

/-- The edges of an interface. -/
def edgesOf (s : Edges) (name : String) : List Edge :=
  (s.notified.filter fun e => e.2 == name).map Prod.fst

/-- One call. -/
def step (s : Edges) (call : EdgeCall) : Option Edges :=
  let announcer := s.announcer.after call
  let notified := s.announcer.notifies call
  some
    { announcer := announcer
      notified := s.notified ++ notified
      upEdges := s.upEdges + (notified.filter fun e => e.1 == .up).length
      entered := s.entered +
        (announcer.onlineInterfaceNames.toFinset \ s.online.toFinset).card }

end Edges

/-- Up, down, up and so on. -/
def Alternates (edges : List Edge) : Prop :=
  ∀ k e, edges[k]? = some e → e = if k % 2 = 0 then .up else .down

/-- The edges say which interfaces are online. -/
structure Truthful (s : Edges) : Prop where
  alternates : ∀ name, Alternates (s.edgesOf name)
  last : ∀ name, name ∈ s.online ↔ (s.edgesOf name).getLast? = some .up
  counted : s.upEdges = s.entered

/-- A new interface is not registered online with `register_interface_stub_config`. -/
def RegistersOffline (s : Edges) : EdgeCall → Prop
  | .registerInterfaceStub i => i.online = true → s.announcer.isRegistered i.name = true
  | _ => True

/-! ## How a call moves -/

/-- What becomes of the interfaces that are online, and the edges that tell of it. -/
inductive Moves (online online' : List String) : List (Edge × String) → Prop
  | stays (h : ∀ n, n ∈ online' ↔ n ∈ online) : Moves online online' []
  | goesUp (name : String) (hname : name ∉ online)
      (h : ∀ n, n ∈ online' ↔ n = name ∨ n ∈ online) : Moves online online' [(.up, name)]
  | goesDown (name : String) (hname : name ∈ online)
      (h : ∀ n, n ∈ online' ↔ n ≠ name ∧ n ∈ online) : Moves online online' [(.down, name)]

variable {b : Announcer} {s' : Edges} {i : InterfaceStub}

namespace Announcer

variable {a : Announcer}

theorem mem_onlineInterfaceNames {name : String} :
    name ∈ a.onlineInterfaceNames ↔ ∃ i ∈ a.interfaces, i.online = true ∧ i.name = name := by
  simp [onlineInterfaceNames, and_assoc]

/-- The interface of a name is the one that is found. -/
theorem online_iff_find (hnames : (a.interfaces.map (·.name)).Nodup) (name : String) :
    name ∈ a.onlineInterfaceNames ↔
      (a.interfaces.find? fun i => i.name == name).any (·.online) = true := by
  rw [mem_onlineInterfaceNames]
  constructor
  · rintro ⟨i, hi, honline, hname⟩
    cases hfind : a.interfaces.find? fun i => i.name == name with
    | none =>
        have hno := List.find?_eq_none.mp hfind i hi
        exact absurd (beq_iff_eq.mpr hname) hno
    | some j =>
        have hj : j.name = name := by simpa using List.find?_some hfind
        obtain rfl : j = i := List.inj_on_of_nodup_map hnames (List.mem_of_find?_eq_some hfind) hi
          (hj.trans hname.symm)
        exact honline
  · intro h
    obtain ⟨i, hfind, honline⟩ := (Option.any_eq_true _ _).mp h
    exact ⟨i, List.mem_of_find?_eq_some hfind, honline, by simpa using List.find?_some hfind⟩

theorem interfaces_setInterfaceOnline (name : String) (online : Bool) :
    (a.setInterfaceOnline name online).interfaces = FirstMatch.update (fun i => i.name == name)
      (fun i => { i with online := online }) a.interfaces := by
  unfold setInterfaceOnline
  dsimp only
  rw [apply_ite Announcer.interfaces]
  simp only [upEdge, ite_self]
  cases hfind : a.interfaces.findIdx? fun i => i.name == name with
  | none => exact (FirstMatch.update_eq_self hfind).symm
  | some k => exact FirstMatch.modify_eq_update hfind

theorem localClients_setInterfaceOnline (hclients : a.localClientInterfaces = []) (name : String)
    (online : Bool) : (a.setInterfaceOnline name online).localClientInterfaces = [] := by
  unfold setInterfaceOnline
  dsimp only
  rw [apply_ite Announcer.localClientInterfaces]
  simp [upEdge, hclients]

theorem online_setInterfaceOnline (hnames : (a.interfaces.map (·.name)).Nodup) (name : String)
    (online : Bool) (n : String) :
    n ∈ (a.setInterfaceOnline name online).onlineInterfaceNames ↔
      if n = name then (a.interfaces.find? fun i => i.name == name).any (fun _ => online) = true
      else n ∈ a.onlineInterfaceNames := by
  have hinterfaces := interfaces_setInterfaceOnline (a := a) name online
  have hnames' : ((a.setInterfaceOnline name online).interfaces.map (·.name)).Nodup := by
    rw [hinterfaces, FirstMatch.map_update]
    · exact hnames
    · exact fun _ => rfl
  rw [online_iff_find hnames', hinterfaces]
  split
  · rename_i hn
    subst hn
    rw [FirstMatch.find?_update, Option.any_map]
    exact fun _ => rfl
  · rename_i hn
    rw [online_iff_find hnames, FirstMatch.find?_update_of_ne]
    · intro i hi
      rw [beq_iff_eq] at hi
      simpa [hi] using Ne.symm hn
    · exact fun _ => rfl

theorem moves_setInterfaceOnline (hnames : (a.interfaces.map (·.name)).Nodup)
    (hclients : a.localClientInterfaces = []) (name : String) (online : Bool) :
    Moves a.onlineInterfaceNames (a.setInterfaceOnline name online).onlineInterfaceNames
      (a.notifies (.setInterfaceOnline name online)) := by
  have hafter := online_setInterfaceOnline hnames name online
  have hbefore := online_iff_find hnames name
  cases hfind : a.interfaces.find? fun i => i.name == name with
  | none =>
      have hnotifies : a.notifies (.setInterfaceOnline name online) = [] := by
        simp [notifies, findsOnline, hclients, hfind]
      rw [hnotifies]
      simp only [hfind, Option.any_none, Bool.false_eq_true, iff_false] at hafter hbefore
      refine .stays fun n => (hafter n).trans ?_
      split
      · rename_i hn
        exact iff_of_false id (hn ▸ hbefore)
      · rfl
  | some i =>
      simp only [hfind, Option.any_some] at hafter hbefore
      -- The interface that is found says whether the call is an edge.
      have hnotifies : a.notifies (.setInterfaceOnline name online) =
          if online = i.online then [] else [(if online then .up else .down, name)] := by
        simp only [notifies, findsOnline, hclients, hfind, Option.any_some, List.find?_nil,
          Option.any_none, Bool.or_false]
        cases hi : i.online <;> cases online <;> simp
      rw [hnotifies]
      cases hi : i.online with
      | true =>
          rw [hi] at hbefore
          cases online
          · exact .goesDown name (hbefore.mpr rfl) fun n =>
              (hafter n).trans (by split <;> simp [*])
          · exact .stays fun n => (hafter n).trans (by split <;> simp [*])
      | false =>
          have hname : name ∉ a.onlineInterfaceNames :=
            fun h => absurd (hi ▸ hbefore.mp h) (by decide)
          cases online
          · exact .stays fun n => (hafter n).trans (by split <;> simp [*])
          · exact .goesUp name hname fun n => (hafter n).trans (by split <;> simp [*])

/-- An interface that is added at the end. -/
theorem online_append {i : PacedInterface} (h : b.interfaces = a.interfaces ++ [i]) (n : String) :
    n ∈ b.onlineInterfaceNames ↔
      (i.online = true ∧ n = i.name) ∨ n ∈ a.onlineInterfaceNames := by
  simp only [mem_onlineInterfaceNames, h, List.mem_append, List.mem_singleton]
  constructor
  · rintro ⟨j, hj | rfl, honline, hname⟩
    · exact .inr ⟨j, hj, honline, hname⟩
    · exact .inl ⟨honline, hname.symm⟩
  · rintro (⟨honline, rfl⟩ | ⟨j, hj, honline, hname⟩)
    · exact ⟨i, .inr rfl, honline, rfl⟩
    · exact ⟨j, .inl hj, honline, hname⟩

theorem not_online_of_not_registered {name : String} (h : a.isRegistered name = false) :
    name ∉ a.onlineInterfaceNames := by
  intro hmem
  obtain ⟨i, hi, -, hname⟩ := mem_onlineInterfaceNames.mp hmem
  exact absurd (beq_iff_eq.mpr hname) (List.any_eq_false.mp h i hi)

/-- The interfaces after one is registered, when its name is new. -/
theorem interfaces_registerInterfaceStub (h : a.isRegistered i.name = false) :
    (a.registerInterfaceStub i).interfaces = a.interfaces ++ [paced i] := by
  unfold registerInterfaceStub
  rw [if_neg (by simpa [isRegistered] using h)]
  dsimp only
  split <;> rfl

theorem interfaces_registerAutoInterfacePeer (h : a.isRegistered i.name = false) :
    (a.registerAutoInterfacePeer i).interfaces = a.interfaces ++ [paced i] := by
  unfold registerAutoInterfacePeer
  rw [if_neg (by simpa [isRegistered] using h)]

theorem registered_eq_self (h : a.isRegistered i.name = true) :
    a.registerInterfaceStub i = a ∧ a.registerAutoInterfacePeer i = a :=
  ⟨if_pos h, if_pos h⟩

/-- The interfaces after one is taken away. -/
theorem online_remove {name : String}
    (h : b.interfaces = a.interfaces.filter fun i => i.name != name) (n : String) :
    n ∈ b.onlineInterfaceNames ↔ n ≠ name ∧ n ∈ a.onlineInterfaceNames := by
  simp only [mem_onlineInterfaceNames, h, List.mem_filter, bne_iff_ne]
  constructor
  · rintro ⟨i, ⟨hi, hne⟩, honline, rfl⟩
    exact ⟨hne, i, hi, honline, rfl⟩
  · rintro ⟨hne, i, hi, honline, rfl⟩
    exact ⟨i, ⟨hi, hne⟩, honline, rfl⟩

theorem wasOnline_iff (hclients : a.localClientInterfaces = []) {name : String} :
    a.wasOnline name = true ↔ name ∈ a.onlineInterfaceNames := by
  simp [wasOnline, hclients, mem_onlineInterfaceNames, and_comm]

theorem moves_remove (hclients : a.localClientInterfaces = []) {name : String}
    (h : b.interfaces = a.interfaces.filter fun i => i.name != name) :
    Moves a.onlineInterfaceNames b.onlineInterfaceNames
      (if a.wasOnline name then [(.down, name)] else []) := by
  have hafter := online_remove h
  split
  · rename_i hwas
    exact .goesDown name ((wasOnline_iff hclients).mp hwas) hafter
  · rename_i hwas
    have hname : name ∉ a.onlineInterfaceNames := (wasOnline_iff hclients).not.mp hwas
    refine .stays fun n => (hafter n).trans ⟨fun hn => hn.2, fun hn => ⟨?_, hn⟩⟩
    rintro rfl
    exact hname hn

/-- The names are distinct, and there is no local client. -/
structure Plain (a : Announcer) : Prop where
  names : (a.interfaces.map (·.name)).Nodup
  clients : a.localClientInterfaces = []

theorem Plain.append (h : a.Plain) (hnew : a.isRegistered i.name = false)
    (hinterfaces : b.interfaces = a.interfaces ++ [paced i])
    (hclients : b.localClientInterfaces = a.localClientInterfaces) : b.Plain where
  names := by
    rw [hinterfaces, List.map_append, List.nodup_append]
    refine ⟨h.names, List.nodup_singleton _, ?_⟩
    rintro name hname _ hmem rfl
    obtain rfl := List.mem_singleton.mp hmem
    obtain ⟨j, hj, heq⟩ := List.mem_map.mp hname
    exact List.any_eq_false.mp hnew j hj (beq_iff_eq.mpr heq)
  clients := hclients.trans h.clients

theorem Plain.remove (h : a.Plain) {name : String}
    (hinterfaces : b.interfaces = a.interfaces.filter fun i => i.name != name)
    (hclients : b.localClientInterfaces = a.localClientInterfaces.filter fun i => i.name != name) :
    b.Plain where
  names := by
    rw [hinterfaces]
    exact h.names.sublist (List.filter_sublist.map _)
  clients := by rw [hclients, h.clients]; rfl

/-- Every call keeps the names distinct. -/
theorem Plain.after (h : a.Plain) (call : EdgeCall) : (a.after call).Plain := by
  cases call with
  | registerInterfaceStub i =>
      cases hnew : a.isRegistered i.name with
      | true => rw [Announcer.after, (registered_eq_self hnew).1]; exact h
      | false =>
          refine h.append hnew (interfaces_registerInterfaceStub hnew) ?_
          simp only [Announcer.after, registerInterfaceStub]
          split
          · rfl
          · dsimp only
            split <;> rfl
  | registerAutoInterfacePeer i =>
      cases hnew : a.isRegistered i.name with
      | true => rw [Announcer.after, (registered_eq_self hnew).2]; exact h
      | false =>
          refine h.append hnew (interfaces_registerAutoInterfacePeer hnew) ?_
          simp only [Announcer.after, registerAutoInterfacePeer]
          split <;> rfl
  | setInterfaceOnline name online =>
      refine ⟨?_, localClients_setInterfaceOnline h.clients name online⟩
      rw [Announcer.after, interfaces_setInterfaceOnline, FirstMatch.map_update]
      · exact h.names
      · exact fun _ => rfl
  | deregisterInterfaceStub name => exact h.remove rfl rfl
  | deregisterAutoInterfacePeer name => exact h.remove rfl rfl

/-- How the interfaces that are online and the edges go together. -/
theorem Plain.moves (h : a.Plain) {call : EdgeCall}
    (hcall : ∀ i, call = .registerInterfaceStub i → i.online = true →
      a.isRegistered i.name = true) :
    Moves a.onlineInterfaceNames (a.after call).onlineInterfaceNames (a.notifies call) := by
  cases call with
  | registerInterfaceStub i =>
      cases hnew : a.isRegistered i.name with
      | true =>
          rw [Announcer.after, (registered_eq_self hnew).1]
          exact .stays fun _ => Iff.rfl
      | false =>
          have hoffline : i.online ≠ true := fun hon => by
            rw [hcall i rfl hon] at hnew
            cases hnew
          refine .stays fun n => (online_append (interfaces_registerInterfaceStub hnew) n).trans ?_
          exact or_iff_right fun hn => hoffline hn.1
  | registerAutoInterfacePeer i =>
      cases hnew : a.isRegistered i.name with
      | true =>
          rw [Announcer.after, (registered_eq_self hnew).2, notifies, if_pos hnew]
          exact .stays fun _ => Iff.rfl
      | false =>
          have happend := online_append (interfaces_registerAutoInterfacePeer hnew)
          rw [notifies, if_neg (by simp [hnew])]
          split
          · rename_i hon
            refine .goesUp i.name (not_online_of_not_registered hnew) fun n => ?_
            exact (happend n).trans (or_congr_left (and_iff_right hon))
          · rename_i hoff
            refine .stays fun n => (happend n).trans ?_
            exact or_iff_right fun hn => hoff hn.1
  | setInterfaceOnline name online => exact moves_setInterfaceOnline h.names h.clients name online
  | deregisterInterfaceStub name => exact moves_remove h.clients rfl
  | deregisterAutoInterfacePeer name => exact moves_remove h.clients rfl

end Announcer

/-! ## The edges of one interface -/

theorem alternates_concat {edges : List Edge} (h : Alternates edges) {e : Edge}
    (he : e = if edges.length % 2 = 0 then .up else .down) : Alternates (edges ++ [e]) := by
  intro k x hx
  rcases Nat.lt_trichotomy k edges.length with hk | rfl | hk
  · rw [List.getElem?_append_left hk] at hx
    exact h k x hx
  · rw [List.getElem?_concat_length] at hx
    exact Option.some.inj hx ▸ he
  · rw [List.getElem?_eq_none (by rw [List.length_append, List.length_singleton]; omega)] at hx
    cases hx

/-- The last edge was up after an odd number of edges. -/
theorem getLast?_iff_odd {edges : List Edge} (h : Alternates edges) :
    edges.getLast? = some .up ↔ edges.length % 2 = 1 := by
  rw [List.getLast?_eq_getElem?]
  cases hlast : edges[edges.length - 1]? with
  | none =>
      rw [List.getElem?_eq_none_iff] at hlast
      have hnil : edges.length = 0 := by omega
      simp [hnil]
  | some e =>
      have he := h _ e hlast
      have hpos : 0 < edges.length := by
        have := (List.getElem?_eq_some_iff.mp hlast).1
        omega
      rw [he, Option.some.injEq]
      split
      · rename_i heven
        exact iff_of_true rfl (by omega)
      · rename_i hodd
        exact iff_of_false (by decide) (by omega)

namespace Edges

variable {s : Edges}

/-- An edge is told of one interface. -/
theorem edgesOf_append {notified : List (Edge × String)} (h : s'.notified = s.notified ++ notified)
    (name : String) :
    s'.edgesOf name =
      s.edgesOf name ++ (notified.filter fun e => e.2 == name).map Prod.fst := by
  rw [edgesOf, edgesOf, h, List.filter_append, List.map_append]

theorem edgesOf_of_quiet (h : s'.notified = s.notified) (name : String) :
    s'.edgesOf name = s.edgesOf name := by
  rw [edgesOf, edgesOf, h]

/-- The edges of an interface that comes up, and of one that goes down. -/
theorem truthful_of_edge (h : Truthful s) (edge : Edge) (name : String)
    (hnotified : s'.notified = s.notified ++ [(edge, name)])
    (hedge : edge = .down ↔ name ∈ s.online)
    (honline : ∀ n, n ∈ s'.online ↔ if n = name then edge = .up else n ∈ s.online)
    (hcounted : s'.upEdges = s'.entered) : Truthful s' := by
  have hparity := getLast?_iff_odd (h.alternates name)
  have hsame : s'.edgesOf name = s.edgesOf name ++ [edge] := by
    rw [edgesOf_append hnotified]
    simp
  have hother : ∀ n, n ≠ name → s'.edgesOf n = s.edgesOf n := fun n hn => by
    rw [edgesOf_append hnotified]
    simp [hn.symm]
  have hnext : edge = if (s.edgesOf name).length % 2 = 0 then .up else .down := by
    rw [← h.last, ← hedge] at hparity
    cases edge
    · rw [if_pos]
      have := hparity.not.mp (by decide)
      omega
    · rw [if_neg]
      have := hparity.mp rfl
      omega
  refine ⟨fun n => ?_, fun n => ?_, hcounted⟩
  · by_cases hn : n = name
    · rw [hn, hsame]
      exact alternates_concat (h.alternates name) hnext
    · rw [hother n hn]
      exact h.alternates n
  · rw [honline]
    split
    · rename_i hn
      rw [hn, hsame, List.getLast?_concat, Option.some.injEq]
    · rename_i hn
      rw [hother n hn]
      exact h.last n

/-- A call that is no edge. -/
theorem truthful_of_stays (h : Truthful s) (hnotified : s'.notified = s.notified)
    (honline : ∀ n, n ∈ s'.online ↔ n ∈ s.online) (hcounted : s'.upEdges = s'.entered) :
    Truthful s' := by
  refine ⟨fun n => ?_, fun n => ?_, hcounted⟩
  · rw [edgesOf_of_quiet hnotified]
    exact h.alternates n
  · rw [edgesOf_of_quiet hnotified, honline]
    exact h.last n

/-- `Truthful`, and the names are distinct. -/
structure Kept (s : Edges) : Prop extends Truthful s where
  plain : s.announcer.Plain

theorem kept_start (a : Announcer) : (start a).Kept where
  alternates := fun _ _ _ h => by cases h
  last := fun name => iff_of_false List.not_mem_nil (by simp [edgesOf, start])
  counted := rfl
  plain := ⟨.nil, rfl⟩

/-- Every call that registers no interface online keeps the edges truthful. -/
theorem Kept.step (h : s.Kept) {call : EdgeCall} (hok : RegistersOffline s call)
    (hstep : s.step call = some s') : s'.Kept := by
  obtain rfl := Option.some.inj hstep
  have hmoves : Moves s.online (s.announcer.after call).onlineInterfaceNames
      (s.announcer.notifies call) := by
    refine h.plain.moves fun i hcall => ?_
    subst hcall
    exact hok
  refine ⟨?_, h.plain.after call⟩
  generalize s.announcer.notifies call = notified at hmoves
  cases hmoves with
  | stays honline =>
      refine truthful_of_stays h.toTruthful (by simp) honline ?_
      have hnone : (s.announcer.after call).onlineInterfaceNames.toFinset \ s.online.toFinset =
          ∅ := by
        ext n
        simpa using fun hn => (honline n).mp hn
      simp [hnone, h.counted]
  | goesUp name hname honline =>
      refine truthful_of_edge h.toTruthful .up name rfl ?_ ?_ ?_
      · exact iff_of_false (by decide) hname
      · intro n
        refine (honline n).trans ?_
        split <;> simp [*]
      · have hone : (s.announcer.after call).onlineInterfaceNames.toFinset \ s.online.toFinset =
            {name} := by
          ext n
          simp only [Finset.mem_sdiff, List.mem_toFinset, honline, Finset.mem_singleton]
          constructor
          · rintro ⟨rfl | hn, hnot⟩
            · rfl
            · exact absurd hn hnot
          · rintro rfl
            exact ⟨.inl rfl, hname⟩
        simp [hone, h.counted]
  | goesDown name hname honline =>
      refine truthful_of_edge h.toTruthful .down name rfl ?_ ?_ ?_
      · exact iff_of_true rfl hname
      · intro n
        refine (honline n).trans ?_
        split <;> simp [*]
      · have hnone : (s.announcer.after call).onlineInterfaceNames.toFinset \ s.online.toFinset =
            ∅ := by
          ext n
          simpa using fun hn => ((honline n).mp hn).2
        simp [hnone, h.counted]

/-- An interface that is registered online is online without an edge. -/
theorem not_truthful_of_registersOnline (h : s.Kept) {call : EdgeCall}
    (hbad : ¬RegistersOffline s call) (hstep : s.step call = some s') : ¬Truthful s' := by
  obtain rfl := Option.some.inj hstep
  cases call with
  | registerInterfaceStub i =>
      have hbad' : i.online = true ∧ s.announcer.isRegistered i.name = false := by
        simpa [RegistersOffline] using hbad
      intro htruthful
      have honline : i.name ∈ (s.announcer.after (.registerInterfaceStub i)).onlineInterfaceNames :=
        (Announcer.online_append (Announcer.interfaces_registerInterfaceStub hbad'.2) _).mpr
          (.inl ⟨hbad'.1, rfl⟩)
      have hup := (htruthful.last i.name).mp honline
      rw [edgesOf_of_quiet (s := s) (by simp [Announcer.notifies])] at hup
      exact Announcer.not_online_of_not_registered hbad'.2 ((h.last i.name).mpr hup)
  | _ => exact absurd True.intro hbad

end Edges

/-- In a run of calls, edges and interfaces agree after every call if and only if every new
interface that `register_interface_stub_config` registers is offline. -/
theorem edges_truthful_iff (a : Announcer) (calls : List EdgeCall) :
    Runs.Always Edges.step Truthful (Edges.start a) calls ↔
      Runs.Meets Edges.step RegistersOffline (Edges.start a) calls :=
  Runs.always_iff_meets (I := Edges.Kept) (fun _ h => h.toTruthful)
    (fun _ _ _ h hok hstep => h.step hok hstep)
    (fun _ _ _ h hbad hstep => Edges.not_truthful_of_registersOnline h hbad hstep)
    (Edges.kept_start a) calls

namespace Samples

/-- A transport at its start. -/
def freshAnnouncer : Announcer :=
  { interfaces := [], localClientInterfaces := [], destinations := []
    publishedDestinations := { entries := [], nodup := .nil }
    publishedLastChecked := 0, publishedCheckInterval := 30, publishedLastAnnouncedAt := 0
    announceSentAt := [], upEdgePendingInterfaces := [] }

/-- An interface that is online when it is registered, and goes away. -/
def onlineStub : InterfaceStub :=
  { name := "left", online := true, bitrate := none, hwMtu := none, autoconfigureMtu := false
    fixedMtu := false, mode := 1, tunnelId := none, lastInboundAt := 0 }

/-- Its first edge is down. -/
theorem edges_truthful_false :
    ¬∀ (a : Announcer) (calls : List EdgeCall),
      Runs.Always Edges.step Truthful (Edges.start a) calls := by
  intro h
  have htruthful := h freshAnnouncer
    [.registerInterfaceStub onlineStub, .deregisterInterfaceStub "left"] _ _
    (List.prefix_refl _) rfl
  have hdown : Edge.down = .up := htruthful.alternates "left" 0 .down (by decide +kernel)
  cases hdown

end Samples

end Reticulum.Transport
