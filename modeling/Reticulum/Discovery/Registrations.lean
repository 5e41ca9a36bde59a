import Mathlib.Data.List.Perm.Basic
import Reticulum.Discovery.Autoconnect

/-!
# Names held in Transport

Transport knows interfaces by their names: it keeps a stub and a handler under each. Whoever
brings an interface up reserves a name, has a client, registers its handler and then its stub, and
takes them off in the same order. A ledger says that the registrations made for discovered
interfaces are those that the holds account for, and that no two holds share a name.

## Implementation notes

A hold is one reserved name with how far its registration has come. The moves below are the only
ones that the tasks make; each is stated with the hold that moves at the head of the list.
-/

namespace Reticulum.Discovery.Autoconnect

/-- What Transport has registered, with the record of what was taken off. -/
structure Registry where
  stubs : List (String × Owner)
  locals : List String
  handlers : List (String × Owner)
  clients : Nat
  gone : List Nat
  removals : List (Autoconnected × Owner)

namespace Registry

variable (r : Registry)

/-- A handler replaces one of the same name. -/
def putHandler (name : String) (owner : Owner) : Registry :=
  { r with handlers := Assoc.put r.handlers name owner }

/-- A stub is dropped when its name is taken. -/
def addStub (name : String) (owner : Owner) : Registry :=
  if name ∈ r.stubs.map Prod.fst then r else { r with stubs := r.stubs ++ [(name, owner)] }

/-- The handler of a name goes. -/
def dropHandler (name : String) : Registry :=
  { r with handlers := Assoc.retain (fun n => n != name) r.handlers }

/-- The stubs of a name go. -/
def dropStub (name : String) : Registry :=
  { r with
    stubs := r.stubs.filter fun e => e.1 != name
    locals := r.locals.filter fun n => n != name }

end Registry

/-- The registry of `Transport`. -/
def Core.registry (c : Core) : Registry :=
  { stubs := c.interfaces.map fun stub => (stub.name, stub.owner)
    locals := c.localClientInterfaces
    handlers := c.outboundHandlers
    clients := c.clients
    gone := c.gone
    removals := c.removals }

/-- A reserved name: its client, once there is one, and whether its handler and its stub are
registered. -/
structure Hold where
  name : String
  interface : Option Nat
  handler : Bool
  stub : Bool

/-- The registrations are those of the holds, and each hold has its own. -/
structure Ledger (r : Registry) (holds : List Hold) : Prop where
  names : (holds.map Hold.name).Nodup
  interfaces : (holds.filterMap Hold.interface ++ r.gone).Nodup
  bound : ∀ i ∈ holds.filterMap Hold.interface ++ r.gone, i < r.clients
  stubs : ∀ n i, (n, Owner.discovered i) ∈ r.stubs ↔
    ∃ h ∈ holds, h.name = n ∧ h.interface = some i ∧ h.stub = true
  handlers : ∀ n i, (n, Owner.discovered i) ∈ r.handlers ↔
    ∃ h ∈ holds, h.name = n ∧ h.interface = some i ∧ h.handler = true
  free : ∀ h ∈ holds, h.name ∉ r.locals ∧ (h.name, Owner.other) ∉ r.stubs
  displaced : ∀ h ∈ holds, h.stub = true → (h.name, Owner.other) ∉ r.handlers
  keys : (r.handlers.map Prod.fst).Nodup
  registered : (r.stubs.map Prod.fst ++ r.locals).Nodup
  removals : ∀ e ∈ r.removals, e.2 = .discovered e.1.interface

/-- An interface is registered under a name by its stub or its handler. -/
def Registry.Registered (r : Registry) (name : String) (owner : Owner) : Prop :=
  (name, owner) ∈ r.stubs ∨ (name, owner) ∈ r.handlers ∨ (name ∈ r.locals ∧ owner = .other)

theorem mem_filter_name {m : List (String × Owner)} {k n : String} {o : Owner} :
    (n, o) ∈ m.filter (fun e => e.1 != k) ↔ n ≠ k ∧ (n, o) ∈ m := by
  rw [List.mem_filter, and_comm]
  simp

/-! ## Moves -/

namespace Ledger

variable {r : Registry} {holds rest : List Hold} {name : String} {i : Nat} {owner : Owner}

theorem perm {holds' : List Hold} (h : Ledger r holds) (hp : List.Perm holds holds') :
    Ledger r holds' where
  names := (hp.map _).nodup_iff.mp h.names
  interfaces := ((hp.filterMap _).append_right _).nodup_iff.mp h.interfaces
  bound j hj := h.bound j (((hp.filterMap _).append_right _).mem_iff.mpr hj)
  stubs n j := by simpa only [hp.mem_iff] using h.stubs n j
  handlers n j := by simpa only [hp.mem_iff] using h.handlers n j
  free hold hhold := h.free hold (hp.mem_iff.mpr hhold)
  displaced hold hhold := h.displaced hold (hp.mem_iff.mpr hhold)
  keys := h.keys
  registered := h.registered
  removals := h.removals

/-- The name of the first hold is no other hold's. -/
theorem name_ne {hold : Hold} (h : Ledger r (hold :: rest)) {other : Hold} (ho : other ∈ rest) :
    other.name ≠ hold.name := by
  have hnodup := h.names
  rw [List.map_cons, List.nodup_cons] at hnodup
  intro heq
  exact hnodup.1 (heq ▸ List.mem_map_of_mem ho)

theorem free_head {hold : Hold} (h : Ledger r (hold :: rest)) :
    hold.name ∉ r.locals ∧ (hold.name, Owner.other) ∉ r.stubs :=
  h.free hold List.mem_cons_self

/-- A name that is not registered is reserved. -/
theorem reserve (h : Ledger r holds) (hname : name ∉ holds.map Hold.name)
    (hlocal : name ∉ r.locals) (hstub : name ∉ r.stubs.map Prod.fst) :
    Ledger r (⟨name, none, false, false⟩ :: holds) where
  names := by
    rw [List.map_cons, List.nodup_cons]
    exact ⟨hname, h.names⟩
  interfaces := h.interfaces
  bound := h.bound
  stubs n j := by simpa using h.stubs n j
  handlers n j := by simpa using h.handlers n j
  free hold hhold := by
    rcases List.mem_cons.mp hhold with rfl | hmem
    · exact ⟨hlocal, fun hs => hstub (List.mem_map.mpr ⟨_, hs, rfl⟩)⟩
    · exact h.free hold hmem
  displaced hold hhold hs := by
    rcases List.mem_cons.mp hhold with rfl | hmem
    · cases hs
    · exact h.displaced hold hmem hs
  keys := h.keys
  registered := h.registered
  removals := h.removals

/-- A dial that failed gives its name back. -/
theorem release (h : Ledger r (⟨name, none, false, false⟩ :: rest)) : Ledger r rest where
  names := (List.nodup_cons.mp h.names).2
  interfaces := h.interfaces
  bound := h.bound
  stubs n j := by simpa using h.stubs n j
  handlers n j := by simpa using h.handlers n j
  free hold hhold := h.free hold (List.mem_cons_of_mem _ hhold)
  displaced hold hhold := h.displaced hold (List.mem_cons_of_mem _ hhold)
  keys := h.keys
  registered := h.registered
  removals := h.removals

/-- A new client. -/
theorem create (h : Ledger r (⟨name, none, false, false⟩ :: rest)) :
    Ledger { r with clients := r.clients + 1 } (⟨name, some r.clients, false, false⟩ :: rest) where
  names := h.names
  interfaces := by
    have hrest := h.interfaces
    change (r.clients :: (rest.filterMap Hold.interface ++ r.gone)).Nodup
    rw [List.nodup_cons]
    exact ⟨fun hmem => Nat.lt_irrefl _ (h.bound _ hmem), hrest⟩
  bound j hj := by
    rcases List.mem_cons.mp hj with rfl | hj
    · exact Nat.lt_succ_self _
    · exact Nat.lt_succ_of_lt (h.bound j hj)
  stubs n j := by simpa using h.stubs n j
  handlers n j := by simpa using h.handlers n j
  free hold hhold := by
    rcases List.mem_cons.mp hhold with rfl | hmem
    · exact h.free_head
    · exact h.free hold (List.mem_cons_of_mem _ hmem)
  displaced hold hhold hs := by
    rcases List.mem_cons.mp hhold with rfl | hmem
    · cases hs
    · exact h.displaced hold (List.mem_cons_of_mem _ hmem) hs
  keys := h.keys
  registered := h.registered
  removals := h.removals

/-- The handler is registered, in the place of any that was there. -/
theorem putHandler (h : Ledger r (⟨name, some i, false, false⟩ :: rest)) :
    Ledger (r.putHandler name (.discovered i)) (⟨name, some i, true, false⟩ :: rest) where
  names := h.names
  interfaces := h.interfaces
  bound := h.bound
  stubs n j := by simpa [Registry.putHandler] using h.stubs n j
  handlers n j := by
    have hold := h.handlers n j
    simp only [List.mem_cons, exists_eq_or_imp, Bool.false_eq_true, and_false, false_or] at hold
    change (n, Owner.discovered j) ∈ Assoc.put _ _ _ ↔ _
    rw [Assoc.mem_put, hold]
    simp only [List.mem_cons, exists_eq_or_imp, and_true, Owner.discovered.injEq, Option.some.injEq]
    constructor
    · rintro (⟨rfl, rfl⟩ | ⟨_, hh⟩)
      · exact Or.inl ⟨rfl, rfl⟩
      · exact Or.inr hh
    · rintro (⟨rfl, rfl⟩ | ⟨hh, hmem, rfl, hrest⟩)
      · exact Or.inl ⟨rfl, rfl⟩
      · exact Or.inr ⟨h.name_ne hmem, hh, hmem, rfl, hrest⟩
  free hold hhold := by
    rcases List.mem_cons.mp hhold with rfl | hmem
    · exact h.free_head
    · exact h.free hold (List.mem_cons_of_mem _ hmem)
  displaced hold hhold hs := by
    rcases List.mem_cons.mp hhold with rfl | hmem
    · cases hs
    · intro hput
      rcases Assoc.mem_put.mp hput with ⟨_, hne⟩ | ⟨_, hin⟩
      · cases hne
      · exact h.displaced hold (List.mem_cons_of_mem _ hmem) hs hin
  keys := Assoc.nodup_put h.keys _ _
  registered := h.registered
  removals := h.removals

/-- The name of a hold that has registered its handler only has no stub. -/
theorem no_stub (h : Ledger r (⟨name, some i, true, false⟩ :: rest)) :
    name ∉ r.stubs.map Prod.fst := by
  rw [List.mem_map]
  rintro ⟨⟨n, o⟩, hmem, rfl⟩
  cases o with
  | other => exact h.free_head.2 hmem
  | discovered j =>
      obtain ⟨hold, hin, hname, -, hstub⟩ := (h.stubs _ j).mp hmem
      rcases List.mem_cons.mp hin with rfl | hrest
      · cases hstub
      · exact h.name_ne hrest hname

/-- The stub is registered. -/
theorem addStub (h : Ledger r (⟨name, some i, true, false⟩ :: rest)) :
    Ledger (r.addStub name (.discovered i)) (⟨name, some i, true, true⟩ :: rest) := by
  have hadd : r.addStub name (.discovered i) =
      { r with stubs := r.stubs ++ [(name, .discovered i)] } := if_neg h.no_stub
  rw [hadd]
  exact {
    names := h.names
    interfaces := h.interfaces
    bound := h.bound
    stubs := by
      intro n j
      have hold := h.stubs n j
      simp only [List.mem_cons, exists_eq_or_imp, Bool.false_eq_true, and_false, false_or] at hold
      rw [List.mem_append, List.mem_singleton, hold]
      simp only [Prod.mk.injEq, List.mem_cons, exists_eq_or_imp, and_true,
        Owner.discovered.injEq, Option.some.injEq]
      constructor
      · rintro (hrest | ⟨rfl, rfl⟩)
        · exact Or.inr hrest
        · exact Or.inl ⟨rfl, rfl⟩
      · rintro (⟨rfl, rfl⟩ | hrest)
        · exact Or.inr ⟨rfl, rfl⟩
        · exact Or.inl hrest
    handlers := by
      intro n j
      simpa using h.handlers n j
    free := by
      intro hold hhold
      have hnew : ∀ other : String, (other, Owner.other) ∉ r.stubs →
          (other, Owner.other) ∉ r.stubs ++ [(name, .discovered i)] := by
        intro other hother hmem
        rcases List.mem_append.mp hmem with hmem | hmem
        · exact hother hmem
        · simp at hmem
      rcases List.mem_cons.mp hhold with rfl | hmem
      · exact h.free_head.imp_right (hnew _)
      · exact (h.free hold (List.mem_cons_of_mem _ hmem)).imp_right (hnew _)
    displaced := by
      intro hold hhold hs hother
      rcases List.mem_cons.mp hhold with rfl | hmem
      · have hmine : (name, Owner.discovered i) ∈ r.handlers :=
          (h.handlers name i).mpr ⟨_, List.mem_cons_self, rfl, rfl, rfl⟩
        cases Assoc.eq_of_mem h.keys hmine hother
      · exact h.displaced hold (List.mem_cons_of_mem _ hmem) hs hother
    keys := h.keys
    registered := by
      have hlocal := h.free_head.1
      simp only [List.map_append, List.map_cons, List.map_nil, List.append_assoc,
        List.cons_append, List.nil_append]
      rw [List.nodup_middle, List.nodup_cons]
      refine ⟨fun hmem => ?_, h.registered⟩
      rcases List.mem_append.mp hmem with hmem | hmem
      · exact h.no_stub hmem
      · exact hlocal hmem
    removals := h.removals }

/-- What is registered under the name of a hold whose registrations are both there is the
hold's. -/
theorem owner_of_mem (h : Ledger r (⟨name, some i, true, true⟩ :: rest)) {o : Owner}
    (ho : (name, o) ∈ r.handlers) : o = .discovered i := by
  have hmine : (name, Owner.discovered i) ∈ r.handlers :=
    (h.handlers name i).mpr ⟨_, List.mem_cons_self, rfl, rfl, rfl⟩
  exact Assoc.eq_of_mem h.keys ho hmine

/-- The handler is taken off. -/
theorem dropHandler (h : Ledger r (⟨name, some i, true, true⟩ :: rest)) (removals)
    (hrem : ∀ e ∈ removals, e.2 = Owner.discovered e.1.interface) :
    Ledger { r.dropHandler name with removals := removals }
      (⟨name, some i, false, true⟩ :: rest) where
  names := h.names
  interfaces := h.interfaces
  bound := h.bound
  stubs n j := by simpa [Registry.dropHandler] using h.stubs n j
  handlers n j := by
    have hold := h.handlers n j
    simp only [List.mem_cons, exists_eq_or_imp, and_true] at hold
    change (n, Owner.discovered j) ∈ Assoc.retain (fun m => m != name) r.handlers ↔ _
    rw [Assoc.mem_drop, hold]
    simp only [List.mem_cons, exists_eq_or_imp, Bool.false_eq_true, and_false, false_or]
    constructor
    · rintro ⟨hne, ⟨rfl, _⟩ | hrest⟩
      · exact absurd rfl hne
      · exact hrest
    · rintro ⟨hh, hmem, rfl, hrest⟩
      exact ⟨h.name_ne hmem, Or.inr ⟨hh, hmem, rfl, hrest⟩⟩
  free hold hhold := by
    rcases List.mem_cons.mp hhold with rfl | hmem
    · exact h.free_head
    · exact h.free hold (List.mem_cons_of_mem _ hmem)
  displaced hold hhold hs hother := by
    have hin := (Assoc.mem_drop.mp hother).2
    rcases List.mem_cons.mp hhold with rfl | hmem
    · exact h.displaced _ List.mem_cons_self rfl hin
    · exact h.displaced hold (List.mem_cons_of_mem _ hmem) hs hin
  keys := Assoc.nodup_retain h.keys fun m => m != name
  registered := h.registered
  removals := hrem

/-- The stub is taken off, and the name with it. -/
theorem dropStub (h : Ledger r (⟨name, some i, false, true⟩ :: rest)) (removals)
    (hrem : ∀ e ∈ removals, e.2 = Owner.discovered e.1.interface) :
    Ledger { r.dropStub name with gone := r.gone ++ [i], removals := removals } rest where
  names := (List.nodup_cons.mp h.names).2
  interfaces := by
    have hall : (i :: (rest.filterMap Hold.interface ++ r.gone)).Nodup := h.interfaces
    have hp : List.Perm (i :: (rest.filterMap Hold.interface ++ r.gone))
        (rest.filterMap Hold.interface ++ (r.gone ++ [i])) := by
      rw [← List.append_assoc]
      exact (List.perm_append_singleton _ _).symm
    exact hp.nodup_iff.mp hall
  bound j hj := by
    apply h.bound j
    change j ∈ i :: (rest.filterMap Hold.interface ++ r.gone)
    simp only [List.mem_append, List.mem_singleton] at hj
    simp only [List.mem_cons, List.mem_append]
    tauto
  stubs n j := by
    have hold := h.stubs n j
    simp only [List.mem_cons, exists_eq_or_imp, and_true] at hold
    change (n, Owner.discovered j) ∈ r.stubs.filter _ ↔ _
    rw [mem_filter_name, hold]
    constructor
    · rintro ⟨hne, ⟨rfl, _⟩ | hrest⟩
      · exact absurd rfl hne
      · exact hrest
    · rintro ⟨hh, hmem, rfl, hrest⟩
      exact ⟨h.name_ne hmem, Or.inr ⟨hh, hmem, rfl, hrest⟩⟩
  handlers n j := by simpa [Registry.dropStub] using h.handlers n j
  free hold hhold := by
    obtain ⟨hlocal, hstub⟩ := h.free hold (List.mem_cons_of_mem _ hhold)
    exact ⟨fun hmem => hlocal (List.mem_filter.mp hmem).1,
      fun hmem => hstub (mem_filter_name.mp hmem).2⟩
  displaced hold hhold := h.displaced hold (List.mem_cons_of_mem _ hhold)
  keys := h.keys
  registered := h.registered.sublist
    ((List.filter_sublist.map _).append List.filter_sublist)
  removals := hrem

/-! ### Interfaces that were not discovered -/

section

variable (h : Ledger r holds)

include h

/-- Another interface's handler, under a name that nobody holds. -/
theorem otherHandler (hname : name ∉ holds.map Hold.name) :
    Ledger (r.putHandler name .other) holds where
  names := h.names
  interfaces := h.interfaces
  bound := h.bound
  stubs := h.stubs
  handlers n j := by
    change (n, Owner.discovered j) ∈ Assoc.put _ _ _ ↔ _
    rw [Assoc.mem_put, h.handlers n j]
    constructor
    · rintro (⟨_, hne⟩ | ⟨_, hrest⟩)
      · cases hne
      · exact hrest
    · rintro ⟨hh, hmem, rfl, hrest⟩
      refine Or.inr ⟨fun heq => hname ?_, hh, hmem, rfl, hrest⟩
      exact heq ▸ List.mem_map_of_mem hmem
  free := h.free
  displaced hold hhold hs hother := by
    rcases Assoc.mem_put.mp hother with ⟨heq, _⟩ | ⟨_, hin⟩
    · exact hname (heq ▸ List.mem_map_of_mem hhold)
    · exact h.displaced hold hhold hs hin
  keys := Assoc.nodup_put h.keys _ _
  registered := h.registered
  removals := h.removals

/-- Another interface's stub, under a name that nobody holds. -/
theorem otherStub (hname : name ∉ holds.map Hold.name)
    (hlocal : name ∉ r.locals) : Ledger (r.addStub name .other) holds := by
  unfold Registry.addStub
  split
  · exact h
  · next hnew =>
      exact {
        names := h.names
        interfaces := h.interfaces
        bound := h.bound
        stubs := by
          intro n j
          simpa using h.stubs n j
        handlers := h.handlers
        free := by
          intro hold hhold
          refine ⟨(h.free hold hhold).1, fun hmem => ?_⟩
          rcases List.mem_append.mp hmem with hmem | hmem
          · exact (h.free hold hhold).2 hmem
          · have heq : hold.name = name := by simpa using hmem
            exact hname (heq ▸ List.mem_map_of_mem hhold)
        displaced := h.displaced
        keys := h.keys
        registered := by
          simp only [List.map_append, List.map_cons, List.map_nil, List.append_assoc,
            List.cons_append, List.nil_append]
          rw [List.nodup_middle, List.nodup_cons]
          refine ⟨fun hmem => ?_, h.registered⟩
          rcases List.mem_append.mp hmem with hmem | hmem
          · exact hnew hmem
          · exact hlocal hmem
        removals := h.removals }

/-- Another interface's handler goes. -/
theorem otherDropHandler (hname : name ∉ holds.map Hold.name) :
    Ledger (r.dropHandler name) holds where
  names := h.names
  interfaces := h.interfaces
  bound := h.bound
  stubs := h.stubs
  handlers n j := by
    change (n, Owner.discovered j) ∈ Assoc.retain (fun m => m != name) r.handlers ↔ _
    rw [Assoc.mem_drop, h.handlers n j]
    refine ⟨And.right, ?_⟩
    rintro ⟨hh, hmem, rfl, hrest⟩
    exact ⟨fun heq => hname (heq ▸ List.mem_map_of_mem hmem), hh, hmem, rfl, hrest⟩
  free := h.free
  displaced hold hhold hs hother := h.displaced hold hhold hs (Assoc.mem_drop.mp hother).2
  keys := Assoc.nodup_retain h.keys fun m => m != name
  registered := h.registered
  removals := h.removals

/-- Another interface's stub goes. -/
theorem otherDropStub (hname : name ∉ holds.map Hold.name) :
    Ledger (r.dropStub name) holds where
  names := h.names
  interfaces := h.interfaces
  bound := h.bound
  stubs n j := by
    change (n, Owner.discovered j) ∈ r.stubs.filter _ ↔ _
    rw [mem_filter_name, h.stubs n j]
    refine ⟨And.right, ?_⟩
    rintro ⟨hh, hmem, rfl, hrest⟩
    exact ⟨fun heq => hname (heq ▸ List.mem_map_of_mem hmem), hh, hmem, rfl, hrest⟩
  handlers := h.handlers
  free hold hhold := by
    obtain ⟨hlocal, hstub⟩ := h.free hold hhold
    exact ⟨fun hmem => hlocal (List.mem_filter.mp hmem).1,
      fun hmem => hstub (mem_filter_name.mp hmem).2⟩
  displaced := h.displaced
  keys := h.keys
  registered := h.registered.sublist
    ((List.filter_sublist.map _).append List.filter_sublist)
  removals := h.removals

end

/-! ### What a ledger says -/

section

variable (h : Ledger r holds)

include h

/-- A registration of a discovered interface has its hold. -/
theorem hold_of_registered (hr : r.Registered name (.discovered i)) :
    ∃ hold ∈ holds, hold.name = name ∧ hold.interface = some i := by
  rcases hr with hr | hr | ⟨-, hr⟩
  · obtain ⟨hold, hmem, hname, hi, -⟩ := (h.stubs _ _).mp hr
    exact ⟨hold, hmem, hname, hi⟩
  · obtain ⟨hold, hmem, hname, hi, -⟩ := (h.handlers _ _).mp hr
    exact ⟨hold, hmem, hname, hi⟩
  · cases hr

/-- Two holds of one name are one. -/
theorem eq_of_name {a b : Hold} (ha : a ∈ holds) (hb : b ∈ holds)
    (hname : a.name = b.name) : a = b :=
  List.inj_on_of_nodup_map h.names ha hb hname

/-- Nothing else is registered under the name of a discovered interface. -/
theorem not_other (hd : r.Registered name (.discovered i)) :
    ¬ r.Registered name .other := by
  obtain ⟨hold, hmem, rfl, hi⟩ := h.hold_of_registered hd
  rintro (ho | ho | ⟨ho, -⟩)
  · exact (h.free hold hmem).2 ho
  · rcases hd with hd | hd | ⟨-, hd⟩
    · obtain ⟨hold', hmem', hname, -, hstub⟩ := (h.stubs _ _).mp hd
      obtain rfl := h.eq_of_name hmem hmem' hname.symm
      exact h.displaced hold hmem hstub ho
    · cases Assoc.eq_of_mem h.keys hd ho
    · cases hd
  · exact (h.free hold hmem).1 ho

/-- One name is one interface's. -/
theorem owner_unique {o o' : Owner} (ho : r.Registered name o)
    (ho' : r.Registered name o') : o = o' := by
  cases o with
  | other =>
      cases o' with
      | other => rfl
      | discovered j => exact absurd ho (h.not_other ho')
  | discovered i =>
      cases o' with
      | other => exact absurd ho' (h.not_other ho)
      | discovered j =>
          obtain ⟨a, ha, hna, hia⟩ := h.hold_of_registered ho
          obtain ⟨b, hb, hnb, hib⟩ := h.hold_of_registered ho'
          obtain rfl := h.eq_of_name ha hb (hna.trans hnb.symm)
          rw [hia] at hib
          rw [Option.some.inj hib]

/-- What was taken off is registered no more. -/
theorem not_registered_of_gone (hi : i ∈ r.gone) :
    ¬ r.Registered name (.discovered i) := by
  intro hr
  obtain ⟨hold, hmem, -, hint⟩ := h.hold_of_registered hr
  have hheld : i ∈ holds.filterMap Hold.interface := List.mem_filterMap.mpr ⟨hold, hmem, hint⟩
  exact (List.nodup_append.mp h.interfaces).2.2 i hheld i hi rfl

end

end Ledger

end Reticulum.Discovery.Autoconnect
