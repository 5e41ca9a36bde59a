import Mathlib.Logic.Function.Basic
import Reticulum.Lib.Runs

/-!
# Clients of a server

A server registers each connection that it accepts with Transport, in steps that other
threads may come between, and the read loop of the connection takes them back when it
ends. Transport knows an interface by its name only. The names of the TCP server contain
the address of the peer, and all clients of Backbone have one name: `servers_one_to_one`.

## Implementation notes

A connection is known by the text of its peer address. The TCP server accepts the next
connection when the last is registered; here its clients may come in any order, as those
of Backbone do. Of a writer the model has the connection on which it sends.
-/

namespace Reticulum.Interfaces.Server

/-- A step of registering a connection: `interface_writer::register` and the marker in
`OUTBOUND_HANDLERS`, which make up `register_outbound_handler`; `register_interface_stub_config`;
`start_read_loop`. -/
inductive Act
  | registerWriter
  | registerMarker
  | registerStub
  | startReadLoop
  deriving DecidableEq

/-- A step after the read loop: `deregister_interface_stub`, and the two of
`unregister_outbound_handler`. -/
inductive Undo
  | deregisterStub
  | unregisterWriter
  | removeMarker
  deriving DecidableEq

/-- The read loop of a connection, and what it still has to take back. -/
inductive Loop
  | idle
  | reading
  | ending (todo : List Undo)
  deriving DecidableEq

/-- A connection: what is left of registering it, and its read loop. -/
structure Client where
  todo : List Act
  loop : Loop
  deriving DecidableEq

/-- How a server registers a connection, and what it calls the interface. -/
structure Config where
  program : List Act
  name : String → String

/-- `TcpServerInterface::accept_loop`. -/
def tcp (serverName : String) : Config where
  program := [.registerWriter, .registerMarker, .registerStub, .startReadLoop]
  name := fun addr => "Client on " ++ serverName ++ " [" ++ addr ++ "]"

/-- `BackboneInterface::handle_incoming_connection`. -/
def backbone (parentName : String) : Config where
  program := [.registerWriter, .registerMarker, .startReadLoop, .registerStub]
  name := fun _ => "Client on " ++ parentName

/-- The connections by their addresses, the names of the stubs, `WRITERS`, and `OUTBOUND_HANDLERS`. -/
structure State where
  clients : String → Option Client
  stubs : List String
  writers : String → Option String
  markers : String → Bool

/-- Nothing was accepted. -/
def State.start : State where
  clients := fun _ => none
  stubs := []
  writers := fun _ => none
  markers := fun _ => false

/-- A connection is accepted, the thread that registers it takes a step, its read loop ends, and takes
a step back. -/
inductive Event
  | accept (peer : String)
  | act (peer : String)
  | readEnds (peer : String)
  | undo (peer : String)

namespace State

/-- A connection is left as this. -/
def put (s : State) (peer : String) (c : Client) : State :=
  { s with clients := Function.update s.clients peer (some c) }

/-- A step of registering a connection under a name. -/
def perform (s : State) (peer name : String) : Act → State
  | .registerWriter => { s with writers := Function.update s.writers name (some peer) }
  | .registerMarker => { s with markers := Function.update s.markers name true }
  | .registerStub => if s.stubs.any (· == name) then s else { s with stubs := s.stubs ++ [name] }
  | .startReadLoop => s

/-- A step back. -/
def revert (s : State) (name : String) : Undo → State
  | .deregisterStub => { s with stubs := s.stubs.filter (· != name) }
  | .unregisterWriter => { s with writers := Function.update s.writers name none }
  | .removeMarker => { s with markers := Function.update s.markers name false }

/-- What an event does. An address is accepted once. -/
def step (config : Config) (s : State) : Event → Option State
  | .accept peer =>
      match s.clients peer with
      | some _ => none
      | none => some (s.put peer { todo := config.program, loop := .idle })
  | .act peer =>
      match s.clients peer with
      | some ⟨a :: todo, loop⟩ =>
          some ((s.perform peer (config.name peer) a).put peer
            { todo := todo, loop := if a = .startReadLoop then .reading else loop })
      | _ => none
  | .readEnds peer =>
      match s.clients peer with
      | some ⟨todo, .reading⟩ =>
          some (s.put peer
            { todo := todo, loop := .ending [.deregisterStub, .unregisterWriter, .removeMarker] })
      | _ => none
  | .undo peer =>
      match s.clients peer with
      | some ⟨todo, .ending (u :: undos)⟩ =>
          some ((s.revert (config.name peer) u).put peer { todo := todo, loop := .ending undos })
      | _ => none

/-- The connection on which `dispatch_outbound` has a frame for a name sent. -/
def dispatchOutbound (s : State) (name : String) : Option String := s.writers name

variable (config : Config) (s : State)

/-- A connection that is registered, and the loop of which reads. -/
def Live (peer : String) : Prop := s.clients peer = some ⟨[], .reading⟩

/-- All handlers have run. -/
def Quiescent : Prop :=
  ∀ peer c, s.clients peer = some c → c.todo = [] ∧ (c.loop = .reading ∨ c.loop = .ending [])

/-- Every live connection is registered, and frames for it are sent on it. When all handlers have
run, each stub and each handler is that of a live connection, and no connection has two. -/
structure OneToOne : Prop where
  registered : ∀ peer, s.Live peer → config.name peer ∈ s.stubs ∧
    s.dispatchOutbound (config.name peer) = some peer ∧ s.markers (config.name peer) = true
  stubs : s.Quiescent → s.stubs.Nodup ∧
    ∀ name ∈ s.stubs, ∃ peer, s.Live peer ∧ config.name peer = name
  writers : s.Quiescent → ∀ name peer, s.writers name = some peer →
    s.Live peer ∧ config.name peer = name
  markers : s.Quiescent → ∀ name, s.markers name = true →
    ∃ peer, s.Live peer ∧ config.name peer = name

/-- Registering has begun, and not all of it was taken back. -/
def Engaged (peer : String) : Prop :=
  ∃ c, s.clients peer = some c ∧ c.todo ≠ config.program ∧ c ≠ ⟨[], .ending []⟩

/-- Registering begins when no other connection has the name, and a stub is taken back after it was
registered. -/
def Careful : Event → Prop
  | .act peer => ∀ loop, s.clients peer = some ⟨config.program, loop⟩ →
      ∀ other, Engaged config s other → config.name other ≠ config.name peer
  | .undo peer => ∀ todo undos, s.clients peer = some ⟨todo, .ending (.deregisterStub :: undos)⟩ →
      .registerStub ∉ todo
  | _ => True

end State

/-! ## What is registered under a name -/

/-- A step back is still to be taken. -/
def Loop.keeps (u : Undo) : Loop → Bool
  | .ending todo => todo.contains u
  | _ => true

variable {todo : List Act} {peer : String}

namespace Client

/-- What is registered for a connection: a stub, a writer that sends on it, and a marker. -/
def registered (peer : String) (c : Client) : Bool × Option String × Bool :=
  (!c.todo.contains .registerStub && c.loop.keeps .deregisterStub,
    if !c.todo.contains .registerWriter && c.loop.keeps .unregisterWriter then some peer else none,
    !c.todo.contains .registerMarker && c.loop.keeps .removeMarker)

/-- No step is left to be taken twice; the loop starts when the handler is registered, and takes back a
stub only when that is. -/
structure Wf (c : Client) : Prop where
  todo : c.todo.Nodup
  order : ∀ rest, .startReadLoop :: rest <:+ c.todo → .registerWriter ∉ rest ∧ .registerMarker ∉ rest
  idle : .startReadLoop ∈ c.todo ↔ c.loop = .idle
  handler : .registerWriter ∈ c.todo ∨ .registerMarker ∈ c.todo → c.loop = .idle
  stub : .registerStub ∈ c.todo → c.loop.keeps .deregisterStub = true
  undos : ∀ undos, c.loop = .ending undos → undos.Nodup

theorem Wf.act {a : Act} {loop : Loop} (h : Wf ⟨a :: todo, loop⟩) :
    Wf ⟨todo, if a = .startReadLoop then .reading else loop⟩ := by
  obtain ⟨hnotMem, hnodup⟩ := List.nodup_cons.mp h.todo
  have horder : ∀ rest, .startReadLoop :: rest <:+ todo →
      .registerWriter ∉ rest ∧ .registerMarker ∉ rest := fun rest hrest =>
    h.order rest (hrest.trans (List.suffix_cons a todo))
  by_cases ha : a = .startReadLoop
  · subst ha
    obtain ⟨hwriter, hmarker⟩ := h.order todo List.suffix_rfl
    rw [if_pos rfl]
    refine ⟨hnodup, horder, iff_of_false hnotMem (fun h => by cases h), ?_,
      fun _ => rfl, fun undos hundos => (by cases hundos)⟩
    rintro (hw | hm)
    · exact absurd hw hwriter
    · exact absurd hm hmarker
  · rw [if_neg ha]
    refine ⟨hnodup, horder, ?_, fun hleft => h.handler ?_,
      fun hs => h.stub (List.mem_cons_of_mem a hs), h.undos⟩
    · rw [← h.idle, List.mem_cons]
      exact (or_iff_right (Ne.symm ha)).symm
    · exact hleft.imp (List.mem_cons_of_mem a) (List.mem_cons_of_mem a)

theorem Wf.readEnds (h : Wf ⟨todo, .reading⟩) :
    Wf ⟨todo, .ending [.deregisterStub, .unregisterWriter, .removeMarker]⟩ := by
  have hstarted : .startReadLoop ∉ todo := fun hmem => by cases h.idle.mp hmem
  refine ⟨h.todo, h.order, iff_of_false hstarted (fun hidle => by cases hidle),
    fun hleft => (by cases h.handler hleft), fun _ => rfl, fun undos hundos => ?_⟩
  obtain rfl := Loop.ending.inj hundos
  decide

theorem Wf.undo {u : Undo} {undos : List Undo} (h : Wf ⟨todo, .ending (u :: undos)⟩)
    (hstub : u = .deregisterStub → .registerStub ∉ todo) : Wf ⟨todo, .ending undos⟩ := by
  have hstarted : .startReadLoop ∉ todo := fun hmem => by cases h.idle.mp hmem
  refine ⟨h.todo, h.order, iff_of_false hstarted (fun hidle => by cases hidle),
    fun hleft => (by cases h.handler hleft), fun hmem => ?_, fun left hleft => ?_⟩
  · have hkept := h.stub hmem
    have hother : u ≠ .deregisterStub := fun hu => hstub hu hmem
    simpa [Loop.keeps, Ne.symm hother] using hkept
  · obtain rfl := Loop.ending.inj hleft
    exact (List.nodup_cons.mp (h.undos _ rfl)).2

theorem Wf.started {loop : Loop} (h : Wf ⟨todo, loop⟩) (hloop : loop ≠ .idle) :
    .startReadLoop ∉ todo := fun hmem => hloop (h.idle.mp hmem)

end Client

namespace State

/-- What is registered under a name. -/
def look (s : State) (name : String) : Bool × Option String × Bool :=
  (s.stubs.any (· == name), s.writers name, s.markers name)

theorem look_put (s : State) (peer name : String) (c : Client) :
    (s.put peer c).look name = s.look name := rfl

theorem look_perform_of_ne (s : State) (peer : String) {name other : String} (h : other ≠ name)
    (a : Act) : (s.perform peer name a).look other = s.look other := by
  have hne : (name == other) = false := beq_eq_false_iff_ne.mpr h.symm
  cases a with
  | registerWriter => simp [look, perform, Function.update_of_ne h]
  | registerMarker => simp [look, perform, Function.update_of_ne h]
  | registerStub =>
      rw [perform]
      split
      · rfl
      · simp [look, hne]
  | startReadLoop => rfl

theorem look_revert_of_ne (s : State) {name other : String} (h : other ≠ name) (u : Undo) :
    (s.revert name u).look other = s.look other := by
  cases u with
  | deregisterStub =>
      unfold look revert
      have hany : (s.stubs.filter (· != name)).any (· == other) = s.stubs.any (· == other) := by
        rw [List.any_filter]
        congr
        funext stub
        by_cases hstub : stub = other
        · simp [hstub, h]
        · simp [hstub]
      rw [hany]
  | unregisterWriter => simp [look, revert, Function.update_of_ne h]
  | removeMarker => simp [look, revert, Function.update_of_ne h]

/-- A step of registering leaves what the connection has then. -/
theorem look_perform {s : State} {peer name : String} {a : Act} {loop : Loop}
    (hc : Client.Wf ⟨a :: todo, loop⟩)
    (h : s.look name = Client.registered peer ⟨a :: todo, loop⟩) :
    (s.perform peer name a).look name =
      Client.registered peer ⟨todo, if a = .startReadLoop then .reading else loop⟩ := by
  have hnotMem := (List.nodup_cons.mp hc.todo).1
  obtain ⟨hstub, hpair⟩ := Prod.ext_iff.mp h
  obtain ⟨hwriter, hmarker⟩ := Prod.ext_iff.mp hpair
  cases a with
  | registerWriter =>
      obtain rfl : loop = .idle := hc.handler (.inl List.mem_cons_self)
      simp_all [look, perform, Client.registered, Loop.keeps]
  | registerMarker =>
      obtain rfl : loop = .idle := hc.handler (.inr List.mem_cons_self)
      simp_all [look, perform, Client.registered, Loop.keeps]
  | registerStub =>
      have hkept : loop.keeps .deregisterStub = true := hc.stub List.mem_cons_self
      have hnone : s.stubs.any (· == name) = false := by
        simpa [look, Client.registered] using hstub
      rw [perform, if_neg (by rw [hnone]; exact Bool.false_ne_true)]
      simp_all [look, Client.registered]
  | startReadLoop =>
      obtain rfl : loop = .idle := hc.idle.mp List.mem_cons_self
      simp_all [look, perform, Client.registered, Loop.keeps]

/-- A step back leaves what the connection has then. -/
theorem look_revert {s : State} {peer name : String} {u : Undo} {undos : List Undo}
    (hc : Client.Wf ⟨todo, .ending (u :: undos)⟩)
    (h : s.look name = Client.registered peer ⟨todo, .ending (u :: undos)⟩) :
    (s.revert name u).look name = Client.registered peer ⟨todo, .ending undos⟩ := by
  have hnotMem := (List.nodup_cons.mp (hc.undos _ rfl)).1
  obtain ⟨hstub, hpair⟩ := Prod.ext_iff.mp h
  obtain ⟨hwriter, hmarker⟩ := Prod.ext_iff.mp hpair
  cases u with
  | deregisterStub => simp_all [look, revert, Client.registered, Loop.keeps]
  | unregisterWriter => simp_all [look, revert, Client.registered, Loop.keeps]
  | removeMarker => simp_all [look, revert, Client.registered, Loop.keeps]

theorem perform_clients (s : State) (peer name : String) (a : Act) :
    (s.perform peer name a).clients = s.clients := by
  cases a with
  | registerStub =>
      rw [perform]
      split
      · rfl
      · rfl
  | registerWriter => rfl
  | registerMarker => rfl
  | startReadLoop => rfl

theorem perform_stubs_nodup {s : State} (h : s.stubs.Nodup) (peer name : String) (a : Act) :
    (s.perform peer name a).stubs.Nodup := by
  cases a with
  | registerStub =>
      rw [perform]
      split
      · exact h
      · rename_i hnone
        refine List.nodup_append.mpr ⟨h, List.nodup_cons.mpr ⟨List.not_mem_nil, List.nodup_nil⟩, ?_⟩
        intro stub hstub other hother heq
        refine hnone (List.any_eq_true.mpr ⟨stub, hstub, ?_⟩)
        rw [heq, List.mem_singleton.mp hother, beq_self_eq_true]
  | registerWriter => exact h
  | registerMarker => exact h
  | startReadLoop => exact h

theorem revert_clients (s : State) (name : String) (u : Undo) :
    (s.revert name u).clients = s.clients := by
  cases u with
  | deregisterStub => rfl
  | unregisterWriter => rfl
  | removeMarker => rfl

theorem revert_stubs_nodup {s : State} (h : s.stubs.Nodup) (name : String) (u : Undo) :
    (s.revert name u).stubs.Nodup := by
  cases u with
  | deregisterStub => exact h.filter _
  | unregisterWriter => exact h
  | removeMarker => exact h

end State

/-- A program that registers everything, the handler before the loop. -/
structure Config.Lawful (config : Config) : Prop where
  wf : Client.Wf ⟨config.program, .idle⟩
  all : ∀ a, a ∈ config.program

namespace State

/-- What careful steps keep. -/
structure Inv (config : Config) (s : State) : Prop where
  wf : ∀ peer c, s.clients peer = some c → c.Wf ∧ c.todo <:+ config.program
  alone : ∀ peer other, Engaged config s peer → Engaged config s other →
    config.name peer = config.name other → peer = other
  registered : ∀ peer c, s.clients peer = some c → Engaged config s peer →
    s.look (config.name peer) = c.registered peer
  free : ∀ name, (∀ peer, Engaged config s peer → config.name peer ≠ name) →
    s.look name = (false, none, false)
  stubs : s.stubs.Nodup

variable {config : Config} {s : State}

/-- Nothing is registered for a connection before the first step and after the last. -/
theorem registered_of_not_engaged (hconfig : config.Lawful) {c : Client}
    (hc : s.clients peer = some c) (h : ¬Engaged config s peer) :
    c.registered peer = (false, none, false) := by
  have hends : c.todo = config.program ∨ c = ⟨[], .ending []⟩ := by
    by_contra hno
    rw [not_or] at hno
    exact h ⟨c, hc, hno.1, hno.2⟩
  rcases hends with htodo | rfl
  · simp [Client.registered, htodo, hconfig.all]
  · rfl

theorem inv_start (config : Config) : Inv config start where
  wf := fun _ _ hc => by cases hc
  alone := fun _ _ hengaged => by
    obtain ⟨_, hc, _⟩ := hengaged
    cases hc
  registered := fun _ _ hc => by cases hc
  free := fun _ _ => rfl
  stubs := List.nodup_nil

theorem put_clients_self (s : State) (peer : String) (c : Client) :
    (s.put peer c).clients peer = some c := by
  unfold State.put
  exact Function.update_self ..

theorem put_clients_of_ne (s : State) {peer other : String} (h : other ≠ peer) (c : Client) :
    (s.put peer c).clients other = s.clients other := by
  unfold State.put
  exact Function.update_of_ne h ..

theorem engaged_put_of_ne {peer other : String} (h : other ≠ peer) (c : Client) :
    Engaged config (s.put peer c) other ↔ Engaged config s other := by
  unfold Engaged
  rw [put_clients_of_ne s h]

/-- A connection moves on under a name that no other has. -/
theorem Inv.put (hconfig : config.Lawful) (h : Inv config s) {t : State} {c : Client}
    (hclients : t.clients = s.clients) (hwf : c.Wf ∧ c.todo <:+ config.program)
    (hothers : ∀ name, name ≠ config.name peer → t.look name = s.look name)
    (hlook : t.look (config.name peer) = c.registered peer)
    (halone : ∀ other, other ≠ peer → Engaged config s other → config.name other ≠ config.name peer)
    (hstubs : t.stubs.Nodup) : Inv config (t.put peer c) := by
  have hengaged : ∀ other, other ≠ peer →
      (Engaged config (t.put peer c) other ↔ Engaged config s other) := by
    intro other hne
    rw [engaged_put_of_ne hne]
    unfold Engaged
    rw [hclients]
  refine ⟨fun other d hd => ?_, fun p q hp hq hname => ?_, fun other d hd hother => ?_,
    fun name hname => ?_, hstubs⟩
  · by_cases hpeer : other = peer
    · rw [hpeer, put_clients_self] at hd
      exact Option.some.inj hd ▸ hwf
    · rw [put_clients_of_ne t hpeer, hclients] at hd
      exact h.wf other d hd
  · by_cases hpeer : p = peer
    · by_cases hother : q = peer
      · rw [hpeer, hother]
      · rw [hpeer] at hname
        exact absurd hname.symm (halone q hother ((hengaged q hother).mp hq))
    · by_cases hother : q = peer
      · rw [hother] at hname
        exact absurd hname (halone p hpeer ((hengaged p hpeer).mp hp))
      · exact h.alone p q ((hengaged p hpeer).mp hp) ((hengaged q hother).mp hq) hname
  · rw [look_put]
    by_cases hpeer : other = peer
    · rw [hpeer, put_clients_self] at hd
      rw [hpeer, hlook, Option.some.inj hd]
    · rw [put_clients_of_ne t hpeer, hclients] at hd
      have hbefore := (hengaged other hpeer).mp hother
      rw [hothers _ (halone other hpeer hbefore)]
      exact h.registered other d hd hbefore
  · rw [look_put]
    by_cases hpeer : name = config.name peer
    · rw [hpeer, hlook]
      exact registered_of_not_engaged hconfig (put_clients_self t peer c)
        fun hengaged => hname peer hengaged hpeer.symm
    · rw [hothers name hpeer]
      refine h.free name fun other hother => ?_
      by_cases hsame : other = peer
      · rw [hsame]
        exact Ne.symm hpeer
      · exact hname other ((hengaged other hsame).mpr hother)

/-- The name of a connection is its own while it is engaged, and free when it is about to be. -/
theorem Inv.own (h : Inv config s) (hconfig : config.Lawful) {c : Client}
    (hc : s.clients peer = some c)
    (hbegin : c.todo = config.program →
      ∀ other, Engaged config s other → config.name other ≠ config.name peer)
    (hover : c ≠ ⟨[], .ending []⟩) :
    s.look (config.name peer) = c.registered peer ∧
      ∀ other, other ≠ peer → Engaged config s other → config.name other ≠ config.name peer := by
  by_cases hfirst : c.todo = config.program
  · refine ⟨?_, fun other _ hother => hbegin hfirst other hother⟩
    have hengaged : ¬Engaged config s peer := by
      rintro ⟨d, hd, htodo, -⟩
      rw [hc] at hd
      exact htodo (Option.some.inj hd ▸ hfirst)
    rw [h.free _ (hbegin hfirst), registered_of_not_engaged hconfig hc hengaged]
  · have hengaged : Engaged config s peer := ⟨c, hc, hfirst, hover⟩
    exact ⟨h.registered peer c hc hengaged, fun other hne hother hname =>
      hne (h.alone other peer hother hengaged hname)⟩

theorem Inv.step (hconfig : config.Lawful) (h : Inv config s) {e : Event} (hok : Careful config s e)
    {s' : State} (hstep : s.step config e = some s') : Inv config s' := by
  cases e with
  | accept peer =>
      rw [State.step] at hstep
      split at hstep
      · cases hstep
      · rename_i hnone
        obtain rfl := Option.some.inj hstep
        have hengaged : ∀ other,
            Engaged config (s.put peer ⟨config.program, .idle⟩) other ↔ Engaged config s other := by
          intro other
          by_cases hpeer : other = peer
          · rw [hpeer]
            refine iff_of_false ?_ ?_
            · rintro ⟨c, hc, htodo, -⟩
              rw [put_clients_self] at hc
              exact htodo (Option.some.inj hc ▸ rfl)
            · rintro ⟨c, hc, -⟩
              rw [hnone] at hc
              cases hc
          · exact engaged_put_of_ne hpeer _
        refine ⟨fun other c hc => ?_, fun p q hp hq => ?_, fun other c hc hother => ?_,
          fun name hname => ?_, h.stubs⟩
        · by_cases hpeer : other = peer
          · rw [hpeer, put_clients_self] at hc
            exact Option.some.inj hc ▸ ⟨hconfig.wf, List.suffix_rfl⟩
          · rw [put_clients_of_ne s hpeer] at hc
            exact h.wf other c hc
        · exact h.alone p q ((hengaged p).mp hp) ((hengaged q).mp hq)
        · have hbefore := (hengaged other).mp hother
          have hpeer : other ≠ peer := by
            rintro rfl
            obtain ⟨d, hd, -⟩ := hbefore
            rw [hnone] at hd
            cases hd
          rw [put_clients_of_ne s hpeer] at hc
          exact h.registered other c hc hbefore
        · exact h.free name fun other hother => hname other ((hengaged other).mpr hother)
  | act peer =>
      rw [State.step] at hstep
      split at hstep
      · rename_i a todo loop hc
        obtain rfl := Option.some.inj hstep
        obtain ⟨hwf, htodo⟩ := h.wf peer _ hc
        obtain ⟨hlook, halone⟩ := h.own hconfig hc
          (fun hfirst => hok loop (by rw [hc, ← hfirst])) (fun hover => by cases hover)
        exact h.put hconfig (perform_clients s peer (config.name peer) a)
          ⟨hwf.act, (List.suffix_cons a todo).trans htodo⟩
          (fun name hname => look_perform_of_ne s peer hname a) (look_perform hwf hlook) halone
          (perform_stubs_nodup h.stubs peer (config.name peer) a)
      · cases hstep
  | readEnds peer =>
      rw [State.step] at hstep
      split at hstep
      · rename_i todo hc
        obtain rfl := Option.some.inj hstep
        obtain ⟨hwf, htodo⟩ := h.wf peer _ hc
        obtain ⟨hlook, halone⟩ := h.own hconfig hc
          (fun hfirst => absurd (hconfig.all .startReadLoop)
            (hfirst ▸ hwf.started fun hloop => by cases hloop))
          (fun hover => by cases hover)
        exact h.put hconfig rfl ⟨hwf.readEnds, htodo⟩ (fun _ _ => rfl) (hlook.trans rfl) halone h.stubs
      · cases hstep
  | undo peer =>
      rw [State.step] at hstep
      split at hstep
      · rename_i todo u undos hc
        obtain rfl := Option.some.inj hstep
        obtain ⟨hwf, htodo⟩ := h.wf peer _ hc
        obtain ⟨hlook, halone⟩ := h.own hconfig hc
          (fun hfirst => absurd (hconfig.all .startReadLoop)
            (hfirst ▸ hwf.started fun hloop => by cases hloop))
          (fun hover => by cases hover)
        exact h.put hconfig (revert_clients s (config.name peer) u)
          ⟨hwf.undo fun hu => hok todo undos (by rw [hc, hu]), htodo⟩
          (fun name hname => look_revert_of_ne s hname u) (look_revert hwf hlook) halone
          (revert_stubs_nodup h.stubs (config.name peer) u)
      · cases hstep

/-- Something is registered under a name only for a connection. -/
theorem Inv.holder (h : Inv config s) (name : String) (hlook : s.look name ≠ (false, none, false)) :
    ∃ peer c, s.clients peer = some c ∧ Engaged config s peer ∧ config.name peer = name ∧
      s.look name = c.registered peer := by
  by_contra hno
  refine hlook (h.free name fun peer hengaged hname => hno ?_)
  obtain ⟨c, hc, -⟩ := id hengaged
  exact ⟨peer, c, hc, hengaged, hname, hname ▸ h.registered peer c hc hengaged⟩

theorem Quiescent.live (hquiescent : s.Quiescent) {c : Client} (hc : s.clients peer = some c)
    (h : Engaged config s peer) : s.Live peer := by
  obtain ⟨d, hd, -, hover⟩ := h
  obtain rfl : c = d := Option.some.inj (hc.symm.trans hd)
  obtain ⟨todo, loop⟩ := c
  obtain ⟨htodo, hreading | hgone⟩ := hquiescent peer _ hc
  · obtain rfl : todo = [] := htodo
    obtain rfl : loop = .reading := hreading
    exact hc
  · obtain rfl : todo = [] := htodo
    obtain rfl : loop = .ending [] := hgone
    exact absurd rfl hover

theorem look_of_live (hconfig : config.Lawful) (h : Inv config s) (hlive : s.Live peer) :
    s.look (config.name peer) = (true, some peer, true) := by
  refine h.registered peer _ hlive ⟨_, hlive, fun hnil => ?_, fun hover => by cases hover⟩
  exact absurd (hconfig.all .startReadLoop) (hnil ▸ List.not_mem_nil)

theorem Inv.oneToOne (hconfig : config.Lawful) (h : Inv config s) : OneToOne config s where
  registered := fun peer hlive => by
    obtain ⟨hstub, hpair⟩ := Prod.ext_iff.mp (look_of_live hconfig h hlive)
    obtain ⟨hwriter, hmarker⟩ := Prod.ext_iff.mp hpair
    obtain ⟨stub, hmem, hname⟩ := List.any_eq_true.mp hstub
    exact ⟨beq_iff_eq.mp hname ▸ hmem, hwriter, hmarker⟩
  stubs := fun hquiescent => by
    refine ⟨h.stubs, fun name hname => ?_⟩
    have hany : s.stubs.any (· == name) = true :=
      List.any_eq_true.mpr ⟨name, hname, beq_self_eq_true name⟩
    obtain ⟨peer, c, hc, hengaged, hpeer, -⟩ := h.holder name fun hnone => by
      have hfree : s.stubs.any (· == name) = false := (Prod.ext_iff.mp hnone).1
      rw [hany] at hfree
      cases hfree
    exact ⟨peer, hquiescent.live hc hengaged, hpeer⟩
  writers := fun hquiescent name peer hwriter => by
    obtain ⟨holder, c, hc, hengaged, hpeer, hlook⟩ := h.holder name fun hnone => by
      have hfree : s.writers name = none := (Prod.ext_iff.mp (Prod.ext_iff.mp hnone).2).1
      rw [hwriter] at hfree
      cases hfree
    have hlive := hquiescent.live hc hengaged
    have hsame : s.writers name = some holder :=
      (Prod.ext_iff.mp (Prod.ext_iff.mp (hpeer ▸ look_of_live hconfig h hlive)).2).1
    obtain rfl : peer = holder := Option.some.inj (hwriter.symm.trans hsame)
    exact ⟨hlive, hpeer⟩
  markers := fun hquiescent name hmarker => by
    obtain ⟨peer, c, hc, hengaged, hpeer, -⟩ := h.holder name fun hnone => by
      have hfree : s.markers name = false := (Prod.ext_iff.mp (Prod.ext_iff.mp hnone).2).2
      rw [hmarker] at hfree
      cases hfree
    exact ⟨peer, hquiescent.live hc hengaged, hpeer⟩

end State

/-! ## The two servers -/

theorem tcp_lawful (serverName : String) : (tcp serverName).Lawful where
  wf :=
    { todo := by simp [tcp]
      order := fun rest hrest => by
        simp [tcp, List.suffix_cons_iff] at hrest
        simp [hrest]
      idle := by simp [tcp]
      handler := fun _ => rfl
      stub := fun _ => rfl
      undos := fun _ hundos => by cases hundos }
  all := fun a => by cases a <;> simp [tcp]

theorem backbone_lawful (parentName : String) : (backbone parentName).Lawful where
  wf :=
    { todo := by simp [backbone]
      order := fun rest hrest => by
        simp [backbone, List.suffix_cons_iff] at hrest
        simp [hrest]
      idle := by simp [backbone]
      handler := fun _ => rfl
      stub := fun _ => rfl
      undos := fun _ hundos => by cases hundos }
  all := fun a => by cases a <;> simp [backbone]

/-- The addresses are in the names. -/
theorem tcp_name_injective {serverName addr other : String}
    (h : (tcp serverName).name addr = (tcp serverName).name other) : addr = other := by
  have hopen := (String.append_left_inj "]").mp h
  exact (String.append_right_inj _).mp hopen

/-- The TCP server starts the loop last. -/
theorem tcp_todo {serverName : String} (h : todo <:+ (tcp serverName).program)
    (hstarted : .startReadLoop ∉ todo) : todo = [] := by
  simp only [tcp, List.suffix_cons_iff, List.suffix_nil] at h
  rcases h with rfl | rfl | rfl | rfl | h
  · exact absurd hstarted (by decide)
  · exact absurd hstarted (by decide)
  · exact absurd hstarted (by decide)
  · exact absurd hstarted (by decide)
  · exact h

namespace State

/-- Every step of the TCP server is careful. -/
theorem tcp_careful {serverName : String} {s : State} (h : Inv (tcp serverName) s) (e : Event) :
    Careful (tcp serverName) s e := by
  cases e with
  | act peer =>
      intro loop hc other hother hname
      obtain rfl : other = peer := tcp_name_injective hname
      obtain ⟨d, hd, htodo, -⟩ := hother
      rw [hc] at hd
      exact htodo (Option.some.inj hd ▸ rfl)
  | undo peer =>
      intro todo undos hc hmem
      obtain ⟨hwf, hsuffix⟩ := h.wf peer _ hc
      have hstarted := hwf.started fun hloop => by cases hloop
      have hnil : todo = [] := tcp_todo hsuffix hstarted
      rw [hnil] at hmem
      cases hmem
  | accept peer => exact True.intro
  | readEnds peer => exact True.intro

end State

/-- In every run the connections of the TCP server and what is registered for it are one to one; those
of Backbone are in every run in which no connection begins to be registered while another has the
name, and no loop takes back a stub before it was registered. -/
theorem servers_one_to_one (name : String) (events : List Event) :
    Runs.Always (State.step (tcp name)) (State.OneToOne (tcp name)) State.start events ∧
      (Runs.Meets (State.step (backbone name)) (State.Careful (backbone name)) State.start events →
        Runs.Always (State.step (backbone name)) (State.OneToOne (backbone name)) State.start
          events) := by
  refine ⟨fun done s _ hrun => ?_, fun hmeets done s hdone hrun => ?_⟩
  · have hinv : State.Inv (tcp name) s :=
      Runs.invariant_of_step (P := State.Inv (tcp name))
        (fun m e m' hm hstep => hm.step (tcp_lawful name) (State.tcp_careful hm e) hstep)
        (State.inv_start (tcp name)) hrun
    exact hinv.oneToOne (tcp_lawful name)
  · have hinv : Runs.Always (State.step (backbone name)) (State.Inv (backbone name)) State.start
        events :=
      Runs.always_of_meets
        (fun m e m' hm hok hstep => hm.step (backbone_lawful name) hok hstep)
        (State.inv_start (backbone name)) hmeets
    exact (hinv done s hdone hrun).oneToOne (backbone_lawful name)

/-- A client is registered and leaves, all is taken back, and the next is registered. -/
def oneAfterOther : List Event :=
  [.accept "a", .act "a", .act "a", .act "a", .act "a", .readEnds "a", .undo "a", .undo "a",
    .undo "a", .accept "b", .act "b", .act "b", .act "b", .act "b"]

theorem careful_oneAfterOther : Runs.Meets (State.step (backbone "LAN"))
    (State.Careful (backbone "LAN")) State.start oneAfterOther := by
  refine Runs.meets_cons rfl True.intro (Runs.meets_cons rfl (fun loop _ other hother _ => ?_) ?_)
  · obtain ⟨c, hc, htodo, -⟩ := hother
    by_cases ha : other = "a"
    · subst ha
      exact htodo (Option.some.inj hc ▸ rfl)
    · rw [State.put_clients_of_ne _ ha] at hc
      cases hc
  iterate 3 refine Runs.meets_cons rfl (fun loop hloop => by cases hloop) ?_
  refine Runs.meets_cons rfl True.intro ?_
  refine Runs.meets_cons rfl (fun todo undos hundo => ?_) ?_
  · obtain ⟨rfl, -⟩ := Client.mk.inj (Option.some.inj hundo)
    exact List.not_mem_nil
  iterate 2 refine Runs.meets_cons rfl (fun todo undos hundo => by cases hundo) ?_
  refine Runs.meets_cons rfl True.intro (Runs.meets_cons rfl (fun loop _ other hother _ => ?_) ?_)
  · obtain ⟨c, hc, htodo, hover⟩ := hother
    by_cases ha : other = "a"
    · subst ha
      exact hover (Option.some.inj hc).symm
    by_cases hb : other = "b"
    · subst hb
      exact htodo (Option.some.inj hc ▸ rfl)
    · simp only [State.put_clients_of_ne _ hb, State.put_clients_of_ne _ ha, State.perform_clients,
        State.revert_clients] at hc
      cases hc
  iterate 3 refine Runs.meets_cons rfl (fun loop hloop => by cases hloop) ?_
  exact True.intro

/-- After the first has left frames are sent to the second. -/
theorem servers_one_to_one_after : ∃ s,
    Runs.exec (State.step (backbone "LAN")) State.start oneAfterOther = some s ∧ s.Live "b" ∧
      s.stubs = ["Client on LAN"] ∧ s.OneToOne (backbone "LAN") := by
  refine ⟨_, rfl, rfl, rfl, ?_⟩
  exact (servers_one_to_one "LAN" oneAfterOther).2 careful_oneAfterOther _ _ List.prefix_rfl rfl

/-- A second client of Backbone takes the writer of the first, and a client that leaves before its
stub is registered leaves the stub behind. -/
theorem servers_one_to_one_false :
    ¬Runs.Always (State.step (backbone "LAN")) (State.OneToOne (backbone "LAN")) State.start
        [.accept "a", .act "a", .act "a", .act "a", .act "a", .accept "b", .act "b"] ∧
      ¬Runs.Always (State.step (backbone "LAN")) (State.OneToOne (backbone "LAN")) State.start
        [.accept "a", .act "a", .act "a", .act "a", .readEnds "a", .undo "a", .undo "a", .undo "a",
          .act "a"] := by
  refine ⟨fun h => ?_, fun h => ?_⟩
  · have hwriter := ((h _ _ List.prefix_rfl rfl).registered "a" rfl).2.1
    exact absurd hwriter (by decide)
  · obtain ⟨-, hstub⟩ := (h _ _ List.prefix_rfl rfl).stubs fun peer c hc => by
      by_cases hpeer : peer = "a"
      · subst hpeer
        obtain rfl := Option.some.inj hc
        exact ⟨rfl, .inr rfl⟩
      · simp only [State.put_clients_of_ne _ hpeer, State.perform_clients,
          State.revert_clients] at hc
        cases hc
    obtain ⟨peer, hlive, -⟩ := hstub "Client on LAN" (by decide)
    by_cases hpeer : peer = "a"
    · subst hpeer
      cases Option.some.inj hlive
    · simp only [State.Live, State.put_clients_of_ne _ hpeer, State.perform_clients,
        State.revert_clients] at hlive
      cases hlive

end Reticulum.Interfaces.Server
