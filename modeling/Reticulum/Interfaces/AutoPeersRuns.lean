import Reticulum.Interfaces.AutoPeersKept

/-!
# Runs of an AutoInterface

Every task keeps the peers in step, provided that no addition and removal of one address overlap,
that nothing is added once a `detach` has listed the peers, and that a `detach` returns after the
removals. Addresses without a slash never share a name.
-/

namespace Reticulum.Interfaces.AutoPeers

open Threads

variable {st : Setting} {c : Core} {p : List Task}

/-! ## What the peers count on -/

/-- What is asked of a task when it runs. -/
def CarefulTask (t : Task) (c : Core) (p : List Task) : Prop :=
  match t with
  | .addHeard addr ifname => addr ∉ keys c.peers →
      (∀ x, .removing addr x ∉ p.map Task.role) ∧ c.listed = false ∧
        NameApart addr ifname c (p.map Task.role)
  | .removePeer _ addr => ∀ s n, .adding s addr n ∉ p.map Task.role
  | .detachNext [] => ∀ addr x, .removing addr x ∉ p.map Task.role
  | .detach => c.detached = true → c.detachReturned = true
  | _ => True

variable {roles : List Role}

theorem forall_adding {addr : String} :
    (∀ s n, .adding s addr n ∉ roles) ↔ ∀ r ∈ roles, r.addedAddr ≠ some addr := by
  constructor
  · rintro h (_ | _ | _ | _ | _) hr heq <;> cases heq
    exact h _ _ hr
  · exact fun h s n hin => h _ hin rfl

def Role.removedAddr : Role → Option String
  | .removing addr _ => some addr
  | _ => none

theorem forall_removing {addr : String} :
    (∀ x, .removing addr x ∉ roles) ↔ ∀ r ∈ roles, r.removedAddr ≠ some addr := by
  constructor
  · rintro h (_ | _ | _ | _ | _) hr heq <;> cases heq
    exact h _ hr
  · exact fun h x hin => h _ hin rfl

theorem forall_removedAddr :
    (∀ addr x, .removing addr x ∉ roles) ↔ ∀ r ∈ roles, r.removedAddr = none := by
  simp only [forall_removing, Option.eq_none_iff_forall_ne_some]
  exact ⟨fun h r hr addr => h addr r hr, fun h addr r hr => h r hr addr⟩

instance (addr ifname : String) (c : Core) (roles : List Role) :
    Decidable (NameApart addr ifname c roles) :=
  decidable_of_iff (∀ e ∈ claimed c roles, e.2 = peerName ifname addr → e.1 = addr)
    ⟨fun h _ ha => h _ ha rfl, fun h _ he heq => h _ (heq ▸ he)⟩

instance (t : Task) (c : Core) (p : List Task) : Decidable (CarefulTask t c p) :=
  match t with
  | .addHeard addr ifname =>
      decidable_of_iff (addr ∉ keys c.peers → (∀ r ∈ p.map Task.role, r.removedAddr ≠ some addr) ∧
        c.listed = false ∧ NameApart addr ifname c (p.map Task.role))
        (by simp only [CarefulTask, forall_removing])
  | .removePeer _ addr => decidable_of_iff _ forall_adding.symm
  | .detachNext [] => decidable_of_iff _ forall_removedAddr.symm
  | .detachNext (_ :: _) => isTrue True.intro
  | .detach => inferInstanceAs (Decidable (c.detached = true → c.detachReturned = true))
  | .addPeer .. | .ownAddress .. | .echoInterface .. | .recordEcho .. | .recordInitial ..
  | .clearSpawned .. | .spawn .. | .registerHandler .. | .registerStub .. | .removeSpawned ..
  | .peerJobs | .timedOut .. | .reversePeering .. | .addressChanges | .adopt .. | .replaceLocal ..
  | .processIncoming .. | .goOffline | .listPeers => isTrue True.intro

theorem carefulTask_perm (t : Task) (c : Core) (p q : List Task) (hp : List.Perm p q)
    (h : CarefulTask t c p) : CarefulTask t c q := by
  have hmem : ∀ r, r ∈ p.map Task.role ↔ r ∈ q.map Task.role :=
    fun r => (hp.map Task.role).mem_iff
  have hname : ∀ addr ifname, NameApart addr ifname c (p.map Task.role) →
      NameApart addr ifname c (q.map Task.role) := fun addr ifname hapart a ha =>
    hapart a ((claimed_perm (hp.map Task.role)).mem_iff.mpr ha)
  cases t with
  | addHeard addr ifname =>
      intro hnew
      obtain ⟨hrem, hl, hapart⟩ := h hnew
      exact ⟨fun x hx => hrem x ((hmem _).mpr hx), hl, hname _ _ hapart⟩
  | removePeer remover addr => exact fun s n hin => h s n ((hmem _).mpr hin)
  | detachNext addrs =>
      cases addrs with
      | nil => exact fun addr x hin => h addr x ((hmem _).mpr hin)
      | cons addr rest => exact True.intro
  | detach => exact h
  | addPeer | ownAddress | echoInterface | recordEcho | recordInitial | clearSpawned | spawn
  | registerHandler | registerStub | removeSpawned | peerJobs | timedOut | reversePeering
  | addressChanges | adopt | replaceLocal | processIncoming | goOffline | listPeers =>
      exact True.intro

/-! ## Every task keeps the peers in step -/

theorem mem_keys_hear {addr a : String} {now : Int} :
    a ∈ keys (c.hear addr now).peers ↔ a ∈ keys c.peers := by
  unfold Core.hear
  split
  · rfl
  · next info hinfo =>
    refine Assoc.mem_keys_put.trans ⟨?_, Or.inr⟩
    rintro (rfl | hin)
    · exact Assoc.mem_keys_of_mem (Assoc.mem_of_get hinfo)
    · exact hin

theorem hear_frame (addr : String) (now : Int) (h : Kept c roles) :
    Kept (c.hear addr now) roles := by
  refine h.frame (fun _ => mem_keys_hear) ?_ ?_ ?_ ?_ ?_ ?_ <;>
    (unfold Core.hear; split <;> rfl)

/-- Tasks with nothing in hand can be added. -/
theorem Kept.idles {tasks : List Task} (h : Kept c roles) (hidle : ∀ t ∈ tasks, t.role = .idle) :
    Kept c (tasks.map Task.role ++ roles) := by
  induction tasks with
  | nil => exact h
  | cons t tasks ih =>
      obtain ⟨ht, htasks⟩ := List.forall_mem_cons.mp hidle
      rw [List.map_cons, ht, List.cons_append, Kept.idle_iff]
      exact ih htasks

/-- Jobs go on with removals of peers. -/
theorem next_timedOut {now : Int} {answer : Answer} {u : Task}
    (hu : u ∈ (exec st (.timedOut now) answer c).next) :
    (∃ addr, u = .removePeer .one addr) ∨ u = .reversePeering now := by
  rcases List.mem_append.mp hu with hu | hu
  · obtain ⟨e, -, rfl⟩ := List.mem_map.mp hu
    exact Or.inl ⟨e.1, rfl⟩
  · exact Or.inr (List.mem_singleton.mp hu)

/-- A changed address is adopted and replaces the old one. -/
theorem next_addressChanges {answer : Answer} {u : Task}
    (hu : u ∈ (exec st .addressChanges answer c).next) :
    (∃ ifname addr, u = .adopt ifname addr) ∨ ∃ old new, u = .replaceLocal old new := by
  obtain ⟨e, -, hu⟩ := List.mem_flatMap.mp hu
  split at hu
  · exact absurd hu List.not_mem_nil
  · split at hu
    · exact absurd hu List.not_mem_nil
    · rcases List.mem_cons.mp hu with rfl | hu
      · exact Or.inl ⟨_, _, rfl⟩
      · exact Or.inr ⟨_, _, List.mem_singleton.mp hu⟩

theorem keys_reversePeering {now : Int} {answer : Answer} :
    keys (exec st (.reversePeering now) answer c).core.peers = keys c.peers := by
  refine (List.map_map ..).trans (List.map_congr_left fun e _ => ?_)
  dsimp only [Function.comp_apply]
  split <;> rfl

/-- A peer that is heard for the first time is reserved. -/
theorem Kept.reserveHeard {addr ifname : String} (h : Kept c (p.map Task.role))
    (hnone : ¬(Assoc.get c.peers addr).isSome = true)
    (hcareful : CarefulTask (.addHeard addr ifname) c (.addHeard addr ifname :: p))
    (info : PeerInfo) :
    Kept { c with peers := Assoc.put c.peers addr info }
      (.adding .reserved addr (peerName ifname addr) :: p.map Task.role) := by
  rw [Assoc.isSome_get_iff] at hnone
  obtain ⟨hrem, hl, hapart⟩ := hcareful hnone
  refine Kept.reserve h hnone ?_ hl ?_ _
  · exact fun x hx => hrem x (List.mem_cons_of_mem _ hx)
  · intro b hb
    refine hapart b ?_
    rcases mem_claimed.mp hb with hsp | hmem
    · exact mem_claimed.mpr (Or.inl hsp)
    · exact mem_claimed.mpr (Or.inr (List.mem_cons_of_mem _ hmem))

/-- Every task keeps the peers in step. -/
theorem kept_exec (t : Task) (answer : Answer) (h : Kept c ((t :: p).map Task.role))
    (hcareful : CarefulTask t c (t :: p)) :
    Kept (exec st t answer c).core (((exec st t answer c).next ++ p).map Task.role) := by
  have hidle : ∀ {tasks : List Task}, t.role = .idle → (∀ u ∈ tasks, u.role = .idle) →
      Kept c ((tasks ++ p).map Task.role) := by
    intro tasks ht htasks
    rw [List.map_cons, ht, Kept.idle_iff] at h
    rw [List.map_append]
    exact h.idles htasks
  have hnil := List.forall_mem_nil fun u : Task => u.role = .idle
  have hone : ∀ {u : Task}, u.role = .idle → ∀ v ∈ [u], v.role = .idle :=
    fun hu v hv => List.mem_singleton.mp hv ▸ hu
  cases t with
  | addPeer | peerJobs => exact hidle rfl (forall_mem_ite hnil (hone rfl))
  | ownAddress addr ifname => exact hidle rfl (forall_mem_ite (hone rfl) (hone rfl))
  | echoInterface addr =>
      refine hidle rfl fun u hu => ?_
      obtain ⟨e, -, rfl⟩ := List.mem_map.mp hu
      rfl
  | recordEcho =>
      exact (hidle rfl (hone rfl)).frame (fun _ => Iff.rfl) rfl rfl rfl rfl rfl rfl
  | adopt | replaceLocal =>
      exact (hidle rfl hnil).frame (fun _ => Iff.rfl) rfl rfl rfl rfl rfl rfl
  | recordInitial ifname now =>
      simp only [exec]
      split
      · exact hidle rfl hnil
      · exact (hidle rfl hnil).frame (fun _ => Iff.rfl) rfl rfl rfl rfl rfl rfl
  | addHeard addr ifname =>
      simp only [exec]
      split
      · exact hear_frame addr answer.now (hidle rfl hnil)
      · next hnone => exact (hidle rfl hnil).reserveHeard hnone hcareful _
  | clearSpawned addr ifname =>
      have hnot : addr ∉ keys c.spawnedInterfaces := h.not_spawned List.mem_cons_self
      simp only [exec]
      rw [Kept.dropSpawned_of_not_mem hnot]
      exact h
  | spawn addr ifname =>
      let peer : AutoInterfacePeer := { name := peerName ifname addr, addr, ifname }
      have hreserved : Kept c (.adding .reserved addr peer.name :: p.map Task.role) := h
      exact hreserved.spawn
  | registerHandler addr ifname => exact Kept.handler h
  | registerStub addr ifname => exact Kept.stub h
  | removePeer remover addr =>
      have hadd : ∀ s n, .adding s addr n ∉ p.map Task.role :=
        fun s n hin => hcareful s n (List.mem_cons_of_mem _ hin)
      cases remover with
      | one => exact Kept.removePeer h rfl hadd
      | detach rest => exact Kept.removePeer h rfl hadd
  | removeSpawned remover addr =>
      have hkept := Kept.removeSpawned h
      cases remover with
      | one => exact Kept.idle_iff.mp hkept
      | detach rest => exact hkept
  | timedOut now =>
      refine hidle rfl fun u hu => ?_
      obtain ⟨addr, rfl⟩ | rfl := next_timedOut hu
      · rfl
      · rfl
  | reversePeering now =>
      refine (hidle rfl (hone rfl)).frame (fun b => ?_) rfl rfl rfl rfl rfl rfl
      exact Iff.of_eq (congrArg (b ∈ ·) keys_reversePeering)
  | addressChanges =>
      refine hidle rfl fun u hu => ?_
      obtain ⟨_, _, rfl⟩ | ⟨_, _, rfl⟩ := next_addressChanges hu
      · rfl
      · rfl
  | processIncoming addr =>
      simp only [exec]
      split
      · exact hear_frame addr answer.now (hidle rfl hnil)
      · exact hidle rfl hnil
  | detach =>
      have hkept : Kept c (p.map Task.role) := hidle rfl hnil
      simp only [exec]
      split
      · next hset =>
        have hreturned : c.detachReturned = true := hcareful hset
        exact hkept.frame (fun _ => Iff.rfl) rfl rfl rfl rfl rfl hreturned.symm
      · next hunset => exact hkept.setDetached (Bool.not_eq_true _ ▸ hunset)
  | goOffline => exact Kept.frame h (fun _ => Iff.rfl) rfl rfl rfl rfl rfl rfl
  | listPeers => exact Kept.listPeers h
  | detachNext addrs =>
      cases addrs with
      | nil =>
          exact Kept.detachReturn h fun b y hin => hcareful b y (List.mem_cons_of_mem _ hin)
      | cons addr rest => exact h

theorem start_idle (call : Call) : ∀ t ∈ start call, t.role = .idle := by
  cases call <;> exact fun t ht => List.mem_singleton.mp ht ▸ rfl

theorem started_nil (t : Task) (answer : Answer) : (exec st t answer c).started = [] := by
  cases t with
  | recordInitial | addHeard | processIncoming | detach =>
      simp only [exec]
      split <;> rfl
  | detachNext addrs => cases addrs <;> rfl
  | addPeer | ownAddress | echoInterface | recordEcho | clearSpawned | spawn | registerHandler
  | registerStub | removePeer | removeSpawned | peerJobs | timedOut | reversePeering
  | addressChanges | adopt | replaceLocal | goOffline | listPeers => rfl

/-- The steps of a run that the peers count on. -/
def Careful : Pool Core Task → Threads.Event Call Answer → Prop := Guarded CarefulTask

instance (s : Pool Core Task) (e : Threads.Event Call Answer) : Decidable (Careful s e) :=
  inferInstanceAs (Decidable (Guarded CarefulTask s e))

theorem kept_step {s s' : Pool Core Task} {e : Threads.Event Call Answer}
    (h : Kept s.core (s.pending.map Task.role)) (hok : Careful s e)
    (hstep : step (system st) s e = some s') : Kept s'.core (s'.pending.map Task.role) := by
  refine invariant_step (I := fun c p => Kept c (p.map Task.role))
    (fun _ _ _ hp hk => hk.perm (hp.map _)) carefulTask_perm ?_ ?_ h hok hstep
  · intro call c p hk
    rw [List.map_append]
    exact hk.idles (start_idle call)
  · intro t answer c others hk hcareful
    have hnone : (exec st t answer c).started = [] := started_nil t answer
    change Kept (exec st t answer c).core
      (((exec st t answer c).next ++ ((exec st t answer c).started.flatten ++ others)).map _)
    rw [hnone]
    exact kept_exec t answer hk hcareful

/-! ## Consistent peers -/

/-- An `add_peer` that read the flag and may still add. -/
def Task.adds : Task → Bool
  | .ownAddress .. | .addHeard .. | .clearSpawned .. | .spawn .. | .registerHandler ..
  | .registerStub .. => true
  | _ => false

/-- The same peers everywhere. -/
structure SamePeers (c : Core) : Prop where
  spawned : ∀ a, a ∈ keys c.peers ↔ a ∈ keys c.spawnedInterfaces
  stub : ∀ a, a ∈ keys c.peers ↔ a ∈ c.stubs.map Prod.snd
  handler : ∀ a, a ∈ keys c.peers ↔ a ∈ c.outboundHandlers.map Prod.snd

/-- No peer anywhere. -/
structure NoPeers (c : Core) : Prop where
  peers : c.peers = []
  spawned : c.spawnedInterfaces = []
  stub : c.stubs = []
  handler : c.outboundHandlers = []

structure Consistent (s : Pool Core Task) : Prop where
  quiet : s.pending = [] → SamePeers s.core
  detached : s.core.detachReturned = true → (∀ t ∈ s.pending, t.adds = false) → NoPeers s.core

theorem mem_spawned {a : String} : (∃ n, Spawned c a n) ↔ a ∈ keys c.spawnedInterfaces := by
  constructor
  · rintro ⟨n, peer, hmem, -⟩
    exact Assoc.mem_keys_of_mem hmem
  · intro hin
    obtain ⟨peer, hmem⟩ := Assoc.exists_of_mem_keys hin
    exact ⟨peer.name, peer, hmem, rfl⟩

theorem mem_snd {m : List (String × String)} {a : String} :
    a ∈ m.map Prod.snd ↔ ∃ n, (n, a) ∈ m := by
  simp

theorem Kept.samePeers (h : Kept c []) : SamePeers c := by
  have hspawned : ∀ a, a ∈ keys c.peers ↔ a ∈ keys c.spawnedInterfaces := by
    intro a
    constructor
    · exact fun hin => h.peersOf a hin fun n => List.not_mem_nil
    · intro hin
      rcases h.spawnedOf a hin with ⟨hpeer, -⟩ | ⟨x, hx⟩
      · exact hpeer
      · exact absurd hx List.not_mem_nil
  refine ⟨hspawned, fun a => ?_, fun a => ?_⟩
  · rw [hspawned, ← mem_spawned, mem_snd]
    refine exists_congr fun n => ?_
    rw [h.stubs n a]
    exact ⟨fun hsp => ⟨hsp, List.not_mem_nil, List.not_mem_nil⟩, And.left⟩
  · rw [hspawned, ← mem_spawned, mem_snd]
    refine exists_congr fun n => ?_
    rw [h.handlers n a]
    exact ⟨fun hsp => ⟨hsp, List.not_mem_nil⟩, And.left⟩

theorem Kept.noPeers (h : Kept c roles) (hreturned : c.detachReturned = true) : NoPeers c := by
  obtain ⟨-, hpeers, hspawned⟩ := h.returned hreturned
  have hnone : ∀ a n, ¬ Spawned c a n := by
    rintro a n ⟨peer, hmem, -⟩
    rw [hspawned] at hmem
    exact List.not_mem_nil hmem
  refine ⟨List.map_eq_nil_iff.mp hpeers, hspawned, ?_, ?_⟩
  · rw [List.eq_nil_iff_forall_not_mem]
    exact fun e he => hnone _ _ ((h.stubs e.1 e.2).mp he).1
  · rw [List.eq_nil_iff_forall_not_mem]
    exact fun e he => hnone _ _ ((h.handlers e.1 e.2).mp he).1

theorem Kept.consistent {s : Pool Core Task} (h : Kept s.core (s.pending.map Task.role)) :
    Consistent s where
  quiet hnil := by
    rw [hnil] at h
    exact h.samePeers
  detached hreturned _ := h.noPeers hreturned

/-- An interface with no peer, whatever its own addresses are. -/
structure Start (c : Core) : Prop where
  peers : NoPeers c
  detached : c.detached = false
  listed : c.listed = false
  returned : c.detachReturned = false

theorem Start.kept (h : Start c) : Kept c [] := by
  have hnone : ∀ a n, ¬ Spawned c a n := by
    rintro a n ⟨peer, hmem, -⟩
    rw [h.peers.spawned] at hmem
    exact List.not_mem_nil hmem
  have hpeers : ∀ a, a ∉ keys c.peers := by
    intro a hin
    rw [h.peers.peers] at hin
    exact List.not_mem_nil hin
  have hspawned : ∀ a, a ∉ keys c.spawnedInterfaces := fun a hin =>
    let ⟨n, hsp⟩ := mem_spawned.mpr hin
    hnone a n hsp
  refine { spawnedKeys := ?_, adds := List.nodup_nil, adding := ?_, removing := ?_,
           spawnedOf := ?_, peersOf := ?_, named := ?_, handlers := ?_, stubs := ?_, apart := ?_,
           sweep := Nat.zero_le _, todo := ?_, listed := ?_, returned := ?_ }
  · rw [h.peers.spawned]
    exact List.nodup_nil
  · exact fun s a n hin => absurd hin List.not_mem_nil
  · exact fun a x hin => absurd hin List.not_mem_nil
  · exact fun a hin => absurd hin (hspawned a)
  · exact fun a hin => absurd hin (hpeers a)
  · exact fun s a n hin => absurd hin List.not_mem_nil
  · intro n a
    rw [h.peers.handler]
    exact ⟨fun hin => absurd hin List.not_mem_nil, fun hin => absurd hin.1 (hnone a n)⟩
  · intro n a
    rw [h.peers.stub]
    exact ⟨fun hin => absurd hin List.not_mem_nil, fun hin => absurd hin.1 (hnone a n)⟩
  · intro a b n ha
    rcases mem_claimed.mp ha with hsp | hin
    · exact absurd hsp (hnone a n)
    · exact absurd hin List.not_mem_nil
  · exact fun _ a hin => absurd hin (hpeers a)
  · exact fun r hr => absurd hr List.not_mem_nil
  · intro hreturned
    rw [h.returned] at hreturned
    cases hreturned

/-! ## Addresses without a slash -/

def SlashFree (addr : String) : Prop := '/' ∉ addr.toList

theorem toList_peerName (ifname addr : String) :
    (peerName ifname addr).toList =
      ("AutoInterfacePeer[".toList ++ ifname.toList) ++ '/' :: (addr.toList ++ [']']) := by
  have hslash : "/".toList = ['/'] := rfl
  have hclose : "]".toList = [']'] := rfl
  unfold peerName
  rw [String.toList_append, String.toList_append, String.toList_append, String.toList_append,
    hslash, hclose, List.append_assoc, List.append_assoc]
  rfl

theorem peerName_inj {ifname ifname' addr addr' : String} (h : SlashFree addr)
    (h' : SlashFree addr') (heq : peerName ifname addr = peerName ifname' addr') :
    addr = addr' := by
  have hlist := congrArg String.toList heq
  rw [toList_peerName, toList_peerName] at hlist
  have hclosed : ∀ {a : String}, SlashFree a → '/' ∉ a.toList ++ [']'] := by
    intro a ha hin
    rcases List.mem_append.mp hin with hin | hin
    · exact ha hin
    · exact absurd hin (by decide)
  obtain ⟨-, hrest⟩ := Text.append_cons_inj_last (hclosed h) (hclosed h') hlist
  exact String.toList_injective (List.append_cancel_right hrest)

def Task.SlashFree : Task → Prop
  | .addPeer addr _ | .ownAddress addr _ | .addHeard addr _ | .clearSpawned addr _
  | .spawn addr _ | .registerHandler addr _ | .registerStub addr _ => AutoPeers.SlashFree addr
  | _ => True

/-- Only peers whose address has no slash are there or will be. -/
structure Named (c : Core) (p : List Task) : Prop where
  spawned : ∀ e ∈ c.spawnedInterfaces, SlashFree e.1 ∧ ∃ ifname, e.2.name = peerName ifname e.1
  tasks : ∀ t ∈ p, t.SlashFree

theorem Named.nameApart (h : Named c p) {addr ifname : String} (ha : SlashFree addr) :
    NameApart addr ifname c (p.map Task.role) := by
  intro b hb
  rcases mem_claimed.mp hb with ⟨peer, hmem, hname⟩ | hmem
  · obtain ⟨hfree, ifname', hname'⟩ := h.spawned _ hmem
    exact peerName_inj hfree ha (hname'.symm.trans hname)
  · obtain ⟨t, ht, hrole⟩ := List.mem_map.mp hmem
    have hfree := h.tasks t ht
    cases t with
    | clearSpawned addr' ifname' | spawn addr' ifname' =>
        injection hrole with _ haddr hname
        subst haddr
        exact peerName_inj hfree ha hname
    | removePeer remover _ => cases remover <;> cases hrole
    | addPeer | ownAddress | echoInterface | recordEcho | recordInitial | addHeard
    | registerHandler | registerStub | removeSpawned | peerJobs | timedOut | reversePeering
    | addressChanges | adopt | replaceLocal | processIncoming | detach | goOffline | listPeers
    | detachNext => cases hrole

theorem mem_dropSpawned {addr : String} {e : String × AutoInterfacePeer}
    (h : e ∈ (c.dropSpawned addr).spawnedInterfaces) : e ∈ c.spawnedInterfaces := by
  unfold Core.dropSpawned at h
  split at h
  · exact h
  · exact List.mem_of_mem_filter h

theorem spawnedInterfaces_hear (addr : String) (now : Int) :
    (c.hear addr now).spawnedInterfaces = c.spawnedInterfaces := by
  unfold Core.hear
  split <;> rfl

theorem named_exec (t : Task) (answer : Answer) (h : Named c (t :: p)) :
    Named (exec st t answer c).core ((exec st t answer c).next ++ p) := by
  obtain ⟨hcore, htasks⟩ := h
  obtain ⟨ht, hp⟩ := List.forall_mem_cons.mp htasks
  have hadd : ∀ {k : Core} {next : List Task},
      (∀ e ∈ k.spawnedInterfaces, SlashFree e.1 ∧ ∃ ifname, e.2.name = peerName ifname e.1) →
      (∀ u ∈ next, u.SlashFree) → Named k (next ++ p) := by
    intro k next hk hnext
    exact ⟨hk, fun u hu => (List.mem_append.mp hu).elim (hnext u) (hp u)⟩
  have hnil : ∀ u ∈ ([] : List Task), u.SlashFree := fun u hu => absurd hu List.not_mem_nil
  have hone : ∀ {u : Task}, u.SlashFree → ∀ v ∈ [u], v.SlashFree :=
    List.forall_mem_singleton.mpr
  cases t with
  | addPeer | peerJobs | detach =>
      simp only [exec]
      split
      · exact hadd hcore hnil
      · exact hadd hcore (hone ht)
  | ownAddress addr ifname =>
      simp only [exec]
      split
      · exact hadd hcore (hone True.intro)
      · exact hadd hcore (hone ht)
  | echoInterface addr =>
      refine hadd hcore fun u hu => ?_
      obtain ⟨e, -, rfl⟩ := List.mem_map.mp hu
      exact True.intro
  | recordInitial ifname now =>
      simp only [exec]
      split <;> exact hadd hcore hnil
  | addHeard addr ifname =>
      simp only [exec]
      split
      · refine hadd ?_ hnil
        rw [spawnedInterfaces_hear]
        exact hcore
      · exact hadd hcore (hone ht)
  | clearSpawned addr ifname =>
      exact hadd (fun e he => hcore e (mem_dropSpawned he)) (hone ht)
  | spawn addr ifname =>
      refine hadd (fun e he => ?_) (hone ht)
      rcases Assoc.mem_put.mp he with ⟨haddr, hpeer⟩ | ⟨-, he⟩
      · rw [haddr, hpeer]
        exact ⟨ht, ifname, rfl⟩
      · exact hcore e he
  | registerHandler addr ifname => exact hadd hcore (hone ht)
  | registerStub addr ifname =>
      refine hadd ?_ hnil
      have hsame : (c.registerAutoInterfacePeer (peerName ifname addr) addr).spawnedInterfaces =
          c.spawnedInterfaces := by
        unfold Core.registerAutoInterfacePeer
        split <;> rfl
      exact fun e he => hcore e (hsame ▸ he)
  | removeSpawned remover addr =>
      refine hadd (fun e he => hcore e (mem_dropSpawned he)) ?_
      cases remover with
      | one => exact hnil
      | detach rest => exact List.forall_mem_cons.mpr ⟨True.intro, hnil⟩
  | timedOut now =>
      refine hadd hcore fun u hu => ?_
      obtain ⟨addr, rfl⟩ | rfl := next_timedOut hu
      · exact True.intro
      · exact True.intro
  | addressChanges =>
      refine hadd hcore fun u hu => ?_
      obtain ⟨_, _, rfl⟩ | ⟨_, _, rfl⟩ := next_addressChanges hu
      · exact True.intro
      · exact True.intro
  | processIncoming addr =>
      simp only [exec]
      split
      · refine hadd ?_ hnil
        rw [spawnedInterfaces_hear]
        exact hcore
      · exact hadd hcore hnil
  | detachNext addrs =>
      cases addrs with
      | nil => exact hadd hcore hnil
      | cons addr rest => exact hadd hcore (hone True.intro)
  | recordEcho | removePeer | reversePeering | goOffline | listPeers =>
      exact hadd hcore (hone True.intro)
  | adopt | replaceLocal => exact hadd hcore hnil

/-- Peers are heard at addresses without a slash. -/
def SlashFreeEvent : Threads.Event Call Answer → Prop
  | .call (.addPeer addr _) => SlashFree addr
  | _ => True

theorem named_step {s s' : Pool Core Task} {e : Threads.Event Call Answer}
    (h : Named s.core s.pending) (he : SlashFreeEvent e) (hstep : step (system st) s e = some s') :
    Named s'.core s'.pending := by
  rcases step_cases hstep with ⟨call, rfl, hsame, hpending⟩ |
    ⟨i, answer, t, rest, others, rfl, -, hsame, hbefore, hafter⟩
  · rw [hsame]
    refine ⟨h.spawned, fun u hu => ?_⟩
    rcases List.mem_append.mp (hpending.mem_iff.mp hu) with hu | hu
    · cases call with
      | addPeer addr ifname => exact List.mem_singleton.mp hu ▸ he
      | removePeer | peerJobs | processIncoming | detach =>
          exact List.mem_singleton.mp hu ▸ True.intro
    · exact h.tasks u hu
  · have hnone : (exec st t answer s.core).started = [] := started_nil t answer
    change List.Perm s'.pending ((exec st t answer s.core).next ++
      ((exec st t answer s.core).started.flatten ++ others)) at hafter
    rw [hnone] at hafter
    have hnamed : Named s.core (t :: others) :=
      ⟨h.spawned, fun u hu => h.tasks u (hbefore.mem_iff.mpr hu)⟩
    have hnext : Named (exec st t answer s.core).core ((exec st t answer s.core).next ++ others) :=
      named_exec t answer hnamed
    obtain ⟨hcore, htasks⟩ := hnext
    rw [hsame]
    exact ⟨hcore, fun u hu => htasks u (hafter.mem_iff.mp hu)⟩

/-- The part of what the peers count on that is about names. -/
def NamesApart : Pool Core Task → Threads.Event Call Answer → Prop :=
  Guarded fun t c p => ∀ addr ifname, t = .addHeard addr ifname →
    NameApart addr ifname c (p.map Task.role)

/-! ## Runs -/

/-- The peers stay consistent in a careful run, and where no address has a slash every name is
apart. -/
theorem peers_consistent (st : Setting) (c : Core) (h : Start c) :
    (∀ es, Runs.Meets (step (system st)) Careful ⟨c, []⟩ es →
      Runs.Always (step (system st)) Consistent ⟨c, []⟩ es) ∧
    ∀ es, (∀ e ∈ es, SlashFreeEvent e) →
      Runs.Meets (step (system st)) NamesApart ⟨c, []⟩ es := by
  refine ⟨fun es hmeets => ?_, fun es hfree => ?_⟩
  · intro done s' hdone hrun
    have hkept := Runs.always_of_meets
      (P := fun s : Pool Core Task => Kept s.core (s.pending.map Task.role))
      (fun s e s' hI hok hstep => kept_step hI hok hstep) h.kept hmeets
    exact (hkept done s' hdone hrun).consistent
  · have hnamed : Named c [] := by
      refine ⟨fun e he => ?_, fun t ht => absurd ht List.not_mem_nil⟩
      rw [h.peers.spawned] at he
      exact absurd he List.not_mem_nil
    refine Runs.meets_of_meets (I := fun s : Pool Core Task => Named s.core s.pending)
      (fun s e s' hI hok hstep => named_step hI hok hstep) ?_ hnamed
      (Runs.meets_of_forall hfree _)
    intro s e hI hok
    cases e with
    | call call => exact True.intro
    | run i answer =>
        intro t rest hthread addr ifname ht
        subst ht
        have hin : Task.addHeard addr ifname ∈ s.pending :=
          List.mem_flatten.mpr ⟨_, List.mem_of_getElem? hthread, List.mem_cons_self⟩
        have hslash : SlashFree addr := hI.tasks _ hin
        exact hI.nameApart hslash

def sampleSetting : Setting where
  peeringTimeout := 10
  reversePeeringInterval := 5

theorem start_sample : Start {} where
  peers := ⟨rfl, rfl, rfl, rfl⟩
  detached := rfl
  listed := rfl
  returned := rfl

/-- Two peers are added, the first is removed, and then the interface is detached. -/
def sampleRun : List (Threads.Event Call Answer) :=
  .call (.addPeer "fe80::1" "eth0") :: List.replicate 7 (.run 0 {}) ++
    .call (.addPeer "fe80::2" "eth0") :: List.replicate 7 (.run 1 {}) ++
    .call (.removePeer "fe80::1") :: List.replicate 2 (.run 2 {}) ++
    .call .detach :: List.replicate 7 (.run 3 {})

/-- The peers, and the stubs by address, after the first steps of that run. -/
def peersAfter (n : Nat) : Option (List String × List String) :=
  (Runs.exec (step (system sampleSetting)) ⟨{}, []⟩ (sampleRun.take n)).map fun s =>
    (keys s.core.peers, s.core.stubs.map Prod.snd)

theorem peers_consistent_two_peers :
    Runs.Always (step (system sampleSetting)) Consistent ⟨{}, []⟩ sampleRun ∧
    peersAfter 16 = some (["fe80::2", "fe80::1"], ["fe80::1", "fe80::2"]) ∧
    peersAfter 19 = some (["fe80::2"], ["fe80::2"]) ∧
    (Runs.exec (step (system sampleSetting)) ⟨{}, []⟩ sampleRun).map
        (fun s => (s.core.detachReturned, s.pending.isEmpty, keys s.core.spawnedInterfaces)) =
      some (true, true, []) :=
  ⟨(peers_consistent sampleSetting {} start_sample).1 sampleRun (by decide +kernel),
    by decide +kernel, by decide +kernel, by decide +kernel⟩

/-- The peer is removed between its entry in `peers` and its spawned interface. -/
def overlappingRun : List (Threads.Event Call Answer) :=
  [.call (.addPeer "fe80::1" "eth0"), .run 0 {}, .run 0 {}, .run 0 {},
    .call (.removePeer "fe80::1"), .run 1 {}, .run 1 {},
    .run 0 {}, .run 0 {}, .run 0 {}, .run 0 {}]

/-- It is spawned and registered and no peer. -/
theorem peers_consistent_false :
    ¬ ∀ (st : Setting) (c : Core), Start c → ∀ es,
      Runs.Always (step (system st)) Consistent ⟨c, []⟩ es := by
  intro hall
  have hend : (Runs.exec (step (system sampleSetting)) ⟨{}, []⟩ overlappingRun).any (fun s =>
      s.pending.isEmpty && s.core.peers.isEmpty &&
        (keys s.core.spawnedInterfaces).contains "fe80::1") = true := by decide
  obtain ⟨s, hs, hboth⟩ := (Option.any_eq_true _ _).mp hend
  simp only [Bool.and_eq_true, List.isEmpty_iff, List.contains_iff_mem] at hboth
  obtain ⟨⟨hquiet, hpeers⟩, hspawned⟩ := hboth
  have hsame := (hall sampleSetting {} start_sample overlappingRun overlappingRun s
    (List.prefix_refl _) hs).quiet hquiet
  have hin := (hsame.spawned _).mpr hspawned
  rw [hpeers] at hin
  exact List.not_mem_nil hin

-- An `add_peer` that read the flag before `detach` set it goes on after it.
example : (Runs.exec (step (system sampleSetting)) ⟨{}, []⟩
    [.call (.addPeer "fe80::1" "eth0"), .run 0 {}, .run 0 {}, .call .detach, .run 1 {}, .run 1 {},
      .run 1 {}, .run 1 {}, .run 0 {}, .run 0 {}, .run 0 {}, .run 0 {}, .run 0 {}]).any (fun s =>
        s.core.detachReturned && s.pending.isEmpty &&
          (keys s.core.peers).contains "fe80::1") = true := by decide

end Reticulum.Interfaces.AutoPeers
