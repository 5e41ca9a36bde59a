import Mathlib.Data.List.Perm.Basic
import Reticulum.Interfaces.AutoPeers
import Reticulum.Lib.Text

/-!
# Peers in step

What `peers`, the spawned interfaces and Transport have in common while calls run: every peer has
its spawned interface, handler and stub but for what a running `add_peer` has still to bring about
and a running removal to take away.

## Implementation notes

What a task has in hand is its role. The invariant is about the tables and the roles, in any order,
and each move below is one role giving way to another.
-/

namespace Reticulum.Interfaces.AutoPeers

open Threads

/-! ## Roles -/

/-- How far an `add_peer` that put its address into `peers` has come. -/
inductive Stage
  | reserved
  | spawned
  | handled
  deriving DecidableEq

/-- What a task has in hand: nothing; an addition; a removal that took the address out of `peers`,
for a `detach` with the peers that it has still to remove; a `detach` that has not listed the
peers; or one that has, with the peers left. -/
inductive Role
  | idle
  | adding (stage : Stage) (addr name : String)
  | removing (addr : String) (rest : Option (List String))
  | sweeping
  | listing (addrs : List String)
  deriving DecidableEq

def Remover.rest : Remover → Option (List String)
  | .one => none
  | .detach rest => some rest

def Task.role : Task → Role
  | .clearSpawned addr ifname | .spawn addr ifname =>
      .adding .reserved addr (peerName ifname addr)
  | .registerHandler addr ifname => .adding .spawned addr (peerName ifname addr)
  | .registerStub addr ifname => .adding .handled addr (peerName ifname addr)
  | .removePeer (.detach rest) addr => .listing (addr :: rest)
  | .removeSpawned remover addr => .removing addr remover.rest
  | .goOffline | .listPeers => .sweeping
  | .detachNext addrs => .listing addrs
  | _ => .idle

namespace Role

def addedAddr : Role → Option String
  | .adding _ addr _ => some addr
  | _ => none

/-- A name that is about to be taken. -/
def reservedName : Role → Option (String × String)
  | .adding .reserved addr name => some (addr, name)
  | _ => none

/-- The peers that a `detach` has listed and not removed yet. -/
def todo : Role → List String
  | .listing addrs => addrs
  | .removing _ rest => rest.getD []
  | _ => []

/-- A `detach` that listed the peers. -/
def listed : Role → Bool
  | .listing _ => true
  | .removing _ rest => rest.isSome
  | _ => false

/-- A `detach` that set the flag. -/
def sweeps : Role → Bool
  | .sweeping => true
  | role => role.listed

end Role

/-! ## The invariant -/

abbrev keys {ν : Type} (m : List (String × ν)) : List String := m.map Prod.fst

/-- The names that are in use or will be, with the addresses they are for. -/
def claimed (c : Core) (roles : List Role) : List (String × String) :=
  c.spawnedInterfaces.map (fun e => (e.1, e.2.name)) ++ roles.filterMap Role.reservedName

/-- A peer's spawned interface has the name. -/
def Spawned (c : Core) (addr name : String) : Prop :=
  ∃ peer, (addr, peer) ∈ c.spawnedInterfaces ∧ peer.name = name

structure Kept (c : Core) (roles : List Role) : Prop where
  spawnedKeys : (keys c.spawnedInterfaces).Nodup
  adds : (roles.filterMap Role.addedAddr).Nodup
  adding : ∀ s a n, .adding s a n ∈ roles → a ∈ keys c.peers
  removing : ∀ a x, .removing a x ∈ roles → a ∉ keys c.peers
  spawnedOf : ∀ a ∈ keys c.spawnedInterfaces,
    (a ∈ keys c.peers ∧ ∀ n, .adding .reserved a n ∉ roles) ∨ ∃ x, .removing a x ∈ roles
  peersOf : ∀ a ∈ keys c.peers, (∀ n, .adding .reserved a n ∉ roles) →
    a ∈ keys c.spawnedInterfaces
  named : ∀ s a n, .adding s a n ∈ roles → s ≠ .reserved → Spawned c a n
  handlers : ∀ n a, (n, a) ∈ c.outboundHandlers ↔
    Spawned c a n ∧ .adding .spawned a n ∉ roles
  stubs : ∀ n a, (n, a) ∈ c.stubs ↔
    Spawned c a n ∧ .adding .spawned a n ∉ roles ∧ .adding .handled a n ∉ roles
  apart : ∀ a b n, (a, n) ∈ claimed c roles → (b, n) ∈ claimed c roles → a = b
  sweep : roles.countP Role.sweeps ≤ if c.detached then 1 else 0
  todo : c.listed = true → ∀ a ∈ keys c.peers, ∃ r ∈ roles, a ∈ r.todo
  listed : ∀ r ∈ roles, r.listed = true → c.listed = true
  returned : c.detachReturned = true →
    c.listed = true ∧ keys c.peers = [] ∧ c.spawnedInterfaces = []

/-- No other peer has the name, or is about to take it. -/
def NameApart (addr ifname : String) (c : Core) (roles : List Role) : Prop :=
  ∀ a, (a, peerName ifname addr) ∈ claimed c roles → a = addr

theorem claimed_perm {c : Core} {roles roles' : List Role} (h : List.Perm roles roles') :
    List.Perm (claimed c roles) (claimed c roles') :=
  (h.filterMap _).append_left _

theorem mem_claimed {c : Core} {roles : List Role} {a n : String} :
    (a, n) ∈ claimed c roles ↔ Spawned c a n ∨ .adding .reserved a n ∈ roles := by
  unfold claimed Spawned
  rw [List.mem_append, List.mem_map, List.mem_filterMap]
  refine or_congr ?_ ?_
  · constructor
    · rintro ⟨⟨b, peer⟩, hmem, heq⟩
      obtain ⟨rfl, rfl⟩ := Prod.mk.inj heq
      exact ⟨peer, hmem, rfl⟩
    · rintro ⟨peer, hmem, rfl⟩
      exact ⟨_, hmem, rfl⟩
  · constructor
    · rintro ⟨r, hmem, heq⟩
      cases r with
      | adding s b m =>
          cases s with
          | reserved =>
              obtain ⟨rfl, rfl⟩ := Prod.mk.inj (Option.some.inj heq)
              exact hmem
          | spawned | handled => cases heq
      | idle | removing | sweeping | listing => cases heq
    · intro hmem
      exact ⟨_, hmem, rfl⟩

variable {peer : AutoInterfacePeer} {x : Option (List String)}

namespace Kept

variable {c k : Core} {roles roles' rest : List Role} {a n : String}

/-- Of the roles, only the additions and removals count, and what a `detach` has still to do. -/
theorem alike (h : Kept c roles) (hadds : (roles'.filterMap Role.addedAddr).Nodup)
    (hadding : ∀ s a n, .adding s a n ∈ roles' ↔ .adding s a n ∈ roles)
    (hremoving : ∀ a x, .removing a x ∈ roles' ↔ .removing a x ∈ roles) {detached listed : Bool}
    (hsweep : roles'.countP Role.sweeps ≤ if detached then 1 else 0)
    (htodo : listed = true → ∀ a ∈ keys c.peers, ∃ r ∈ roles', a ∈ r.todo)
    (hlisted : ∀ r ∈ roles', r.listed = true → listed = true)
    (hkeep : c.listed = true → listed = true) : Kept { c with detached, listed } roles' where
  spawnedKeys := h.spawnedKeys
  adds := hadds
  adding := by simpa only [hadding] using h.adding
  removing := by simpa only [hremoving] using h.removing
  spawnedOf := by simpa only [hadding, hremoving] using h.spawnedOf
  peersOf := by simpa only [hadding] using h.peersOf
  named s a n hmem := h.named s a n ((hadding s a n).mp hmem)
  handlers n a := by
    rw [hadding]
    exact h.handlers n a
  stubs n a := by
    rw [hadding, hadding]
    exact h.stubs n a
  apart a b n ha hb := by
    have hback : ∀ a, (a, n) ∈ claimed { c with detached, listed } roles' →
        (a, n) ∈ claimed c roles :=
      fun a ha => mem_claimed.mpr ((mem_claimed.mp ha).imp id (hadding _ _ _).mp)
    exact h.apart a b n (hback a ha) (hback b hb)
  sweep := hsweep
  todo := htodo
  listed := hlisted
  returned hquit := ⟨hkeep (h.returned hquit).1, (h.returned hquit).2⟩

theorem perm (h : Kept c roles) (hp : List.Perm roles roles') : Kept c roles' := by
  refine h.alike ((hp.filterMap _).nodup_iff.mp h.adds) (fun _ _ _ => hp.mem_iff.symm)
    (fun _ _ => hp.mem_iff.symm) ?_ ?_ ?_ id
  · rw [← hp.countP_eq]
    exact h.sweep
  · simpa only [hp.mem_iff] using h.todo
  · simpa only [hp.mem_iff] using h.listed

/-- Idle roles do not count. -/
theorem idle_iff : Kept c (.idle :: rest) ↔ Kept c rest := by
  constructor
  · intro h
    refine h.alike ?_ (by simp) (by simp) h.sweep ?_ ?_ id
    · exact h.adds
    · simpa [Role.todo] using h.todo
    · exact (List.forall_mem_cons.mp h.listed).2
  · intro h
    refine h.alike ?_ (by simp) (by simp) h.sweep ?_ ?_ id
    · exact h.adds
    · simpa [Role.todo] using h.todo
    · exact List.forall_mem_cons.mpr ⟨Bool.noConfusion, h.listed⟩

/-- Only which peers there are counts, not when they were heard. -/
theorem frame (h : Kept c roles) (hpeers : ∀ b, b ∈ keys k.peers ↔ b ∈ keys c.peers)
    (hspawned : k.spawnedInterfaces = c.spawnedInterfaces)
    (hhandlers : k.outboundHandlers = c.outboundHandlers) (hstubs : k.stubs = c.stubs)
    (hdetached : k.detached = c.detached) (hlisted : k.listed = c.listed)
    (hreturned : k.detachReturned = c.detachReturned) : Kept k roles := by
  have hname : ∀ a n, Spawned k a n ↔ Spawned c a n := by
    intro a n
    unfold Spawned
    rw [hspawned]
  exact {
    spawnedKeys := by
      rw [hspawned]
      exact h.spawnedKeys
    adds := h.adds
    adding := by simpa only [hpeers] using h.adding
    removing := by simpa only [hpeers] using h.removing
    spawnedOf := by simpa only [hspawned, hpeers] using h.spawnedOf
    peersOf := by simpa only [hspawned, hpeers] using h.peersOf
    named := by simpa only [hname] using h.named
    handlers := by simpa only [hhandlers, hname] using h.handlers
    stubs := by simpa only [hstubs, hname] using h.stubs
    apart := by simpa only [claimed, hspawned] using h.apart
    sweep := by
      rw [hdetached]
      exact h.sweep
    todo := by simpa only [hlisted, hpeers] using h.todo
    listed := by simpa only [hlisted] using h.listed
    returned := by
      simpa only [List.eq_nil_iff_forall_not_mem, hreturned, hlisted, hpeers, hspawned]
        using h.returned }

/-- A peer that is being added and is not spawned yet has nothing that is spawned. -/
theorem not_spawned (h : Kept c roles) (hmem : .adding .reserved a n ∈ roles) :
    a ∉ keys c.spawnedInterfaces := by
  intro hin
  rcases h.spawnedOf a hin with ⟨-, hnot⟩ | ⟨x, hx⟩
  · exact hnot n hmem
  · exact h.removing a x hx (h.adding _ a n hmem)

theorem dropSpawned_of_not_mem (hnot : a ∉ keys c.spawnedInterfaces) : c.dropSpawned a = c := by
  have hnone : Assoc.get c.spawnedInterfaces a = none := by
    rw [← Option.not_isSome_iff_eq_none, Assoc.isSome_get_iff]
    exact hnot
  unfold Core.dropSpawned
  rw [hnone]

/-- No two additions have one address. -/
theorem not_adding_of_head {s t : Stage} {m : String} (h : Kept c (.adding s a n :: rest)) :
    .adding t a m ∉ rest := by
  intro hmem
  have hadds : (a :: rest.filterMap Role.addedAddr).Nodup := h.adds
  rw [List.nodup_cons] at hadds
  exact hadds.1 (List.mem_filterMap.mpr ⟨_, hmem, rfl⟩)

/-! ## Adding a peer -/

/-- A new address is put into `peers`. -/
theorem reserve (h : Kept c roles) (hnew : a ∉ keys c.peers)
    (hremoving : ∀ x, .removing a x ∉ roles) (hlisted : c.listed = false)
    (hapart : ∀ b, (b, n) ∈ claimed c roles → b = a) (info : PeerInfo) :
    Kept { c with peers := Assoc.put c.peers a info } (.adding .reserved a n :: roles) where
  spawnedKeys := h.spawnedKeys
  adds := by
    change (a :: roles.filterMap Role.addedAddr).Nodup
    rw [List.nodup_cons]
    refine ⟨fun hmem => ?_, h.adds⟩
    obtain ⟨r, hr, heq⟩ := List.mem_filterMap.mp hmem
    cases r with
    | adding s b m =>
        obtain rfl : b = a := Option.some.inj heq
        exact hnew (h.adding s b m hr)
    | idle | removing | sweeping | listing => cases heq
  adding s b m hmem := by
    rcases List.mem_cons.mp hmem with heq | hmem
    · cases heq
      exact Assoc.mem_keys_put.mpr (Or.inl rfl)
    · exact Assoc.mem_keys_put.mpr (Or.inr (h.adding s b m hmem))
  removing b x hmem := by
    have hold : .removing b x ∈ roles := by simpa using hmem
    intro hin
    rcases Assoc.mem_keys_put.mp hin with rfl | hin
    · exact hremoving x hold
    · exact h.removing b x hold hin
  spawnedOf b hb := by
    rcases h.spawnedOf b hb with ⟨hin, hnot⟩ | ⟨x, hx⟩
    · refine Or.inl ⟨Assoc.mem_keys_put.mpr (Or.inr hin), fun m hmem => ?_⟩
      rcases List.mem_cons.mp hmem with heq | hmem
      · cases heq
        exact hnew hin
      · exact hnot m hmem
    · exact Or.inr ⟨x, List.mem_cons_of_mem _ hx⟩
  peersOf b hb hnot := by
    rcases Assoc.mem_keys_put.mp hb with rfl | hb
    · exact absurd List.mem_cons_self (hnot n)
    · exact h.peersOf b hb fun m hmem => hnot m (List.mem_cons_of_mem _ hmem)
  named s b m hmem hs := by
    rcases List.mem_cons.mp hmem with heq | hmem
    · cases heq
      exact absurd rfl hs
    · exact h.named s b m hmem hs
  handlers m b := by simpa [Spawned] using h.handlers m b
  stubs m b := by simpa [Spawned] using h.stubs m b
  apart b d m hb hd := by
    have hold : ∀ b, (b, m) ∈ claimed { c with peers := Assoc.put c.peers a info }
        (.adding .reserved a n :: roles) → (b = a ∧ m = n) ∨ (b, m) ∈ claimed c roles := by
      intro b hb
      rcases mem_claimed.mp hb with hb | hb
      · exact Or.inr (mem_claimed.mpr (Or.inl hb))
      · rcases List.mem_cons.mp hb with heq | hb
        · cases heq
          exact Or.inl ⟨rfl, rfl⟩
        · exact Or.inr (mem_claimed.mpr (Or.inr hb))
    rcases hold b hb with ⟨rfl, rfl⟩ | hb'
    · rcases hold d hd with ⟨rfl, -⟩ | hd'
      · rfl
      · exact (hapart d hd').symm
    · rcases hold d hd with ⟨rfl, rfl⟩ | hd'
      · exact hapart b hb'
      · exact h.apart b d m hb' hd'
  sweep := h.sweep
  todo hquit := by
    rw [hlisted] at hquit
    cases hquit
  listed r hr hl := by
    rcases List.mem_cons.mp hr with rfl | hr
    · cases hl
    · exact h.listed r hr hl
  returned hquit := by
    have hl := (h.returned hquit).1
    rw [hlisted] at hl
    cases hl

theorem spawned_put {b m : String} :
    Spawned { c with spawnedInterfaces := Assoc.put c.spawnedInterfaces a peer } b m ↔
      (b = a ∧ peer.name = m) ∨ (b ≠ a ∧ Spawned c b m) := by
  unfold Spawned
  constructor
  · rintro ⟨q, hmem, rfl⟩
    rcases Assoc.mem_put.mp hmem with ⟨rfl, rfl⟩ | ⟨hne, hmem⟩
    · exact Or.inl ⟨rfl, rfl⟩
    · exact Or.inr ⟨hne, q, hmem, rfl⟩
  · rintro (⟨rfl, rfl⟩ | ⟨hne, q, hmem, rfl⟩)
    · exact ⟨peer, Assoc.mem_put.mpr (Or.inl ⟨rfl, rfl⟩), rfl⟩
    · exact ⟨q, Assoc.mem_put.mpr (Or.inr ⟨hne, hmem⟩), rfl⟩

/-- The names that are in use or will be are the same. -/
theorem claimed_of_spawned {b m : String}
    (hb : (b, m) ∈ claimed { c with spawnedInterfaces := Assoc.put c.spawnedInterfaces a peer }
      (.adding .spawned a peer.name :: rest)) :
    (b, m) ∈ claimed c (.adding .reserved a peer.name :: rest) := by
  rcases mem_claimed.mp hb with hb | hb
  · rcases spawned_put.mp hb with ⟨rfl, rfl⟩ | ⟨-, hb⟩
    · exact mem_claimed.mpr (Or.inr List.mem_cons_self)
    · exact mem_claimed.mpr (Or.inl hb)
  · refine mem_claimed.mpr (Or.inr (List.mem_cons_of_mem _ ?_))
    exact List.mem_of_ne_of_mem (fun heq => by cases heq) hb

/-- The new interface waits for its handler; the others had or had not theirs. -/
theorem spawned_put_handled {b m : String} (h : Kept c (.adding .reserved a peer.name :: rest)) :
    Spawned { c with spawnedInterfaces := Assoc.put c.spawnedInterfaces a peer } b m ∧
        .adding .spawned b m ∉ Role.adding .spawned a peer.name :: rest ↔
      Spawned c b m ∧ .adding .spawned b m ∉ Role.adding .reserved a peer.name :: rest := by
  rw [spawned_put]
  by_cases heq : b = a
  · subst heq
    constructor
    · rintro ⟨⟨-, rfl⟩ | ⟨hne, -⟩, hnot⟩
      · exact absurd List.mem_cons_self hnot
      · exact absurd rfl hne
    · rintro ⟨⟨_, hmem, -⟩, -⟩
      exact absurd (Assoc.mem_keys_of_mem hmem) (h.not_spawned List.mem_cons_self)
  · simp [heq]

/-- The interface is spawned. -/
theorem spawn (h : Kept c (.adding .reserved a peer.name :: rest)) :
    Kept { c with spawnedInterfaces := Assoc.put c.spawnedInterfaces a peer }
      (.adding .spawned a peer.name :: rest) := by
  have hin : a ∈ keys c.peers := h.adding _ a _ List.mem_cons_self
  refine { spawnedKeys := Assoc.nodup_put h.spawnedKeys _ _, adds := h.adds, adding := ?_,
           removing := fun b x hmem => h.removing b x (by simpa using hmem), spawnedOf := ?_,
           peersOf := ?_, named := ?_, handlers := ?_, stubs := ?_, apart := ?_,
           sweep := h.sweep, todo := ?_, listed := ?_, returned := ?_ }
  · intro s b m hmem
    rcases List.mem_cons.mp hmem with heq | hmem
    · cases heq
      exact hin
    · exact h.adding s b m (List.mem_cons_of_mem _ hmem)
  · intro b hb
    rcases Assoc.mem_keys_put.mp hb with rfl | hb
    · refine Or.inl ⟨hin, fun m hmem => ?_⟩
      exact h.not_adding_of_head (List.mem_of_ne_of_mem (fun heq => by cases heq) hmem)
    · rcases h.spawnedOf b hb with ⟨hp, hnot⟩ | ⟨x, hx⟩
      · refine Or.inl ⟨hp, fun m hmem => hnot m ?_⟩
        exact List.mem_cons_of_mem _ (List.mem_of_ne_of_mem (fun heq => by cases heq) hmem)
      · exact Or.inr ⟨x, by simpa using hx⟩
  · intro b hb hnot
    by_cases heq : b = a
    · exact Assoc.mem_keys_put.mpr (Or.inl heq)
    · refine Assoc.mem_keys_put.mpr (Or.inr (h.peersOf b hb fun m hmem => hnot m ?_))
      refine List.mem_cons_of_mem _ (List.mem_of_ne_of_mem (fun hsame => ?_) hmem)
      cases hsame
      exact heq rfl
  · intro s b m hmem hs
    rcases List.mem_cons.mp hmem with hsame | hmem
    · cases hsame
      exact spawned_put.mpr (Or.inl ⟨rfl, rfl⟩)
    · have hne : b ≠ a := fun heq => h.not_adding_of_head (heq ▸ hmem)
      exact spawned_put.mpr (Or.inr ⟨hne, h.named s b m (List.mem_cons_of_mem _ hmem) hs⟩)
  · exact fun m b => (h.handlers m b).trans h.spawned_put_handled.symm
  · intro m b
    have hiff := h.stubs m b
    rw [← and_assoc] at hiff ⊢
    refine hiff.trans (and_congr h.spawned_put_handled.symm ?_)
    simp
  · exact fun b d m hb hd => h.apart b d m (claimed_of_spawned hb) (claimed_of_spawned hd)
  · simpa [Role.todo] using h.todo
  · simpa [Role.listed] using h.listed
  · intro hquit
    have hnil := (h.returned hquit).2.1
    rw [hnil] at hin
    exact absurd hin List.not_mem_nil

/-- The handler is registered. -/
theorem handler (h : Kept c (.adding .spawned a n :: rest)) :
    Kept (c.registerOutboundHandler n a) (.adding .handled a n :: rest) := by
  have hmine : Spawned c a n := h.named _ a n List.mem_cons_self Stage.noConfusion
  have hsame : ∀ {s b m}, Role.adding s b m ∈ Role.adding .handled a n :: rest →
      ∃ t, Role.adding t b m ∈ Role.adding .spawned a n :: rest ∧ (s ≠ .reserved → t ≠ .reserved) :=
    by
      intro s b m hmem
      rcases List.mem_cons.mp hmem with heq | hmem
      · cases heq
        exact ⟨_, List.mem_cons_self, fun _ => Stage.noConfusion⟩
      · exact ⟨s, List.mem_cons_of_mem _ hmem, id⟩
  refine { spawnedKeys := h.spawnedKeys, adds := h.adds, adding := ?_, removing := ?_,
           spawnedOf := ?_, peersOf := ?_, named := ?_, handlers := ?_, stubs := ?_, apart := ?_,
           sweep := h.sweep, todo := ?_, listed := ?_, returned := h.returned }
  · intro s b m hmem
    obtain ⟨t, ht, -⟩ := hsame hmem
    exact h.adding t b m ht
  · intro b x hmem
    exact h.removing b x (by simpa using hmem)
  · intro b hb
    simpa [Core.registerOutboundHandler] using h.spawnedOf b hb
  · intro b hb hnot
    exact h.peersOf b hb (by simpa using hnot)
  · intro s b m hmem hs
    obtain ⟨t, ht, htr⟩ := hsame hmem
    exact h.named t b m ht (htr hs)
  · intro m b
    have hiff := h.handlers m b
    change (m, b) ∈ Assoc.put c.outboundHandlers n a ↔ Spawned c b m ∧ _
    rw [Assoc.mem_put, hiff]
    constructor
    · rintro (⟨rfl, rfl⟩ | ⟨hne, hsp, hnot⟩)
      · refine ⟨hmine, fun hmem => ?_⟩
        exact h.not_adding_of_head (List.mem_of_ne_of_mem (fun heq => by cases heq) hmem)
      · exact ⟨hsp, fun hmem => hnot (List.mem_cons_of_mem _
          (List.mem_of_ne_of_mem (fun heq => by cases heq) hmem))⟩
    · rintro ⟨hsp, hnot⟩
      by_cases hm : m = n
      · subst hm
        exact Or.inl ⟨rfl, h.apart b a m (mem_claimed.mpr (Or.inl hsp))
          (mem_claimed.mpr (Or.inl hmine))⟩
      · refine Or.inr ⟨hm, hsp, fun hmem => hnot (List.mem_cons_of_mem _ ?_)⟩
        refine List.mem_of_ne_of_mem (fun heq => ?_) hmem
        cases heq
        exact hm rfl
  · intro m b
    have hiff := h.stubs m b
    simp only [List.mem_cons, Role.adding.injEq, reduceCtorEq, false_and, true_and, false_or,
      not_or] at hiff ⊢
    change (m, b) ∈ c.stubs ↔ Spawned c b m ∧ _
    rw [hiff]
    tauto
  · intro b d m hb hd
    have hback : ∀ b, (b, m) ∈ claimed (c.registerOutboundHandler n a)
        (.adding .handled a n :: rest) → (b, m) ∈ claimed c (.adding .spawned a n :: rest) :=
      fun _ hmem => hmem
    exact h.apart b d m (hback b hb) (hback d hd)
  · simpa [Role.todo, Core.registerOutboundHandler] using h.todo
  · simpa [Role.listed, Core.registerOutboundHandler] using h.listed

/-- The stub is registered, and the peer is complete. -/
theorem stub (h : Kept c (.adding .handled a n :: rest)) :
    Kept (c.registerAutoInterfacePeer n a) rest := by
  have hmine : Spawned c a n := h.named _ a n List.mem_cons_self Stage.noConfusion
  have hnew : n ∉ c.stubs.map Prod.fst := by
    intro hmem
    obtain ⟨b, hb⟩ := Assoc.exists_of_mem_keys hmem
    obtain ⟨hsp, -, hnot⟩ := (h.stubs n b).mp hb
    obtain rfl := h.apart b a n (mem_claimed.mpr (Or.inl hsp)) (mem_claimed.mpr (Or.inl hmine))
    exact hnot List.mem_cons_self
  have hadd : c.registerAutoInterfacePeer n a = { c with stubs := c.stubs ++ [(n, a)] } :=
    if_neg hnew
  rw [hadd]
  refine { spawnedKeys := h.spawnedKeys, adds := (List.nodup_cons.mp h.adds).2, adding := ?_,
           removing := ?_, spawnedOf := ?_, peersOf := ?_, named := ?_, handlers := ?_,
           stubs := ?_, apart := h.apart, sweep := h.sweep, todo := ?_, listed := ?_,
           returned := h.returned }
  · exact fun s b m hmem => h.adding s b m (List.mem_cons_of_mem _ hmem)
  · exact fun b x hmem => h.removing b x (List.mem_cons_of_mem _ hmem)
  · intro b hb
    simpa using h.spawnedOf b hb
  · intro b hb hnot
    exact h.peersOf b hb (by simpa using hnot)
  · exact fun s b m hmem hs => h.named s b m (List.mem_cons_of_mem _ hmem) hs
  · intro m b
    simpa [Spawned] using h.handlers m b
  · intro m b
    have hiff := h.stubs m b
    simp only [List.mem_cons, Role.adding.injEq, reduceCtorEq, false_and, true_and, false_or,
      not_or] at hiff
    change (m, b) ∈ c.stubs ++ [(n, a)] ↔ Spawned c b m ∧ _
    rw [List.mem_append, List.mem_singleton, hiff, Prod.mk.injEq]
    constructor
    · rintro (⟨hsp, h₁, -, h₂⟩ | ⟨rfl, rfl⟩)
      · exact ⟨hsp, h₁, h₂⟩
      · exact ⟨hmine, h.not_adding_of_head, h.not_adding_of_head⟩
    · rintro ⟨hsp, h₁, h₂⟩
      by_cases heq : m = n ∧ b = a
      · exact Or.inr heq
      · exact Or.inl ⟨hsp, h₁, fun hboth => heq ⟨hboth.2, hboth.1⟩, h₂⟩
  · intro hl b hb
    obtain ⟨r, hr, htodo⟩ := h.todo hl b hb
    rcases List.mem_cons.mp hr with rfl | hr
    · cases htodo
    · exact ⟨r, hr, htodo⟩
  · exact fun r hr hl => h.listed r (List.mem_cons_of_mem _ hr) hl

/-! ## Removing a peer -/

/-- The address is taken out of `peers`, by a removal of its own or by the next one of a
`detach`. -/
theorem removePeer {role : Role} (h : Kept c (role :: rest))
    (hrole : role = (x.elim .idle fun addrs => .listing (a :: addrs)))
    (hadd : ∀ s m, .adding s a m ∉ rest) :
    Kept { c with peers := Assoc.retain (fun b => b != a) c.peers } (.removing a x :: rest) := by
  have hkeys : ∀ b, b ∈ keys (Assoc.retain (fun b => b != a) c.peers) ↔ b ≠ a ∧ b ∈ keys c.peers :=
    fun b => Assoc.mem_keys_drop
  have hhead : ∀ s b m, role ≠ .adding s b m := by
    rintro s b m rfl
    cases x <;> cases hrole
  have hold : ∀ {s b m}, Role.adding s b m ∈ Role.removing a x :: rest ↔
      Role.adding s b m ∈ role :: rest := by
    intro s b m
    rw [List.mem_cons, List.mem_cons, or_iff_right (hhead s b m).symm,
      or_iff_right Role.noConfusion]
  have hrem : ∀ b y, Role.removing b y ∈ role :: rest → .removing b y ∈ rest := by
    intro b y hmem
    rcases List.mem_cons.mp hmem with rfl | hmem
    · cases x <;> cases hrole
    · exact hmem
  refine { spawnedKeys := h.spawnedKeys, adds := ?_, adding := ?_, removing := ?_,
           spawnedOf := ?_, peersOf := ?_, named := ?_, handlers := ?_, stubs := ?_, apart := ?_,
           sweep := ?_, todo := ?_, listed := ?_, returned := ?_ }
  · have hadds := h.adds
    cases x <;> (subst hrole; exact hadds)
  · intro s b m hmem
    refine (hkeys b).mpr ⟨fun heq => ?_, h.adding s b m (hold.mp hmem)⟩
    subst heq
    exact hadd s m (List.mem_of_ne_of_mem Role.noConfusion hmem)
  · intro b y hmem hin
    obtain ⟨hne, hin⟩ := (hkeys b).mp hin
    rcases List.mem_cons.mp hmem with heq | hmem
    · cases heq
      exact hne rfl
    · exact h.removing b y (List.mem_cons_of_mem _ hmem) hin
  · intro b hb
    rcases h.spawnedOf b hb with ⟨hin, hnot⟩ | ⟨y, hy⟩
    · by_cases heq : b = a
      · subst heq
        exact Or.inr ⟨x, List.mem_cons_self⟩
      · exact Or.inl ⟨(hkeys b).mpr ⟨heq, hin⟩, fun m hmem => hnot m (hold.mp hmem)⟩
    · exact Or.inr ⟨y, List.mem_cons_of_mem _ (hrem b y hy)⟩
  · intro b hb hnot
    exact h.peersOf b ((hkeys b).mp hb).2 fun m hmem => hnot m (hold.mpr hmem)
  · exact fun s b m hmem hs => h.named s b m (hold.mp hmem) hs
  · intro m b
    have hiff := h.handlers m b
    rwa [← hold] at hiff
  · intro m b
    have hiff := h.stubs m b
    rwa [← hold, ← hold] at hiff
  · intro b d m hb hd
    have hback : ∀ b, (b, m) ∈ claimed { c with peers := Assoc.retain (fun b => b != a) c.peers }
        (.removing a x :: rest) → (b, m) ∈ claimed c (role :: rest) := by
      intro b hb
      exact mem_claimed.mpr ((mem_claimed.mp hb).imp id hold.mp)
    exact h.apart b d m (hback b hb) (hback d hd)
  · have hsweep := h.sweep
    cases x <;> (subst hrole; exact hsweep)
  · intro hl b hb
    obtain ⟨hne, hin⟩ := (hkeys b).mp hb
    obtain ⟨r, hr, htodo⟩ := h.todo hl b hin
    rcases List.mem_cons.mp hr with rfl | hr
    · refine ⟨.removing a x, List.mem_cons_self, ?_⟩
      cases x with
      | none => rw [hrole] at htodo; cases htodo
      | some addrs =>
          rw [hrole] at htodo
          exact List.mem_of_ne_of_mem hne htodo
    · exact ⟨r, List.mem_cons_of_mem _ hr, htodo⟩
  · intro r hr hl
    rcases List.mem_cons.mp hr with rfl | hr
    · refine h.listed role List.mem_cons_self ?_
      cases x with
      | none => cases hl
      | some addrs => rw [hrole]; rfl
    · exact h.listed r (List.mem_cons_of_mem _ hr) hl
  · intro hquit
    obtain ⟨hl, hnil, hsp⟩ := h.returned hquit
    refine ⟨hl, ?_, hsp⟩
    rw [List.eq_nil_iff_forall_not_mem]
    intro b hb
    have hin := ((hkeys b).mp hb).2
    rw [hnil] at hin
    exact List.not_mem_nil hin

/-- Two spawned interfaces of one address are one. -/
theorem name_unique (h : Kept c roles) {m : String} (ha : Spawned c a n) (hb : Spawned c a m) :
    n = m := by
  obtain ⟨p, hp, rfl⟩ := ha
  obtain ⟨q, hq, rfl⟩ := hb
  rw [Assoc.eq_of_mem h.spawnedKeys hp hq]

/-- The spawned interface is torn down. -/
theorem tearDown (h : Kept c roles) (hnot : a ∉ keys c.peers)
    (hpeer : Assoc.get c.spawnedInterfaces a = some peer) :
    Kept { c.teardown peer with
      spawnedInterfaces := Assoc.retain (fun b => b != a) c.spawnedInterfaces } roles := by
  have hmine : Spawned c a peer.name := ⟨peer, Assoc.mem_of_get hpeer, rfl⟩
  have hspawned : ∀ b m, Spawned { c.teardown peer with
      spawnedInterfaces := Assoc.retain (fun b => b != a) c.spawnedInterfaces } b m ↔
      b ≠ a ∧ Spawned c b m := by
    intro b m
    unfold Spawned
    constructor
    · rintro ⟨q, hmem, rfl⟩
      exact ⟨(Assoc.mem_drop.mp hmem).1, q, (Assoc.mem_drop.mp hmem).2, rfl⟩
    · rintro ⟨hne, q, hmem, rfl⟩
      exact ⟨q, Assoc.mem_drop.mpr ⟨hne, hmem⟩, rfl⟩
  have hname : ∀ b m, Spawned c b m → (m ≠ peer.name ↔ b ≠ a) := by
    intro b m hsp
    refine not_congr ⟨fun heq => ?_, fun heq => ?_⟩
    · subst heq
      exact h.apart b a _ (mem_claimed.mpr (Or.inl hsp)) (mem_claimed.mpr (Or.inl hmine))
    · subst heq
      exact h.name_unique hsp hmine
  -- What Transport holds under another name is of another address.
  have hdrop : ∀ {m b : String} {q : Prop}, m ≠ peer.name ∧ Spawned c b m ∧ q ↔
      (b ≠ a ∧ Spawned c b m) ∧ q := fun {m b _} =>
    ⟨fun ⟨hne, hsp, hq⟩ => ⟨⟨(hname b m hsp).mp hne, hsp⟩, hq⟩,
      fun ⟨⟨hne, hsp⟩, hq⟩ => ⟨(hname b m hsp).mpr hne, hsp, hq⟩⟩
  refine { spawnedKeys := Assoc.nodup_retain h.spawnedKeys (fun b => b != a), adds := h.adds,
           adding := h.adding, removing := h.removing, spawnedOf := ?_, peersOf := ?_,
           named := ?_, handlers := ?_, stubs := ?_, apart := ?_, sweep := h.sweep,
           todo := h.todo, listed := h.listed, returned := ?_ }
  · exact fun b hb => h.spawnedOf b (Assoc.mem_keys_drop.mp hb).2
  · intro b hb hno
    exact Assoc.mem_keys_drop.mpr ⟨fun heq => hnot (heq ▸ hb), h.peersOf b hb hno⟩
  · intro s b m hmem hs
    refine (hspawned b m).mpr ⟨fun heq => ?_, h.named s b m hmem hs⟩
    exact hnot (heq ▸ h.adding s b m hmem)
  · intro m b
    change (m, b) ∈ Assoc.retain (fun k => k != peer.name) c.outboundHandlers ↔ _
    rw [Assoc.mem_drop, h.handlers m b, hspawned, hdrop]
  · intro m b
    change (m, b) ∈ Assoc.retain (fun k => k != peer.name) c.stubs ↔ _
    rw [Assoc.mem_drop, h.stubs m b, hspawned, hdrop]
  · intro b d m hb hd
    have hback : ∀ b, (b, m) ∈ claimed { c.teardown peer with
        spawnedInterfaces := Assoc.retain (fun b => b != a) c.spawnedInterfaces } roles →
        (b, m) ∈ claimed c roles :=
      fun b hb => mem_claimed.mpr
        ((mem_claimed.mp hb).imp (fun hsp => ((hspawned b m).mp hsp).2) id)
    exact h.apart b d m (hback b hb) (hback d hd)
  · intro hquit
    obtain ⟨hl, hnil, hsp⟩ := h.returned hquit
    refine ⟨hl, hnil, ?_⟩
    change Assoc.retain (fun b => b != a) c.spawnedInterfaces = []
    rw [hsp]
    rfl

/-- A removal ends when nothing is spawned any more. -/
theorem removed (h : Kept c (.removing a x :: rest)) (hno : a ∉ keys c.spawnedInterfaces) :
    Kept c ((x.elim .idle .listing) :: rest) := by
  have hold : ∀ {s b m}, Role.adding s b m ∈ (x.elim Role.idle Role.listing) :: rest ↔
      Role.adding s b m ∈ Role.removing a x :: rest := by
    intro s b m
    cases x <;> simp
  have hrem : ∀ {b y}, Role.removing b y ∈ (x.elim Role.idle Role.listing) :: rest →
      Role.removing b y ∈ rest := by
    intro b y hmem
    cases x <;> simpa using hmem
  refine { spawnedKeys := h.spawnedKeys, adds := ?_, adding := ?_, removing := ?_,
           spawnedOf := ?_, peersOf := ?_, named := ?_, handlers := ?_, stubs := ?_,
           apart := ?_, sweep := ?_, todo := ?_, listed := ?_, returned := h.returned }
  · have hadds := h.adds
    cases x <;> exact hadds
  · exact fun s b m hmem => h.adding s b m (hold.mp hmem)
  · exact fun b y hmem => h.removing b y (List.mem_cons_of_mem _ (hrem hmem))
  · intro b hb
    rcases h.spawnedOf b hb with ⟨hin, hnot⟩ | ⟨y, hy⟩
    · exact Or.inl ⟨hin, fun m hmem => hnot m (hold.mp hmem)⟩
    · refine Or.inr ⟨y, List.mem_cons_of_mem _ (List.mem_of_ne_of_mem (fun heq => ?_) hy)⟩
      cases heq
      exact hno hb
  · exact fun b hb hnot => h.peersOf b hb fun m hmem => hnot m (hold.mpr hmem)
  · exact fun s b m hmem hs => h.named s b m (hold.mp hmem) hs
  · intro m b
    rw [hold]
    exact h.handlers m b
  · intro m b
    rw [hold, hold]
    exact h.stubs m b
  · intro b d m hb hd
    have hback : ∀ b, (b, m) ∈ claimed c ((x.elim Role.idle Role.listing) :: rest) →
        (b, m) ∈ claimed c (.removing a x :: rest) :=
      fun b hb => mem_claimed.mpr ((mem_claimed.mp hb).imp id hold.mp)
    exact h.apart b d m (hback b hb) (hback d hd)
  · have hsweep := h.sweep
    cases x <;> exact hsweep
  · have htodo := h.todo
    cases x <;> simpa [Role.todo] using htodo
  · have hlisted := h.listed
    cases x <;> simpa [Role.listed] using hlisted

theorem removeSpawned (h : Kept c (.removing a x :: rest)) :
    Kept (c.dropSpawned a) ((x.elim .idle .listing) :: rest) := by
  unfold Core.dropSpawned
  split
  · next hnone =>
    refine h.removed ?_
    rw [← Assoc.isSome_get_iff, hnone]
    exact Bool.noConfusion
  · next peer hpeer =>
    refine (h.tearDown (h.removing a x List.mem_cons_self) hpeer).removed fun hin => ?_
    exact (Assoc.mem_keys_drop.mp hin).1 rfl

/-! ## Detaching -/

/-- `detach` sets the flag. -/
theorem setDetached (h : Kept c rest) (hnew : c.detached = false) :
    Kept { c with detached := true } (.sweeping :: rest) := by
  have hsweep := h.sweep
  rw [hnew] at hsweep
  refine h.alike ?_ (by simp) (by simp) ?_ ?_ ?_ id
  · exact h.adds
  · have hcount : (Role.sweeping :: rest).countP Role.sweeps = rest.countP Role.sweeps + 1 :=
      List.countP_cons_of_pos rfl
    rw [hcount]
    exact Nat.succ_le_succ hsweep
  · simpa [Role.todo] using h.todo
  · exact List.forall_mem_cons.mpr ⟨Bool.noConfusion, h.listed⟩

/-- `detach` lists the peers. -/
theorem listPeers (h : Kept c (.sweeping :: rest)) :
    Kept { c with listed := true } (.listing (keys c.peers) :: rest) := by
  refine h.alike ?_ (by simp) (by simp) h.sweep ?_ ?_ fun _ => rfl
  · exact h.adds
  · exact fun _ b hb => ⟨_, List.mem_cons_self, hb⟩
  · exact fun _ _ _ => rfl

/-- `detach` returns: it was the only one, so that no peer is left. -/
theorem detachReturn (h : Kept c (.listing [] :: rest)) (hquiet : ∀ b y, .removing b y ∉ rest) :
    Kept { c with detachReturned := true } rest := by
  have hl : c.listed = true := h.listed _ List.mem_cons_self rfl
  have hnone : ∀ r ∈ rest, r.sweeps ≠ true := by
    have hsweep : ((.listing [] : Role) :: rest).countP Role.sweeps ≤ 1 := by
      refine Nat.le_trans h.sweep ?_
      split <;> decide
    have hcount : ((.listing [] : Role) :: rest).countP Role.sweeps =
        rest.countP Role.sweeps + 1 := List.countP_cons_of_pos rfl
    rw [hcount] at hsweep
    exact List.countP_eq_zero.mp (Nat.le_zero.mp (Nat.le_of_succ_le_succ hsweep))
  have hsweeps : ∀ r : Role, r.todo ≠ [] → r.sweeps = true := by
    intro r htodo
    cases r with
    | removing b y =>
        cases y with
        | none => exact absurd rfl htodo
        | some addrs => rfl
    | listing => rfl
    | idle | adding | sweeping => exact absurd rfl htodo
  have hpeers : keys c.peers = [] := by
    rw [List.eq_nil_iff_forall_not_mem]
    intro b hb
    obtain ⟨r, hr, htodo⟩ := h.todo hl b hb
    rcases List.mem_cons.mp hr with rfl | hr
    · exact List.not_mem_nil htodo
    · exact hnone r hr (hsweeps r (List.ne_nil_of_mem htodo))
  have hspawned : c.spawnedInterfaces = [] := by
    rw [← List.map_eq_nil_iff (f := Prod.fst), List.eq_nil_iff_forall_not_mem]
    intro b hb
    rcases h.spawnedOf b hb with ⟨hin, -⟩ | ⟨y, hy⟩
    · rw [hpeers] at hin
      exact List.not_mem_nil hin
    · exact hquiet b y (List.mem_of_ne_of_mem Role.noConfusion hy)
  have hidle : Kept c rest := by
    refine h.alike ?_ (by simp) (by simp) ?_ ?_ (fun _ _ _ => hl) id
    · exact h.adds
    · exact Nat.le_trans (Nat.le_of_eq (List.countP_eq_zero.mpr hnone)) (Nat.zero_le _)
    · intro _ b hb
      rw [hpeers] at hb
      exact absurd hb List.not_mem_nil
  exact { hidle with returned := fun _ => ⟨hl, hpeers, hspawned⟩ }

end Kept

end Reticulum.Interfaces.AutoPeers
