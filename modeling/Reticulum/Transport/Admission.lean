import Reticulum.Lib.Evict
import Reticulum.Link.Rejection
import Reticulum.Transport.Receive

/-!
# Admission of a route

`admit_route` (`src/transport.rs`) keeps the best routes of a destination by hops
and age, whether or not they can be used. The route of a new announce can be the
one that goes: an announce makes its destination reachable exactly when fewer than
`MAX_PATHS_PER_DEST` better routes are held, or one of the best of them is usable
(`hasPath_inbound_iff`).
-/

namespace Reticulum.Transport

def hasPath (s : TransportState) (now : ℚ) (destinationHash : Bytes) : Bool :=
  (selectPath s.pathTable s.interfaces destinationHash now).isSome

/-- `Transport::set_interface_online`, for the interfaces of the state. -/
def setInterfaceOnline (s : TransportState) (name : String) (online : Bool) : TransportState :=
  let set (interfaces : List InterfaceStub) : List InterfaceStub :=
    match interfaces.findIdx? fun i => i.name == name with
    | none => interfaces
    | some k => interfaces.modify k fun i => { i with online := online }
  { s with
    interfaces := set s.interfaces, localClientInterfaces := set s.localClientInterfaces }

/-- The routes that differ from a new one in the interface or in the next hop. -/
def otherRoutes (routes : List PathEntry) (newEntry : PathEntry) : List PathEntry :=
  routes.filter fun e =>
    e.receivingInterface != newEntry.receivingInterface || e.nextHop != newEntry.nextHop

section Eviction

theorem noBetter_iff (a b : PathEntry) : noBetter a b = true ↔
    a.hops.toNat < b.hops.toNat ∨ (a.hops.toNat = b.hops.toNat ∧ b.timestamp ≤ a.timestamp) := by
  simp [noBetter, UInt8.lt_iff_toNat_lt, UInt8.toNat_inj]

theorem noBetter_total (a b : PathEntry) : noBetter a b ∨ noBetter b a := by
  rw [noBetter_iff, noBetter_iff]
  rcases lt_trichotomy a.hops.toNat b.hops.toNat with h | h | h
  · exact .inl (.inl h)
  · rcases le_total b.timestamp a.timestamp with ht | ht
    · exact .inl (.inr ⟨h, ht⟩)
    · exact .inr (.inr ⟨h.symm, ht⟩)
  · exact .inr (.inl h)

theorem noBetter_trans (a b c : PathEntry) (hab : noBetter a b) (hbc : noBetter b c) :
    noBetter a c := by
  rw [noBetter_iff] at hab hbc ⊢
  obtain hab | ⟨hab, htab⟩ := hab
  · obtain hbc | ⟨hbc, -⟩ := hbc
    · exact .inl (hab.trans hbc)
    · exact .inl (hbc ▸ hab)
  · obtain hbc | ⟨hbc, htbc⟩ := hbc
    · exact .inl (hab ▸ hbc)
    · exact .inr ⟨hab.trans hbc, htbc.trans htab⟩

theorem worstIndex_eq (routes : List PathEntry) :
    worstIndex routes = Evict.worstIndex noBetter routes := by
  unfold worstIndex Evict.worstIndex
  congr
  funext worst e
  cases worst <;> rfl

theorem evictRoutes_eq (fuel : Nat) (routes : List PathEntry) :
    evictRoutes fuel routes = Evict.evict noBetter maxPathsPerDest fuel routes := by
  induction fuel generalizing routes with
  | zero => rfl
  | succ fuel ih =>
      unfold evictRoutes Evict.evict
      rw [worstIndex_eq]
      split
      · cases Evict.worstIndex noBetter routes with
        | none => rfl
        | some i => exact ih _
      · rfl

variable {routes : List PathEntry} {newEntry e : PathEntry}

/-- The routes after an admission are the best ones. -/
theorem mem_admitRoute_iff :
    e ∈ admitRoute routes newEntry ↔
      Evict.Kept noBetter maxPathsPerDest (newEntry :: otherRoutes routes newEntry) e := by
  unfold admitRoute
  rw [evictRoutes_eq]
  exact Evict.mem_evict_iff noBetter_trans noBetter_total le_rfl

theorem length_admitRoute_le : (admitRoute routes newEntry).length ≤ maxPathsPerDest := by
  unfold admitRoute
  rw [evictRoutes_eq]
  exact Evict.length_evict_le noBetter_trans noBetter_total le_rfl

theorem admitRoute_sublist :
    (admitRoute routes newEntry).Sublist (newEntry :: otherRoutes routes newEntry) := by
  unfold admitRoute
  rw [evictRoutes_eq]
  exact Evict.evict_sublist

/-- Every better route is ranked above a route that is no better than the new one. -/
theorem countP_better_le_rank {before after : List PathEntry} (h : noBetter newEntry e) :
    (before ++ e :: after).countP (!noBetter newEntry ·) ≤
      Evict.rank noBetter before e after := by
  have hbefore : before.countP (!noBetter newEntry ·) ≤ before.countP (noBetter · e) := by
    refine List.countP_mono_left fun x _ hx => ?_
    have hxnew : noBetter x newEntry := (noBetter_total x newEntry).resolve_right (by simpa using hx)
    exact noBetter_trans _ _ _ hxnew h
  have hafter : after.countP (!noBetter newEntry ·) ≤ after.countP (!noBetter e ·) := by
    refine List.countP_mono_left fun x _ hx => ?_
    cases hex : noBetter e x with
    | false => rfl
    | true => simp [noBetter_trans _ _ _ h hex] at hx
  simp only [List.countP_append, List.countP_cons, h, Evict.rank]
  simp only [Bool.not_true, Bool.false_eq_true, if_false]
  omega

/-- Some route that meets `good` is kept, where the new one does: the new one is kept, or
the others have one among their best. -/
theorem exists_kept_iff {others : List PathEntry} {good : PathEntry → Prop} (hnew : good newEntry) :
    (∃ e, Evict.Kept noBetter maxPathsPerDest (newEntry :: others) e ∧ good e) ↔
      others.countP (!noBetter newEntry ·) < maxPathsPerDest ∨
        ∃ e, Evict.Kept noBetter maxPathsPerDest others e ∧ good e := by
  constructor
  · rintro ⟨e, ⟨before, after, hsplit, hrank⟩, hgood⟩
    cases before with
    | nil =>
        obtain ⟨rfl, rfl⟩ : newEntry = e ∧ others = after := by simpa using hsplit
        left
        simpa [Evict.rank] using hrank
    | cons first before =>
        obtain ⟨rfl, rfl⟩ : newEntry = first ∧ others = before ++ e :: after := by
          simpa using hsplit
        refine .inr ⟨e, ⟨before, after, rfl, ?_⟩, hgood⟩
        unfold Evict.rank at hrank ⊢
        rw [List.countP_cons] at hrank
        omega
  · intro h
    by_cases hfew : others.countP (!noBetter newEntry ·) < maxPathsPerDest
    · exact ⟨newEntry, ⟨[], others, rfl, by simpa [Evict.rank] using hfew⟩, hnew⟩
    · obtain ⟨e, ⟨before, after, rfl, hrank⟩, hgood⟩ := h.resolve_left hfew
      refine ⟨e, ⟨newEntry :: before, after, rfl, ?_⟩, hgood⟩
      cases hle : noBetter newEntry e with
      | true => exact absurd ((countP_better_le_rank hle).trans_lt hrank) hfew
      | false =>
          unfold Evict.rank at hrank ⊢
          rw [List.countP_cons]
          simpa [hle] using hrank

end Eviction

section Reachable

variable {s : TransportState} {now : ℚ} {destinationHash : Bytes}

/-- A destination has a path when one of its routes is usable. -/
theorem hasPath_iff : hasPath s now destinationHash = true ↔
    ∃ e ∈ (s.pathTable destinationHash).getD [], usable s.interfaces now none e = true := by
  have hfold : ∀ (routes : List PathEntry) (best : Option PathEntry),
      (routes.foldl (fun best e => some (betterPath s.interfaces best e)) best).isSome =
        (best.isSome || !routes.isEmpty) := by
    intro routes
    induction routes with
    | nil => simp
    | cons e routes ih => simp [ih]
  unfold hasPath selectPath selectPathExcluding
  cases s.pathTable destinationHash with
  | none => simp
  | some routes =>
      simp only [Option.bind_some, hfold, Option.getD_some]
      simp

/-- An announce of a destination that is not of this node comes in over an interface that
is registered and online, is valid and passes the filter. -/
structure Accepted (c : Crypto) (s : TransportState) (r : Reading) (raw : Bytes) (name : String)
    (p : Wire.Packet) (destinationHash : Bytes) : Prop where
  read : readFrame c raw (some name) = some p
  type : p.packetType = Wire.announce
  destination : p.destinationHash = some destinationHash
  valid : validAnnounce c p = true
  considered : ignoredAnnounce s p = false
  passes : (admitPacket s r p).1 = true
  control : controlAspects s p = none
  foreign : destinationHash ∉ s.destinations
  online : (findInterface s.interfaces name).map (·.online) = some true

variable {c : Crypto} {r : Reading} {raw : Bytes} {name : String} {p : Wire.Packet}

/-- The route that an announce brings, one hop on. -/
def newRoute (r : Reading) (p : Wire.Packet) (destinationHash : Bytes) : PathEntry :=
  announcedRoute r (hopped p) destinationHash

/-- The routes that are held besides the one of the announce. -/
def heldRoutes (s : TransportState) (r : Reading) (p : Wire.Packet) (destinationHash : Bytes) :
    List PathEntry :=
  otherRoutes ((s.pathTable destinationHash).getD []) (newRoute r p destinationHash)

theorem usable_of_noted {s' : TransportState} (h : Noted s s') (e : PathEntry) :
    usable s'.interfaces now none e = usable s.interfaces now none e := by
  obtain ⟨interfaces, _, _, rfl, hinterfaces, -⟩ := h
  have hinterface := usable_untimed interfaces now none e
  have hbefore := usable_untimed s.interfaces now none e
  rw [hinterfaces] at hinterface
  exact hinterface.symm.trans hbefore

/-- A valid announce is longer than a hash. -/
theorem hashLen_lt_of_validAnnounce (h : validAnnounce c p = true) : hashLen < p.data.length := by
  by_contra hlength
  have hshort : p.data.length < keyLen + nameHashLen + randomLen + signatureLen :=
    lt_of_le_of_lt (Nat.not_lt.mp hlength) (by decide)
  simp [validAnnounce, validateAnnounce, hshort] at h

section

variable (h : Accepted c s r raw name p destinationHash)

include h

/-- An accepted announce is processed. -/
theorem inbound_of_accepted :
    (inbound c s r raw (some name)).2 = (inboundAnnounce c (admitted s r p) r (hopped p)).2 := by
  have hcached : cachedPacket c s p = none := by
    have hlength := hashLen_lt_of_validAnnounce h.valid
    unfold cachedPacket
    rw [if_neg]
    rintro ⟨-, heq⟩
    rw [heq] at hlength
    exact absurd hlength (by decide)
  rw [inbound_eq h.read, if_neg (by simp [h.considered]), if_neg (by simp [h.passes]), h.control]
  simp only [hcached, h.type, if_true]

/-- An accepted announce leaves the admitted routes behind. -/
theorem pathTable_of_accepted :
    (inbound c s r raw (some name)).2.pathTable destinationHash =
      some (admitRoute ((s.pathTable destinationHash).getD []) (newRoute r p destinationHash)) ∧
    ∀ e, usable (inbound c s r raw (some name)).2.interfaces r.now none e =
      usable s.interfaces r.now none e := by
  have hnoted : Noted s (admitted s r p) := noted_admitted
  have hadd : announceShouldAdd c (admitted s r p) (hopped p) = true := by
    have hvalid : validAnnounce c (hopped p) = true := h.valid
    unfold announceShouldAdd
    split
    · simp [hvalid]
    · rfl
  have husable : ∀ e, usable (admitted s r p).interfaces r.now none e =
      usable s.interfaces r.now none e := fun e => usable_of_noted hnoted e
  obtain ⟨interfaces, clients, rates, hadmitted, -, -⟩ := hnoted
  rw [inbound_of_accepted h]
  obtain ⟨validated, known, ratchets, hashlist, -, ⟨-, heq, -⟩ | ⟨hfalse, -⟩⟩ :=
    inboundAnnounce_cases c (admitted s r p) r (hopped p)
  swap
  · rw [hadd] at hfalse
    cases hfalse
  rw [heq]
  rw [hadmitted] at husable ⊢
  obtain ⟨table, ⟨hlocal, -⟩ | ⟨hash, requests, pacing, pending, hhash, hprocess⟩⟩ :=
    processAnnounce_cases { s with
      interfaces := interfaces, localClientInterfaces := clients, announceRateTable := rates
      validatedAnnounceHashes := validated, knownDestinations := known
      knownRatchets := ratchets, packetHashlist := hashlist } r (hopped p)
  · exact absurd (hlocal destinationHash h.destination) h.foreign
  · obtain rfl : destinationHash = hash := Option.some.inj (h.destination.symm.trans hhash)
    rw [hprocess]
    exact ⟨Table.insert_self _ _ _, husable⟩

/-- The new route itself is usable. -/
theorem usable_newRoute :
    usable s.interfaces r.now none (newRoute r p destinationHash) = true := by
  have hreceiving : p.receivingInterface = some name := receivingInterface_of_readFrame h.read
  have hvia : (newRoute r p destinationHash).receivingInterface = some name := hreceiving
  have hexpires : (newRoute r p destinationHash).isExpired r.now = false := by
    have hlater : r.now < r.now + destinationTimeout := lt_add_of_pos_right _ (by decide +kernel)
    exact decide_eq_false (not_le.mpr hlater)
  unfold usable
  rw [hexpires, hvia]
  dsimp only
  rw [h.online]
  rfl

end

/-- An accepted announce makes its destination reachable exactly when fewer than
`MAX_PATHS_PER_DEST` of the other routes are better than the new one, or one of the best
of them is usable. -/
theorem hasPath_inbound_iff (h : Accepted c s r raw name p destinationHash) :
    hasPath (inbound c s r raw (some name)).2 r.now destinationHash = true ↔
      (heldRoutes s r p destinationHash).countP (!noBetter (newRoute r p destinationHash) ·) <
          maxPathsPerDest ∨
        ∃ e, Evict.Kept noBetter maxPathsPerDest (heldRoutes s r p destinationHash) e ∧
          usable s.interfaces r.now none e = true := by
  obtain ⟨htable, husable⟩ := pathTable_of_accepted h
  rw [hasPath_iff, htable, ← exists_kept_iff (usable_newRoute h)]
  simp only [Option.getD_some, mem_admitRoute_iff, husable]
  rfl

end Reachable

/-! ## An announce that is accepted and forgotten -/

/-- The data of an announce of the zero key, with the one signature that is valid. -/
def zeroAnnounceData : Bytes := List.replicate 84 0 ++ List.replicate 64 1

/-- The signature of the zero announce is valid. -/
def zeroCrypto : Crypto :=
  Link.sampleCrypto [announceSignedData zeroAnnounceData (List.replicate 16 0) 0]

/-- The zero announce, sent by its destination so many hops away. -/
def zeroFrame (hops : UInt8) : Bytes :=
  [0x01, hops] ++ List.replicate 16 0 ++ [0x00] ++ zeroAnnounceData

/-- The zero announce, passed on by this node. -/
def zeroRelayed (transportId : UInt8) : Bytes :=
  [0x41, 0x00] ++ List.replicate 16 transportId ++ List.replicate 16 0 ++ [0x00] ++
    zeroAnnounceData

/-- The packet of the zero announce. -/
def zeroAnnounced (hops : UInt8) : Wire.Packet :=
  let p := Wire.Packet.holding (zeroFrame hops) (some "left")
  (p.unpack zeroCrypto).getD p

/-- A node with two interfaces. -/
def twoInterfaces : TransportState :=
  let interface (name : String) : InterfaceStub :=
    { name := name, online := true, bitrate := none, hwMtu := none, autoconfigureMtu := false
      fixedMtu := false, mode := 1, tunnelId := none, lastInboundAt := 0 }
  { TransportState.start with interfaces := [interface "left", interface "right"] }

/-- The node after these neighbours on the right have passed the announce on, and the interface on
the right has gone offline. -/
def deadRoutes (neighbours : List UInt8) : TransportState :=
  let hear (s : TransportState) (neighbour : UInt8) : TransportState :=
    (inbound zeroCrypto s .zero (zeroRelayed neighbour) (some "right")).2
  setInterfaceOnline (neighbours.foldl hear twoInterfaces) "right" false

section Samples

set_option maxRecDepth 4000

theorem accepted_dead (neighbours : List UInt8) (h : neighbours ∈ [[1, 2], [1, 2, 3]]) :
    Accepted zeroCrypto (deadRoutes neighbours) .zero (zeroFrame 1) "left" (zeroAnnounced 1)
      (List.replicate 16 0) where
  read := rfl
  type := by decide
  destination := rfl
  valid := by revert neighbours; decide +kernel
  considered := by revert neighbours; decide +kernel
  passes := by revert neighbours; decide +kernel
  control := by revert neighbours; decide +kernel
  foreign := by revert neighbours; decide +kernel
  online := by revert neighbours; decide +kernel

/-- Behind two routes over an interface that is offline, the route of a new announce makes the
destination reachable again. -/
theorem hasPath_inbound_third :
    hasPath (deadRoutes [1, 2]) 0 (List.replicate 16 0) = false ∧
      hasPath (inbound zeroCrypto (deadRoutes [1, 2]) .zero (zeroFrame 1) (some "left")).2 0
        (List.replicate 16 0) = true :=
  ⟨by decide +kernel,
    (hasPath_inbound_iff (accepted_dead [1, 2] (by decide))).mpr (.inl (by decide +kernel))⟩

/-- Three routes over an interface that is offline keep the route of a new announce out. -/
theorem hasPath_inbound_false :
    ¬ ∀ (c : Crypto) (s : TransportState) (r : Reading) (raw : Bytes) (name : String)
        (p : Wire.Packet) (destinationHash : Bytes),
      Accepted c s r raw name p destinationHash →
      hasPath (inbound c s r raw (some name)).2 r.now destinationHash = true := by
  intro hall
  have hpath := hall _ _ _ _ _ _ _ (accepted_dead [1, 2, 3] (by decide))
  exact absurd hpath (by decide +kernel)

end Samples

end Reticulum.Transport
