import Reticulum.Transport.LinkRelay

/-!
# A relay keeps its links

What a call to `Transport::inbound` may change of what a relay needs for a link,
block after block, and then over runs. Only a frame whose hash or link id is that
of the link, or an announce of it as a destination, can bring the link into
another table or give it another entry.

## Implementation notes

The times and the mark of validation of an entry are the only parts of it that
the packets of its link change. The jobs that drop an entry after its timeout are
not steps here.
-/

namespace Reticulum.Transport

open Runs

/-- An entry of the link table without its time and its mark. -/
def LinkEntry.untimed (e : LinkEntry) : LinkEntry := { e with timestamp := 0, validated := false }

/-- What a relay needs for a link is as before. -/
structure KeepsLink (linkId : Bytes) (s s' : TransportState) : Prop where
  entry : (s'.linkTable linkId).map LinkEntry.untimed = (s.linkTable linkId).map LinkEntry.untimed
  path : s.pathTable linkId = none → s'.pathTable linkId = none
  reverse : s.reverseTable linkId = none → s'.reverseTable linkId = none
  control : s'.controlHashes = s.controlHashes
  interfaces : s'.interfaces.map InterfaceStub.untimed = s.interfaces.map InterfaceStub.untimed

/-- A packet that is not about to take the link's place in a table: no announce of it, no
request for it, and no packet with its hash. -/
structure Spares (c : Crypto) (linkId : Bytes) (p : Wire.Packet) : Prop where
  announce : p.packetType = Wire.announce → p.destinationHash ≠ some linkId
  request : p.packetType = Wire.linkRequest →
    (Link.linkIdFromLrPacket c (linkPacket p)).1 ≠ linkId
  other : p.packetType ≠ Wire.announce → p.packetType ≠ Wire.linkRequest →
    p.destinationHash ≠ some linkId → p.getTruncatedHash c ≠ linkId

namespace KeepsLink

variable {c : Crypto} {linkId destinationHash : Bytes} {s s' s'' : TransportState} {r : Reading}
  {p : Wire.Packet}

theorem refl : KeepsLink linkId s s := ⟨rfl, id, id, rfl, rfl⟩

theorem trans (h : KeepsLink linkId s s') (h' : KeepsLink linkId s' s'') :
    KeepsLink linkId s s'' where
  entry := h'.entry.trans h.entry
  path := fun hpath => h'.path (h.path hpath)
  reverse := fun hreverse => h'.reverse (h.reverse hreverse)
  control := h'.control.trans h.control
  interfaces := h'.interfaces.trans h.interfaces

theorem admitted : KeepsLink linkId s (admitted s r p) := by
  obtain ⟨table, heq⟩ := admitted_eq s r p
  rw [heq]
  exact ⟨rfl, id, id, rfl, (SameRoutes.noteInbound p.receivingInterface).interfaces⟩

theorem rememberPacketHash : KeepsLink linkId s (rememberPacketHash s p) := by
  obtain ⟨hashlist, heq⟩ := rememberPacketHash_eq s p
  rw [heq]
  exact ⟨rfl, id, id, rfl, rfl⟩

/-- An announce of another destination. -/
theorem inboundAnnounce (hdest : p.destinationHash ≠ some linkId) :
    KeepsLink linkId s (inboundAnnounce c s r p).2 := by
  have hnote : KeepsLink linkId s (noteValidated c s p) := by
    unfold noteValidated
    split <;> exact ⟨rfl, id, id, rfl, rfl⟩
  have hremember : ∀ t, KeepsLink linkId t (rememberAnnounce c t r p) := by
    intro t
    obtain ⟨known, ratchets, heq⟩ := rememberAnnounce_eq c t r p
    rw [heq]
    exact ⟨rfl, id, id, rfl, rfl⟩
  have hprocess : ∀ t, KeepsLink linkId t (processAnnounce t r p).1 := by
    intro t
    obtain ⟨table, ⟨-, heq⟩ | ⟨hash, requests, pacing, pending, hhash, heq⟩⟩ :=
      processAnnounce_cases t r p
    · rw [heq]
      exact ⟨rfl, id, id, rfl, rfl⟩
    · have hne : linkId ≠ hash := by
        rintro rfl
        exact hdest hhash
      rw [heq]
      exact ⟨rfl, (Table.insert_of_ne _ hne _).trans, id, rfl, rfl⟩
  unfold Transport.inboundAnnounce
  dsimp only
  split
  · exact hnote.trans ((hremember _).trans (rememberPacketHash.trans (hprocess _)))
  · exact hnote.trans rememberPacketHash

/-- Transit forwarding of a packet that spares the link. -/
theorem transit (hpath : s.pathTable linkId = none)
    (hdest : p.destinationHash = some destinationHash) (htype : p.packetType ≠ Wire.announce)
    (hp : Spares c linkId p) :
    KeepsLink linkId s (transit c s r (injectTransportId s p)).1 := by
  rw [transit_inject hdest htype]
  split
  swap
  · exact refl
  rename_i hfires
  have hne : linkId ≠ destinationHash := by
    rintro rfl
    simp [Table.contains, hpath] at hfires
  dsimp only
  unfold noteTransit
  refine ⟨?_, ?_, ?_, rfl, rfl⟩
  · dsimp only
    split
    · rename_i hrequest
      have hother : linkId ≠ (Link.linkIdFromLrPacket c
          (linkPacket { p with transportId := s.identityHash })).1 :=
        (hp.request hrequest).symm
      rw [Table.insert_of_ne _ hother]
    · rfl
  · intro _
    dsimp only
    split
    · rw [Table.insert_of_ne _ hne, hpath]
    · exact hpath
  · intro hreverse
    dsimp only
    split
    · exact hreverse
    · rename_i hrequest
      have hother : linkId ≠
          Wire.Packet.getTruncatedHash c { p with transportId := s.identityHash } := by
        refine (hp.other htype hrequest ?_).symm
        rw [hdest]
        exact fun h => hne (Option.some.inj h).symm
      rw [Table.insert_of_ne _ hother, hreverse]

/-- An entry of the link table that keeps its sides. -/
theorem entry_insert {table : Table LinkEntry} {entry entry' : LinkEntry}
    (hentry : table destinationHash = some entry) (hsame : entry'.untimed = entry.untimed) :
    (table.insert destinationHash entry' linkId).map LinkEntry.untimed =
      (table linkId).map LinkEntry.untimed := by
  by_cases hlink : linkId = destinationHash
  · rw [hlink, Table.insert_self, hentry, Option.map_some, Option.map_some, hsame]
  · rw [Table.insert_of_ne _ hlink]

theorem relayLink : KeepsLink linkId s (relayLink s r p).1 := by
  unfold Transport.relayLink
  split
  swap
  · exact refl
  split
  · exact refl
  rename_i destinationHash _
  split
  · rename_i entry name hrelayed
    obtain ⟨entry', hentry, hname⟩ := Option.bind_eq_some_iff.mp hrelayed
    obtain ⟨_, _, heq⟩ := Option.map_eq_some_iff.mp hname
    obtain rfl : entry' = entry := congrArg Prod.fst heq
    exact ⟨entry_insert hentry rfl, id, id, rfl, rfl⟩
  · exact refl

theorem handleData (hpath : s.pathTable linkId = none) :
    KeepsLink linkId s (handleData s r p).1 := by
  unfold Transport.handleData
  split
  swap
  · exact refl
  split
  · exact refl
  split
  · exact refl
  rename_i destinationHash _
  split
  swap
  · exact refl
  split
  · exact refl
  · rename_i frames hframes
    have hne : linkId ≠ destinationHash := by
      rintro rfl
      apply hframes
      simp [fallback, hpath, minByHops]
    exact ⟨rfl, (Table.insert_of_ne _ hne _).trans, id, rfl, rfl⟩

theorem handleProof : KeepsLink linkId s (handleProof c s r p).1 := by
  have hproof : KeepsLink linkId s (relayLrproof c s p).1 := by
    unfold relayLrproof
    split
    · exact refl
    · split
      · exact refl
      · rename_i entry hentry
        split
        · split
          · exact refl
          · exact ⟨entry_insert hentry rfl, id, id, rfl, rfl⟩
        · exact refl
  have hremove : ∀ destinationHash, KeepsLink linkId s
      { s with reverseTable := s.reverseTable.remove destinationHash } := by
    refine fun destinationHash => ⟨rfl, id, fun hreverse => ?_, rfl, rfl⟩
    change Function.update s.reverseTable destinationHash none linkId = none
    by_cases hlink : linkId = destinationHash
    · rw [hlink, Function.update_self]
    · rw [Function.update_of_ne hlink, hreverse]
  have hreturn : KeepsLink linkId s (returnProof s r p).1 := by
    unfold returnProof
    split
    · exact refl
    · split
      · split
        · exact hremove _
        · split
          · exact refl
          · exact hremove _
      · split
        · exact refl
        · split <;> exact refl
  unfold Transport.handleProof
  split
  · split
    · dsimp only
      split
      · exact hproof
      · exact refl
    · exact hreturn
  · exact refl

/-- Any packet that spares the link. -/
theorem inboundPacket (hpath : s.pathTable linkId = none)
    (hdest : p.destinationHash = some destinationHash) (htype : p.packetType ≠ Wire.announce)
    (hp : Spares c linkId p) : KeepsLink linkId s (inboundPacket c s r p).2 := by
  have hremember : KeepsLink linkId s (Transport.rememberPacketHash s p) := rememberPacketHash
  have htransit := transit (r := r) (hremember.path hpath) hdest htype hp
  have hrelay := hremember.trans (htransit.trans (relayLink (r := r)
    (p := injectTransportId (Transport.rememberPacketHash s p) p)))
  unfold Transport.inboundPacket
  exact hrelay.trans ((handleData (hrelay.path hpath)).trans handleProof)

/-- Any frame that spares the link. -/
theorem inbound {raw : Bytes} {receivingInterface : Option String}
    (hpath : s.pathTable linkId = none)
    (hspares : ∀ p, readFrame c raw receivingInterface = some p → Spares c linkId p) :
    KeepsLink linkId s (inbound c s r raw receivingInterface).2 := by
  cases hread : readFrame c raw receivingInterface with
  | none =>
      unfold Transport.inbound
      rw [hread]
      exact refl
  | some p =>
      have hp := hspares p hread
      have hpath' : (Transport.admitted s r p).pathTable linkId = none := admitted.path hpath
      rw [inbound_eq hread]
      split
      · exact ⟨rfl, id, id, rfl, (SameRoutes.noteInbound p.receivingInterface).interfaces⟩
      split
      · exact admitted
      split
      · exact admitted
      split
      · exact admitted
      split
      rename_i effects s' hprocessed
      split at hprocessed
      · rename_i htype
        obtain rfl : _ = s' := congrArg Prod.snd hprocessed
        exact admitted.trans (inboundAnnounce (p := hopped p) (hp.announce htype))
      · rename_i htype
        obtain ⟨destinationHash, hdest⟩ : ∃ destinationHash,
            p.destinationHash = some destinationHash := by
          unfold readFrame at hread
          split at hread
          · cases hread
          · obtain ⟨f, -, rfl⟩ := Wire.Frame.unpack_eq_some_iff.mp hread
            exact ⟨_, rfl⟩
        obtain rfl : _ = s' := congrArg Prod.snd hprocessed
        exact admitted.trans (inboundPacket (p := hopped p) hpath' hdest htype
          ⟨hp.announce, hp.request, hp.other⟩)

end KeepsLink

/-! ## Runs of a relay -/

/-- A frame that comes in, and what the call after it reads. -/
structure Arrival where
  name : String
  raw : Bytes
  next : Reading

/-- The frame spares the link. -/
def Arrival.Sparing (c : Crypto) (linkId : Bytes) (a : Arrival) : Prop :=
  ∀ p, readFrame c a.raw (some a.name) = some p → Spares c linkId p

namespace Relay

variable {c : Crypto} {x y : Relay} {linkId destinationHash : Bytes} {remaining taken : Nat}

/-- The relay after a frame. -/
def after (c : Crypto) (x : Relay) (a : Arrival) : Relay :=
  { x with state := (x.receive c a.name a.raw).2, reading := a.next }

/-- The relay later: after any run of frames that spare the link. -/
def Later (c : Crypto) (linkId : Bytes) (x y : Relay) : Prop :=
  ∃ arrivals, (∀ a ∈ arrivals, a.Sparing c linkId) ∧
    exec (fun x a => some (x.after c a)) x arrivals = some y

/-- The relay carries the link: it has the entry, and the link id names nothing else. -/
structure Carries (x : Relay) (linkId destinationHash : Bytes) (remaining taken : Nat) :
    Prop where
  entry : x.HasEntry linkId destinationHash remaining taken
  unclaimed : x.Unclaimed linkId

theorem isSome_findInterface {interfaces interfaces' : List InterfaceStub}
    (h : interfaces'.map InterfaceStub.untimed = interfaces.map InterfaceStub.untimed)
    (name : String) :
    (findInterface interfaces' name).isSome = (findInterface interfaces name).isSome := by
  have hfind := congrArg (fun interfaces => (findInterface interfaces name).isSome) h
  simpa [findInterface_untimed] using hfind

/-- The link id names nothing else in a state whose tables have nothing of it either. -/
theorem Unclaimed.of_state (h : x.Unclaimed linkId) {s : TransportState} {r : Reading}
    (hpath : s.pathTable linkId = none) (hreverse : s.reverseTable linkId = none)
    (hcontrol : s.controlHashes = x.state.controlHashes)
    (hinterfaces : s.interfaces.map InterfaceStub.untimed =
      x.state.interfaces.map InterfaceStub.untimed) :
    Unclaimed { x with state := s, reading := r } linkId where
  path := hpath
  reverse := hreverse
  control := by
    dsimp only
    rw [hcontrol]
    exact h.control
  up := (isSome_findInterface hinterfaces x.up).trans h.up
  down := (isSome_findInterface hinterfaces x.down).trans h.down

/-- A frame that spares the link leaves it with the relay. -/
theorem carries_after (h : x.Carries linkId destinationHash remaining taken) {a : Arrival}
    (ha : a.Sparing c linkId) :
    (x.after c a).Carries linkId destinationHash remaining taken := by
  have hkeeps : KeepsLink linkId x.state (x.after c a).state :=
    KeepsLink.inbound h.unclaimed.path ha
  obtain ⟨entry, hlookup, hfields⟩ := h.entry
  have hentry := hkeeps.entry
  rw [hlookup, Option.map_some] at hentry
  obtain ⟨entry', hlookup', heq⟩ := Option.map_eq_some_iff.mp hentry
  have hsame := congrArg (fun e : LinkEntry =>
    (e.nextHopInterface, e.receivedInterface, e.remainingHops, e.takenHops, e.destinationHash)) heq
  simp only [LinkEntry.untimed, Prod.mk.injEq] at hsame
  obtain ⟨hnext, hreceived, hremaining, htaken, hdest⟩ := hsame
  refine ⟨⟨entry', hlookup', ?_⟩, ?_⟩
  · rw [hnext, hreceived, hremaining, htaken, hdest]
    exact hfields
  · exact h.unclaimed.of_state (hkeeps.path h.unclaimed.path)
      (hkeeps.reverse h.unclaimed.reverse) hkeeps.control hkeeps.interfaces

/-- A relay that carries a link does so later, between the same interfaces. -/
theorem carries_of_later (h : x.Carries linkId destinationHash remaining taken)
    (hlater : x.Later c linkId y) :
    y.Carries linkId destinationHash remaining taken ∧ y.up = x.up ∧ y.down = x.down := by
  obtain ⟨arrivals, hsparing, hrun⟩ := hlater
  refine invariant (P := fun z => z.Carries linkId destinationHash remaining taken ∧
    z.up = x.up ∧ z.down = x.down) ?_ ⟨h, rfl, rfl⟩ (meets_of_forall hsparing x) hrun
  rintro z a z' ⟨hz, hup, hdown⟩ ha hstep
  obtain rfl := Option.some.inj hstep
  exact ⟨carries_after hz ha, hup, hdown⟩

end Relay

end Reticulum.Transport
