import Reticulum.Lib.Runs
import Reticulum.Link.Rejection
import Reticulum.Transport.Inbound

/-!
# The cache of validated announces

An announce whose packet hash was validated before is not validated again. The
hash is taken over the low half of the flag byte, so that it does not cover the
context flag, by which `validate_announce` finds the ratchet and the signature.

## Implementation notes

A node is followed over any sequence of frames and rotations of the caches. Any
other change of its state may come in between, as long as it leaves the two
caches alone. The announces that were validated are recorded.
-/

namespace Reticulum.Transport

open Runs

/-- The two caches of validated announces are the same. -/
structure SameCache (s s' : TransportState) : Prop where
  current : s'.validatedAnnounceHashes = s.validatedAnnounceHashes
  prev : s'.validatedAnnounceHashesPrev = s.validatedAnnounceHashesPrev

variable {c : Crypto}

namespace SameCache

variable {s s' s'' : TransportState} {r : Reading} {p : Wire.Packet}

theorem refl : SameCache s s := ⟨rfl, rfl⟩

theorem trans (h : SameCache s s') (h' : SameCache s' s'') : SameCache s s'' :=
  ⟨h'.current.trans h.current, h'.prev.trans h.prev⟩

theorem admitted : SameCache s (admitted s r p) := by
  obtain ⟨table, heq⟩ := admitted_eq s r p
  rw [heq]
  exact ⟨rfl, rfl⟩

theorem rememberPacketHash : SameCache s (rememberPacketHash s p) := by
  obtain ⟨hashlist, heq⟩ := rememberPacketHash_eq s p
  rw [heq]
  exact ⟨rfl, rfl⟩

theorem rememberAnnounce : SameCache s (rememberAnnounce c s r p) := by
  obtain ⟨known, ratchets, heq⟩ := rememberAnnounce_eq c s r p
  rw [heq]
  exact ⟨rfl, rfl⟩

theorem processAnnounce : SameCache s (processAnnounce s r p).1 := by
  obtain ⟨table, ⟨-, heq⟩ | ⟨hash, requests, pacing, pending, -, heq⟩⟩ :=
    processAnnounce_cases s r p <;>
  · rw [heq]
    exact ⟨rfl, rfl⟩

theorem transit : SameCache s (transit c s r p).1 := by
  unfold Transport.transit
  split
  · split
    · exact refl
    · dsimp only
      split <;> exact ⟨rfl, rfl⟩
  · exact refl

theorem relayLink : SameCache s (relayLink s r p).1 := by
  unfold Transport.relayLink
  split
  · split
    · exact refl
    · split <;> exact ⟨rfl, rfl⟩
  · exact refl

theorem handleData : SameCache s (handleData s r p).1 := by
  unfold Transport.handleData
  split
  · split
    · exact refl
    · split
      · exact refl
      · split
        · split <;> exact ⟨rfl, rfl⟩
        · exact refl
  · exact refl

theorem relayLrproof : SameCache s (relayLrproof c s p).1 := by
  unfold Transport.relayLrproof
  split
  · exact refl
  · split
    · exact refl
    · split
      · split <;> exact ⟨rfl, rfl⟩
      · exact refl

theorem returnProof : SameCache s (returnProof s r p).1 := by
  unfold Transport.returnProof
  split
  · exact refl
  · split
    · split
      · exact ⟨rfl, rfl⟩
      · split <;> exact ⟨rfl, rfl⟩
    · split
      · exact refl
      · split <;> exact refl

theorem handleProof : SameCache s (handleProof c s r p).1 := by
  unfold Transport.handleProof
  split
  · split
    · dsimp only
      split
      · exact relayLrproof
      · exact refl
    · exact returnProof
  · exact refl

theorem inboundPacket : SameCache s (inboundPacket c s r p).2 := by
  unfold Transport.inboundPacket
  apply trans (rememberPacketHash (p := p))
  apply trans (transit (r := r) (p := injectTransportId (Transport.rememberPacketHash s p) p) (c := c))
  apply trans (relayLink (r := r))
  apply trans (handleData (r := r))
  exact handleProof

end SameCache

/-- What a call adds to the cache: the hash of an announce that it validates. -/
theorem inboundAnnounce_cache (c : Crypto) (s : TransportState) (r : Reading) (p : Wire.Packet) :
    SameCache (noteValidated c s p) (inboundAnnounce c s r p).2 := by
  unfold inboundAnnounce
  dsimp only
  split
  · apply SameCache.trans SameCache.rememberAnnounce
    apply SameCache.trans SameCache.rememberPacketHash
    exact SameCache.processAnnounce
  · exact SameCache.rememberPacketHash

/-- The announce that a call validates, or takes from the cache though it is
valid. -/
def validatedBy (c : Crypto) (s : TransportState) (r : Reading) (raw : Bytes)
    (receivingInterface : Option String) : List Wire.Packet :=
  match readFrame c raw receivingInterface, (inbound c s r raw receivingInterface).1 with
  | some p, .processed _ =>
      if p.packetType = Wire.announce ∧ validAnnounce c p = true then [p] else []
  | _, _ => []

/-- A call leaves the caches alone, or adds the hash of an announce that it
validated. -/
theorem inbound_cache (c : Crypto) (s : TransportState) (r : Reading) (raw : Bytes)
    (receivingInterface : Option String) :
    SameCache s (inbound c s r raw receivingInterface).2 ∨
      ∃ p, readFrame c raw receivingInterface = some p ∧ validAnnounce c p = true ∧
        validatedBy c s r raw receivingInterface = [p] ∧
        SameCache { s with
            validatedAnnounceHashes := insertHash s.validatedAnnounceHashes p.packetHash }
          (inbound c s r raw receivingInterface).2 := by
  cases hread : readFrame c raw receivingInterface with
  | none =>
      left
      unfold inbound
      rw [hread]
      exact SameCache.refl
  | some p =>
      obtain ⟨table, hadmitted⟩ := admitted_eq s r p
      have heq := inbound_eq hread s r
      unfold validatedBy
      rw [hread, heq]
      by_cases hignored : ignoredAnnounce s p = true
      · rw [if_pos hignored]
        exact .inl ⟨rfl, rfl⟩
      rw [if_neg hignored]
      by_cases hrefused : (admitPacket s r p).1 = false
      · rw [if_pos hrefused]
        exact .inl SameCache.admitted
      rw [if_neg hrefused]
      cases controlAspects s p with
      | some aspects => exact .inl SameCache.admitted
      | none =>
          cases cachedPacket c s p with
          | some entry => exact .inl SameCache.admitted
          | none =>
              by_cases htype : p.packetType = Wire.announce
              · have hcache := inboundAnnounce_cache c (admitted s r p) r (hopped p)
                simp only [if_pos htype]
                unfold noteValidated at hcache
                split at hcache
                · rename_i hvalid
                  refine .inr ⟨p, rfl, hvalid.2.2, ?_, ?_⟩
                  · rw [if_pos ⟨htype, hvalid.2.2⟩]
                  · refine SameCache.trans ?_ hcache
                    rw [hadmitted]
                    exact ⟨rfl, rfl⟩
                · exact .inl (SameCache.admitted.trans hcache)
              · simp only [if_neg htype]
                exact .inl (SameCache.admitted.trans SameCache.inboundPacket)

/-- A node, with the announces that were validated. -/
structure Node where
  transport : TransportState
  validated : List Wire.Packet

/-- A frame comes in, the caches are rotated, or something else happens to the
node. -/
inductive NodeEvent
  | inbound (raw : Bytes) (receivingInterface : Option String) (r : Reading)
  | rotate
  | other (s : TransportState)

namespace Node

/-- The rotation in `jobs`. -/
def rotate (s : TransportState) : TransportState :=
  { s with
    packetHashlistPrev := s.packetHashlist
    packetHashlist := []
    validatedAnnounceHashesPrev := s.validatedAnnounceHashes
    validatedAnnounceHashes := [] }

/-- One event. Nothing but a frame and a rotation changes the caches. -/
def step (c : Crypto) (n : Node) : NodeEvent → Option Node
  | .inbound raw receivingInterface r => some
      { transport := (Transport.inbound c n.transport r raw receivingInterface).2
        validated := n.validated ++ validatedBy c n.transport r raw receivingInterface }
  | .rotate => some { n with transport := rotate n.transport }
  | .other s =>
      if s.validatedAnnounceHashes = n.transport.validatedAnnounceHashes ∧
          s.validatedAnnounceHashesPrev = n.transport.validatedAnnounceHashesPrev then
        some { n with transport := s }
      else none

/-- The owner of the announced key signed the identity, the ratchet and the
application data that are taken from the announce. -/
def OwnerSigned (c : Crypto) (p : Wire.Packet) : Prop :=
  ∃ destinationHash, p.destinationHash = some destinationHash ∧
    c.verify (slice p.data 32 32) (slice p.data (signatureStart p.contextFlag) signatureLen)
      (destinationHash ++ p.data.take keyLen ++ slice p.data keyLen nameHashLen ++
        slice p.data (keyLen + nameHashLen) randomLen ++ (extractAnnounceRatchet p).getD [] ++
        (extractAnnounceAppData p).getD []) = true

/-- An announce that is taken from the cache is valid, and what it says is signed. -/
def Honest (c : Crypto) (n : Node) : NodeEvent → Prop
  | .inbound raw receivingInterface _ =>
      ∀ p, readFrame c raw receivingInterface = some p → p.packetType = Wire.announce →
        keyLen ≤ p.data.length → alreadyValidated n.transport p = true →
        validAnnounce c p = true ∧ OwnerSigned c p
  | _ => True

/-- An announce with the packet hash of one that was validated has the same hashed
bytes and the same context flag. -/
def SameFlag (c : Crypto) (n : Node) : NodeEvent → Prop
  | .inbound raw receivingInterface _ =>
      ∀ p, readFrame c raw receivingInterface = some p → p.packetType = Wire.announce →
        ∀ q ∈ n.validated, q.packetHash = p.packetHash →
          q.getHashablePart = p.getHashablePart ∧ q.contextFlag = p.contextFlag
  | _ => True

/-- The fields that a valid announce is read for are those its signature covers. -/
theorem ownerSigned_of_valid {p : Wire.Packet} (h : validAnnounce c p = true) :
    OwnerSigned c p := by
  unfold validAnnounce validateAnnounce at h
  split at h
  · cases h
  split at h
  swap
  · cases h
  rename_i destHash key hdest hkey
  obtain rfl := Option.some.inj hkey
  split at h
  · cases h
  split at h
  · cases h
  rename_i hlength
  have hratchet : slice p.data (keyLen + nameHashLen + randomLen) (ratchetLen p.contextFlag) =
      (extractAnnounceRatchet p).getD [] := by
    unfold extractAnnounceRatchet
    by_cases hflag : p.contextFlag = flagSet
    · have hlong : ¬ p.data.length < keyLen + nameHashLen + randomLen + ratchetSize := by
        simp only [signatureStart, ratchetLen, hflag, if_true] at hlength
        omega
      simp [ratchetLen, hflag, hlong]
    · simp [ratchetLen, hflag, slice]
  have happ : p.data.drop (signatureStart p.contextFlag + signatureLen) =
      (extractAnnounceAppData p).getD [] := by
    unfold extractAnnounceAppData
    by_cases hshort : p.data.length ≤ signatureStart p.contextFlag + signatureLen
    · simp [hshort]
    · simp [hshort]
  have hsigning : slice (p.data.take keyLen) 32 32 = slice p.data 32 32 := by
    simp [slice, keyLen, List.drop_take, List.take_take]
  rw [hsigning] at h
  dsimp only at h
  split at h
  · cases h
  split at h
  · cases h
  rename_i hverify
  refine ⟨destHash, hdest, ?_⟩
  rw [← hratchet, ← happ]
  simpa [announceSignedData] using hverify

/-- Frames with the same hashed bytes are for the same destination and carry the same
data. -/
theorem fields_of_hashable {p q : Wire.Packet} {raw raw' : Bytes} {i i' : Option String}
    (hp : readFrame c raw i = some p) (hq : readFrame c raw' i' = some q)
    (hpart : q.getHashablePart = p.getHashablePart) :
    q.destinationHash = p.destinationHash ∧ q.data = p.data := by
  have hframe : ∀ {raw : Bytes} {i : Option String} {p : Wire.Packet},
      readFrame c raw i = some p → ∃ f : Wire.Frame, p.getHashablePart = f.hashable ∧
        p.destinationHash = some f.destinationHash.1 ∧ p.data = f.data := by
    intro raw i p hread
    unfold readFrame at hread
    split at hread
    · cases hread
    · obtain ⟨f, hraw, rfl⟩ := Wire.Frame.unpack_eq_some_iff.mp hread
      exact ⟨f, Wire.Frame.hashablePart_of_raw hraw rfl, rfl, rfl⟩
  obtain ⟨f, hf, hfdest, hfdata⟩ := hframe hp
  obtain ⟨g, hg, hgdest, hgdata⟩ := hframe hq
  rw [hf, hg] at hpart
  obtain ⟨-, hrest⟩ := List.cons.inj hpart
  have hlength : g.destinationHash.1.length = f.destinationHash.1.length := by
    rw [g.destinationHash.2, f.destinationHash.2]
  obtain ⟨hdest, hdata⟩ := List.append_inj hrest hlength
  rw [hfdest, hgdest, hdest, hfdata, hgdata]
  exact ⟨rfl, (List.cons.inj hdata).2⟩

/-- Each hash in the caches is that of a valid announce that was validated. -/
def CacheInv (c : Crypto) (n : Node) : Prop :=
  ∀ hash, hash ∈ n.transport.validatedAnnounceHashes ∨
      hash ∈ n.transport.validatedAnnounceHashesPrev →
    ∃ q ∈ n.validated, q.packetHash = some hash ∧ validAnnounce c q = true ∧
      ∃ raw i, readFrame c raw i = some q

theorem cacheInv_step {n n' : Node} {e : NodeEvent} (h : CacheInv c n)
    (hstep : step c n e = some n') : CacheInv c n' := by
  cases e with
  | inbound raw i r =>
      obtain rfl := Option.some.inj hstep
      intro hash hmem
      obtain hsame | ⟨p, hread, hvalid, hby, hsame⟩ := inbound_cache c n.transport r raw i
      · rw [hsame.current, hsame.prev] at hmem
        obtain ⟨q, hq, hrest⟩ := h hash hmem
        exact ⟨q, List.mem_append_left _ hq, hrest⟩
      · rw [hsame.current, hsame.prev] at hmem
        by_cases hnew : p.packetHash = some hash
        · refine ⟨p, List.mem_append_right _ ?_, hnew, hvalid, raw, i, hread⟩
          rw [hby]
          exact List.mem_singleton_self p
        · have hold : hash ∈ n.transport.validatedAnnounceHashes ∨
              hash ∈ n.transport.validatedAnnounceHashesPrev := by
            refine hmem.imp_left fun hcurrent => ?_
            cases hhash : p.packetHash with
            | none =>
                rw [hhash] at hcurrent
                exact hcurrent
            | some other =>
                rw [hhash] at hcurrent hnew
                obtain rfl | hcurrent := List.mem_insert_iff.mp hcurrent
                · exact absurd rfl hnew
                · exact hcurrent
          obtain ⟨q, hq, hrest⟩ := h hash hold
          exact ⟨q, List.mem_append_left _ hq, hrest⟩
  | rotate =>
      obtain rfl := Option.some.inj hstep
      intro hash hmem
      obtain hmem | hmem := hmem
      · cases hmem
      · exact h hash (.inl hmem)
  | other s =>
      simp only [step] at hstep
      split at hstep
      · rename_i hsame
        obtain rfl := Option.some.inj hstep
        intro hash hmem
        rw [hsame.1, hsame.2] at hmem
        exact h hash hmem
      · cases hstep

/-- Under the invariant an announce from the cache is valid when its flag is that of
the announce that was validated. -/
theorem honest_of_sameFlag {n : Node} {e : NodeEvent} (h : CacheInv c n) (hflag : SameFlag c n e) :
    Honest c n e := by
  cases e with
  | inbound raw i r =>
      intro p hread htype _ hcached
      obtain ⟨hash, hhash⟩ : ∃ hash, p.packetHash = some hash := by
        cases hnone : p.packetHash with
        | none => simp [alreadyValidated, hnone] at hcached
        | some hash => exact ⟨hash, rfl⟩
      have hmem : hash ∈ n.transport.validatedAnnounceHashes ∨
          hash ∈ n.transport.validatedAnnounceHashesPrev := by
        simpa [alreadyValidated, hhash] using hcached
      obtain ⟨q, hq, hqhash, hvalid, raw', i', hread'⟩ := h hash hmem
      obtain ⟨hpart, hcontext⟩ := hflag p hread htype q hq (hqhash.trans hhash.symm)
      obtain ⟨hdest, hdata⟩ := fields_of_hashable hread hread' hpart
      have hvalid' : validAnnounce c p = true := by
        rw [validAnnounce, ← hdest, ← hdata, ← hcontext]
        exact hvalid
      exact ⟨hvalid', ownerSigned_of_valid hvalid'⟩
  | rotate => trivial
  | other s => trivial

/-- In every run in which no announce comes with the hash of a validated one and another
context flag, the cache agrees with validation. -/
theorem cache_agrees {c : Crypto} {n : Node}
    (hcurrent : n.transport.validatedAnnounceHashes = [])
    (hprev : n.transport.validatedAnnounceHashesPrev = []) {es : List NodeEvent}
    (hflag : Meets (step c) (SameFlag c) n es) : Meets (step c) (Honest c) n es := by
  have hinv : CacheInv c n := by
    intro hash hmem
    rw [hcurrent, hprev] at hmem
    simp at hmem
  exact meets_of_invariant (fun _ _ _ h hstep => cacheInv_step h hstep)
    (fun _ _ h hok => honest_of_sameFlag h hok) hinv hflag

/-- What a call validates is the packet of its frame. -/
theorem readFrame_of_mem_validatedBy {s : TransportState} {r : Reading} {raw : Bytes}
    {i : Option String} {q : Wire.Packet} (h : q ∈ validatedBy c s r raw i) :
    readFrame c raw i = some q := by
  unfold validatedBy at h
  split at h
  · rename_i p _ hread _
    split at h
    · rw [hread, List.mem_singleton.mp h]
    · cases h
  · cases h

section Samples

set_option maxRecDepth 4096

/-- The announce of the destination of sixteen zeros, by the key of 64 zeros, with this
flag byte. -/
def signedAnnounce (flags : UInt8) : Bytes :=
  [flags, 0x00] ++ List.replicate 16 0 ++ [0x00] ++ List.replicate 84 0 ++ List.replicate 64 1

/-- The one message that was signed. -/
def announceCrypto : Crypto := Link.sampleCrypto [List.replicate 100 0]

/-- The packet of that frame. -/
def signedPacket (flags : UInt8) : Wire.Packet :=
  let p := Wire.Packet.holding (signedAnnounce flags) none
  (p.unpack announceCrypto).getD p

/-- A node that has just started. -/
def start : Node := { transport := .start, validated := [] }

/-- An announce that comes twice is taken from the cache, and is valid. -/
theorem cache_agrees_repeated :
    Meets (step announceCrypto) (Honest announceCrypto) start
      [.inbound (signedAnnounce 0x01) none .zero,
        .inbound (signedAnnounce 0x01) none .zero] := by
  refine cache_agrees rfl rfl ?_
  intro n₁ h₁
  obtain rfl := Option.some.inj h₁
  refine ⟨fun p _ _ q hq => absurd hq List.not_mem_nil, fun n₂ _ => ⟨?_, trivial⟩⟩
  intro p hread _ q hq _
  have hread' := readFrame_of_mem_validatedBy hq
  obtain rfl := Option.some.inj (hread.symm.trans hread')
  exact ⟨rfl, rfl⟩

/-- The announce comes again with the other context flag: it is taken from the cache,
though it is not valid. -/
theorem cache_agrees_false :
    ¬ ∀ (c : Crypto) (n : Node) (es : List NodeEvent),
      n.transport.validatedAnnounceHashes = [] → n.transport.validatedAnnounceHashesPrev = [] →
      Meets (step c) (Honest c) n es := by
  intro hall
  have hmeets := hall announceCrypto start [.inbound (signedAnnounce 0x01) none .zero,
    .inbound (signedAnnounce 0x21) none .zero] rfl rfl
  obtain ⟨-, hmeets⟩ := hmeets _ rfl
  obtain ⟨hhonest, -⟩ := hmeets _ rfl
  have hread : readFrame announceCrypto (signedAnnounce 0x21) none = some (signedPacket 0x21) :=
    rfl
  obtain ⟨hvalid, -⟩ := hhonest _ hread (by decide) (by decide) (by decide +kernel)
  have hinvalid : validAnnounce announceCrypto (signedPacket 0x21) = false := by
    decide +kernel
  rw [hinvalid] at hvalid
  cases hvalid

end Samples

end Node

end Reticulum.Transport
