import Reticulum.Resource.Transfer

/-!
# The parts of a transfer arrive intact

The sender answers a request by looking through all its packets for the
requested hashes, and the receiver takes a part for the slot whose hash it
has. Map hashes are kept apart only within `collisionGuardSize` parts, so two
parts further apart may share one; this is the only way a part can get into
another part's slot.
-/

namespace Reticulum.Resource

open Runs

variable (fullHash : Bytes → Digest)

/-! ## The sender's map -/

/-- The parts, the hashmap and the packets of a sender describe the same
parts. -/
structure Mapped (r : Resource) : Prop where
  parts : r.parts = r.packets.map fun packet => some packet.data
  hashmap : r.hashmap = r.packets.map PartPacket.mapHash
  named : ∀ packet ∈ r.packets, packet.mapHash = r.getMapHash fullHash packet.data

theorem mapPass_spec {salt : Bytes} {guardList : List MapHash} {parts : List Bytes}
    {packets : List PartPacket} (h : mapPass fullHash salt guardList parts = some packets) :
    packets.map PartPacket.data = parts ∧
      (∀ packet ∈ packets, packet.mapHash = mapHashOf fullHash salt packet.data) ∧
      ∀ packet ∈ packets, packet.sent = false := by
  induction parts generalizing guardList packets with
  | nil =>
      obtain rfl : [] = packets := by simpa [mapPass] using h
      simp
  | cons part parts ih =>
      simp only [mapPass] at h
      split at h
      · cases h
      · obtain ⟨rest, hrest, rfl⟩ := Option.map_eq_some_iff.mp h
        obtain ⟨hdata, hnamed, hunsent⟩ := ih hrest
        exact ⟨by simp [hdata], List.forall_mem_cons.mpr ⟨rfl, hnamed⟩,
          List.forall_mem_cons.mpr ⟨rfl, hunsent⟩⟩

/-- The loop ends with a pass that succeeds. -/
theorem mapPass_of_mapParts {r r' : Resource} {data hashedData : Bytes} {salts : List Bytes}
    (h : r.mapParts fullHash data hashedData salts = some r') : ∃ salt packets,
      mapPass fullHash salt [] ((List.range r.totalParts).map (partData r.sdu data)) =
          some packets ∧
        r' = r.withMap fullHash salt hashedData packets := by
  induction salts with
  | nil => cases h
  | cons salt salts ih =>
      simp only [mapParts] at h
      split at h
      · exact ih h
      · exact ⟨salt, _, ‹_›, (Option.some.inj h).symm⟩

/-- What `map_parts` has made when it returns. -/
theorem mapParts_spec {r r' : Resource} {data hashedData : Bytes} {salts : List Bytes}
    (h : r.mapParts fullHash data hashedData salts = some r') :
    Mapped fullHash r' ∧ r'.totalParts = r.totalParts ∧ r'.parts.length = r.totalParts ∧
      r'.status = r.status := by
  obtain ⟨salt, packets, hpass, rfl⟩ := mapPass_of_mapParts fullHash h
  obtain ⟨hdata, hnamed, -⟩ := mapPass_spec fullHash hpass
  have hlength : packets.length = r.totalParts := by
    simpa using congrArg List.length hdata
  exact ⟨⟨rfl, rfl, hnamed⟩, rfl, by simpa [withMap] using hlength, rfl⟩

theorem outgoing_spec {callback compressed : Bool} {sdu : Nat} {stream hashedData : Bytes}
    {salts : List Bytes} {sender : Resource}
    (h : outgoing fullHash callback sdu stream hashedData compressed salts = some sender) :
    Mapped fullHash sender ∧ sender.parts.length = sender.totalParts ∧
      sender.hashmapHeight = (sender.totalParts + hashmapMaxLen - 1) / hashmapMaxLen ∧
      sender.status = .none := by
  obtain ⟨r, hr, rfl⟩ := Option.map_eq_some_iff.mp h
  obtain ⟨hmapped, htotal, hlength, hstatus⟩ := mapParts_spec fullHash hr
  exact ⟨⟨hmapped.parts, hmapped.hashmap, hmapped.named⟩, hlength.trans htotal.symm, rfl,
    hstatus⟩

/-! ## Writing hashes -/

/-- The entries of the hashmap after hashes were written into it. -/
theorem writeHashes_get (hashes : List MapHash) (start : Nat) (hashmap : List MapHash)
    (height i : Nat) :
    (writeHashes hashes start (hashmap, height)).1[i]? =
      if start ≤ i ∧ i < start + hashes.length ∧ i < hashmap.length then hashes[i - start]?
      else hashmap[i]? := by
  induction hashes generalizing start hashmap height with
  | nil =>
      rw [if_neg (by simp only [List.length_nil]; omega)]
      rfl
  | cons h hashes ih =>
      rw [writeHashes]
      split
      · rename_i hnone
        rw [ih]
        have hlen : hashmap.length ≤ start := List.getElem?_eq_none_iff.mp hnone
        rw [if_neg (by omega), if_neg (by omega)]
      · rename_i old hold
        have hlt : start < hashmap.length := (List.getElem?_eq_some_iff.mp hold).1
        rw [ih]
        simp only [List.length_set, List.length_cons]
        by_cases hi : i = start
        · subst hi
          rw [if_neg (by omega), if_pos (by omega)]
          simp [hlt]
        · by_cases hin : start + 1 ≤ i ∧ i < start + 1 + hashes.length ∧ i < hashmap.length
          · rw [if_pos hin, if_pos (by omega), show i - start = i - (start + 1) + 1 by omega,
              List.getElem?_cons_succ]
          · rw [if_neg hin, if_neg (by omega), List.getElem?_set_ne (Ne.symm hi)]

/-- A segment holds the entries from its start on. -/
theorem hashmapSegment_get (hashmap : List MapHash) (segment total k : Nat) {h : MapHash}
    (hget : (hashmapSegment hashmap segment total)[k]? = some h) :
    hashmap[segment * hashmapMaxLen + k]? = some h := by
  rw [hashmapSegment, List.getElem?_drop, List.getElem?_take] at hget
  split at hget
  · exact hget
  · cases hget

/-- Writing a segment of the sender's hashmap writes the sender's entries. -/
theorem writeHashes_segment {mine theirs : List MapHash} {segment total height i : Nat}
    {h : MapHash}
    (hget : (writeHashes (hashmapSegment theirs segment total) (segment * hashmapMaxLen)
      (mine, height)).1[i]? = some h) :
    mine[i]? = some h ∨ theirs[i]? = some h := by
  rw [writeHashes_get] at hget
  split at hget
  · rename_i hin
    have := hashmapSegment_get theirs segment total _ hget
    rw [Nat.add_sub_cancel' hin.1] at this
    exact .inr this
  · exact .inl hget

/-! ## The invariant -/

/-- Parts that share a known hash are equal. -/
def NoTwins (sender : Resource) : Prop :=
  ∀ p ∈ sender.packets, ∀ q ∈ sender.packets,
    p.mapHash = q.mapHash → p.mapHash ≠ zeroHash → p.data = q.data

/-- Every slot of the receiver is empty or holds the sender's part, and a part
on its way has the hash of no other slot. -/
def Intact (t : Transfer) : Prop :=
  (∀ (i : Nat) (part : Bytes), t.receiver.parts[i]? = some (some part) →
    t.sender.parts[i]? = some (some part)) ∧
  ∀ part ∈ t.parts, ∀ i : Nat,
    t.receiver.hashmap[i]? = some (t.receiver.getMapHash fullHash part) →
      t.sender.parts[i]? = some (some part)

/-- What holds along a transfer of the sender's resource `S`. -/
structure TransferInv (S : Resource) (t : Transfer) : Prop where
  sender : SameNames S t.sender
  salt : t.receiver.randomHash = S.randomHash
  hashmap : ∀ (i : Nat) (h : MapHash), t.receiver.hashmap[i]? = some h →
    h = zeroHash ∨ S.hashmap[i]? = some h
  reqs : ∀ data ∈ t.reqs, ∀ h ∈ requestedHashes data, h ≠ zeroHash
  parts : ∀ part ∈ t.parts, ∃ p ∈ S.packets, p.data = part ∧ p.mapHash ≠ zeroHash
  hmus : ∀ segment hashmap, (segment, hashmap) ∈ t.hmus →
    Bytes.blocks4 hashmap = hashmapSegment S.hashmap segment S.parts.length
  stored : ∀ (i : Nat) (part : Bytes), t.receiver.parts[i]? = some (some part) →
    S.parts[i]? = some (some part)

variable {fullHash} {S : Resource} {t : Transfer}

/-- Without twins, the slot with the hash of a part is that part's slot. -/
theorem Mapped.slot_of_hash (hS : Mapped fullHash S) (htwins : NoTwins S) {p : PartPacket}
    (hp : p ∈ S.packets) (hzero : p.mapHash ≠ zeroHash) {i : Nat}
    (h : S.hashmap[i]? = some p.mapHash) : S.parts[i]? = some (some p.data) := by
  rw [hS.hashmap, List.getElem?_map] at h
  obtain ⟨q, hq, hhash⟩ := Option.map_eq_some_iff.mp h
  have hdata := htwins p hp q (List.mem_of_getElem? hq) hhash.symm hzero
  rw [hS.parts, List.getElem?_map, hq, hdata]
  rfl

/-- A part on its way fits only its own slot. -/
theorem TransferInv.fits (h : TransferInv S t) (hS : Mapped fullHash S) (htwins : NoTwins S)
    {part : Bytes} (hpart : part ∈ t.parts) {i : Nat}
    (hget : t.receiver.hashmap[i]? = some (t.receiver.getMapHash fullHash part)) :
    S.parts[i]? = some (some part) := by
  obtain ⟨p, hp, rfl, hzero⟩ := h.parts part hpart
  have hhash : t.receiver.getMapHash fullHash p.data = p.mapHash := by
    rw [getMapHash, h.salt]
    exact (hS.named p hp).symm
  rw [hhash] at hget
  rcases h.hashmap i _ hget with hz | hget
  · exact absurd hz hzero
  · exact hS.slot_of_hash htwins hp hzero hget

theorem TransferInv.intact (h : TransferInv S t) (hS : Mapped fullHash S) (htwins : NoTwins S) :
    Intact fullHash t := by
  constructor
  · intro i part hpart
    rw [h.sender.parts]
    exact h.stored i part hpart
  · intro part hpart i hget
    rw [h.sender.parts]
    exact h.fits hS htwins hpart hget

/-- Packets that keep the invariant when they are sent. -/
def Harmless (S : Resource) : Effect → Prop
  | .req data => ∀ h ∈ requestedHashes data, h ≠ zeroHash
  | .part data => ∃ p ∈ S.packets, p.data = data ∧ p.mapHash ≠ zeroHash
  | .hmu segment hashmap =>
      Bytes.blocks4 hashmap = hashmapSegment S.hashmap segment S.parts.length
  | _ => True

theorem harmless_of_not_packet {e : Effect} (h : e.isPacket = false) : Harmless S e := by
  cases e <;> first | exact True.intro | cases h

theorem TransferInv.emit (h : TransferInv S t) {effects : List Effect}
    (heffects : ∀ e ∈ effects, Harmless S e) : TransferInv S (t.emit effects) := by
  obtain ⟨hsender, hreceiver, hreqs, hparts, hhmus⟩ := emit_spec t effects
  refine ⟨hsender ▸ h.sender, hreceiver ▸ h.salt, hreceiver ▸ h.hashmap, ?_, ?_, ?_,
    hreceiver ▸ h.stored⟩
  · intro data hdata
    rcases (hreqs data).mp hdata with hdata | hdata
    · exact h.reqs data hdata
    · exact heffects _ hdata
  · intro part hpart
    rcases (hparts part).mp hpart with hpart | hpart
    · exact h.parts part hpart
    · exact heffects _ hpart
  · intro segment hashmap hhmu
    rcases (hhmus segment hashmap).mp hhmu with hhmu | hhmu
    · exact h.hmus segment hashmap hhmu
    · exact heffects _ hhmu

/-- A receiver that keeps its hashmap and parts keeps the invariant. -/
theorem TransferInv.receiver (h : TransferInv S t) {r : Resource}
    (hr : SameMap t.receiver r) : TransferInv S { t with receiver := r } where
  sender := h.sender
  salt := hr.randomHash.trans h.salt
  hashmap := hr.hashmap ▸ h.hashmap
  reqs := h.reqs
  parts := h.parts
  hmus := h.hmus
  stored := hr.parts ▸ h.stored

/-- The sender's answers are harmless. -/
theorem TransferInv.answers (h : TransferInv S t) {data : Bytes} (hdata : data ∈ t.reqs)
    {e : Effect} (he : Answers t.sender data e) : Harmless S e := by
  rcases he with ⟨packet, hpacket, rfl, hasked⟩ | ⟨-, lastIndex, -, -, rfl⟩
  · have hname : (packet.data, packet.mapHash) ∈ S.names := by
      rw [← h.sender.names]
      exact List.mem_map_of_mem hpacket
    obtain ⟨p, hp, hpair⟩ := List.mem_map.mp hname
    obtain ⟨hpdata, hphash⟩ := Prod.mk.inj hpair
    exact ⟨p, hp, hpdata, hphash ▸ h.reqs data hdata _ hasked⟩
  · rw [Harmless, h.sender.hashmap, h.sender.parts, Bytes.blocks4_ofBlocks]

/-- Requests that the receiver sends are harmless. -/
theorem harmless_req {r : Resource} {data : Bytes}
    (h : r.prepareRequestNextData.2 = some data) : Harmless S (.req data) :=
  prepareRequestNextData_hashes h

/-- Every event keeps the invariant. -/
theorem transferInv_step (hS : Mapped fullHash S) (htwins : NoTwins S) {t t' : Transfer}
    {e : Event} (h : TransferInv S t) (hstep : step fullHash t e = some t') :
    TransferInv S t' := by
  cases e with
  | request data env =>
      simp only [step] at hstep
      split at hstep
      · rename_i hdata
        obtain ⟨⟨sender, effects⟩, hrequest, rfl⟩ := Option.map_eq_some_iff.mp hstep
        obtain ⟨hsame, hanswers⟩ := request_spec hrequest
        have h' : TransferInv S { t with sender := sender } :=
          { sender := h.sender.trans hsame, salt := h.salt, hashmap := h.hashmap
            reqs := h.reqs, parts := h.parts, hmus := h.hmus, stored := h.stored }
        apply h'.emit
        intro e he
        by_cases hpacket : e.isPacket = true
        · exact h.answers hdata (hanswers e he hpacket)
        · exact harmless_of_not_packet (Bool.not_eq_true _ ▸ hpacket)
      · cases hstep
  | part data env =>
      simp only [step] at hstep
      split at hstep
      · rename_i hdata
        obtain rfl := Option.some.inj hstep
        obtain ⟨hstored, hquiet⟩ := receivePart_spec fullHash t.receiver data env
        have h' : TransferInv S
            { t with receiver := (t.receiver.receivePart fullHash data env).1 } :=
          { sender := h.sender, salt := hstored.randomHash.trans h.salt
            hashmap := hstored.hashmap ▸ h.hashmap
            reqs := h.reqs, parts := h.parts, hmus := h.hmus
            stored := by
              intro i part hpart
              rcases hstored.slot i part hpart with hold | ⟨rfl, hget⟩
              · exact h.stored i part hold
              · exact h.fits hS htwins hdata hget }
        exact h'.emit fun e he => harmless_of_not_packet (hquiet e he)
      · cases hstep
  | hmu segment hashmap env =>
      simp only [step] at hstep
      split at hstep
      · rename_i hhmu
        obtain rfl := Option.some.inj hstep
        obtain ⟨hparts, hsalt, hmap, hquiet⟩ :=
          hashmapUpdatePacket_spec t.receiver segment hashmap env
        have h' : TransferInv S { t with
            receiver := (t.receiver.hashmapUpdatePacket (some (segment, hashmap)) env).1 } :=
          { sender := h.sender, salt := hsalt.trans h.salt
            hashmap := by
              intro i x hx
              rcases hmap with hmap | hmap
              · rw [(Prod.mk.inj hmap).1] at hx
                exact h.hashmap i x hx
              · have hwrite := congrArg Prod.fst hmap
                dsimp only at hwrite hx
                rw [hwrite, h.hmus segment hashmap hhmu] at hx
                rcases writeHashes_segment hx with hx | hx
                · exact h.hashmap i x hx
                · exact .inr hx
            reqs := h.reqs, parts := h.parts, hmus := h.hmus
            stored := hparts ▸ h.stored }
        exact h'.emit fun e he => harmless_of_not_packet (hquiet e he)
      · cases hstep
  | requestNext env =>
      simp only [step] at hstep
      obtain rfl := Option.some.inj hstep
      obtain ⟨hsame, hreq⟩ := requestNext_spec t.receiver env
      apply (h.receiver hsame).emit
      intro e he
      by_cases hpacket : e.isPacket = true
      · obtain ⟨data, rfl, hdata⟩ := hreq e he hpacket
        exact harmless_req hdata
      · exact harmless_of_not_packet (Bool.not_eq_true _ ▸ hpacket)
  | watchdog env =>
      simp only [step] at hstep
      obtain rfl := Option.some.inj hstep
      obtain ⟨hsame, hreq⟩ := watchdog_spec t.receiver env
      apply (h.receiver hsame).emit
      intro e he
      by_cases hpacket : e.isPacket = true
      · obtain ⟨r, data, -, rfl, hdata⟩ := hreq e he hpacket
        exact harmless_req hdata
      · exact harmless_of_not_packet (Bool.not_eq_true _ ▸ hpacket)

/-- The receiver that accepts the sender's advertisement has no part yet, and
knows only entries of the sender's hashmap. -/
theorem transferInv_start {window : Option Nat} {callback : Bool} {receiver : Resource}
    (hr : accept S.advertisement window callback = some receiver) :
    TransferInv S (Transfer.start S receiver) := by
  unfold accept at hr
  split at hr
  · cases hr
  · obtain rfl := Option.some.inj hr
    refine ⟨(SameMap.refl S).sameNames, rfl, ?_, ?_, ?_, ?_, ?_⟩
    · intro i h hget
      have hmap : (writeHashes (hashmapSegment S.hashmap 0 S.totalParts) (0 * hashmapMaxLen)
          (List.replicate S.totalParts zeroHash, 0)).1[i]? = some h := by
        simpa [Transfer.start, Resource.advertisement] using hget
      rcases writeHashes_segment hmap with hzero | hsender
      · left
        exact List.eq_of_mem_replicate (List.mem_of_getElem? hzero)
      · exact .inr hsender
    · simp [Transfer.start]
    · simp [Transfer.start]
    · simp [Transfer.start]
    · intro i part hpart
      have hmem := List.mem_of_getElem? hpart
      have := List.eq_of_mem_replicate hmem
      cases this

variable (fullHash) in
/-- When no two different parts share a known map hash, every state of every
run keeps the receiver's parts equal to the sender's. -/
theorem intact_of_noTwins {callback compressed : Bool} {sdu : Nat} {stream hashedData : Bytes}
    {salts : List Bytes} {window : Option Nat} {callback' : Bool} {sender receiver : Resource}
    (hs : outgoing fullHash callback sdu stream hashedData compressed salts = some sender)
    (hr : accept sender.advertisement window callback' = some receiver)
    (htwins : NoTwins sender) (es : List Event) :
    Always (step fullHash) (Intact fullHash) (Transfer.start sender receiver) es := by
  obtain ⟨hS, -⟩ := outgoing_spec fullHash hs
  intro done t _ hrun
  have h : TransferInv sender t :=
    invariant_of_step (fun t e t' h hstep => transferInv_step hS htwins h hstep)
      (transferInv_start hr) hrun
  exact h.intact hS htwins

/-! ## Two parts with one hash -/

/-- A hash that only sees the first byte, modulo 225. -/
def byteHash (b : Bytes) : Digest :=
  ⟨UInt8.ofNat ((b.headD 0).toNat % 225) :: 1 :: List.replicate 30 0, rfl⟩

/-- A link that works, on which everything arrives in no time. -/
def calm : Readings :=
  { linkActive := true, linkDown := false, timedOut := false, sendOk := true
    carried := fun _ => true, linkRttKnown := true, rttPositive := false
    respRateFast := false, sinceRequest := false, dataRateFast := false
    dataRateVerySlow := false }

instance (sender : Resource) : Decidable (NoTwins sender) :=
  inferInstanceAs (Decidable (∀ p ∈ sender.packets, ∀ q ∈ sender.packets,
    p.mapHash = q.mapHash → p.mapHash ≠ zeroHash → p.data = q.data))

/-- An advertisement of a transfer that is not too large is accepted. -/
theorem accept_some {adv : Advertisement} (h : adv.t ≤ maxEfficientSize * 3)
    (window : Option Nat) (callback : Bool) (d : Resource) :
    accept adv window callback = some ((accept adv window callback).getD d) := by
  rw [accept, if_neg (Nat.not_lt.mpr h)]
  rfl

def twoBytes : Resource :=
  (outgoing byteHash true 1 [7, 8] [] false [[0, 0, 0, 0]]).getD (blank true)

def twoBytesReceiver : Resource := (accept twoBytes.advertisement none true).getD (blank true)

/-- The parts are asked for, and the second arrives first. -/
def twoBytesRun : List Event :=
  [.requestNext calm, .request (twoBytesReceiver.prepareRequestNextData.2.getD []) calm,
    .part [8] calm, .part [7] calm]

theorem intact_two_parts :
    Always (step byteHash) (Intact byteHash) (Transfer.start twoBytes twoBytesReceiver)
      twoBytesRun ∧
    (exec (step byteHash) (Transfer.start twoBytes twoBytesReceiver) twoBytesRun).map
      (·.receiver.parts) = some [some [7], some [8]] := by
  have hvalues : NoTwins twoBytes ∧ twoBytes.advertisement.t ≤ maxEfficientSize * 3 ∧
      (exec (step byteHash) (Transfer.start twoBytes twoBytesReceiver) twoBytesRun).map
        (·.receiver.parts) = some [some [7], some [8]] := by
    decide +kernel
  obtain ⟨htwins, hsize, hparts⟩ := hvalues
  have hs : outgoing byteHash true 1 [7, 8] [] false [[0, 0, 0, 0]] = some twoBytes := rfl
  have hr := accept_some hsize none true (blank true)
  exact ⟨intact_of_noTwins byteHash hs hr htwins _, hparts⟩

/-- A pass succeeds when no hash repeats within `collisionGuardSize` parts. -/
theorem mapPass_of_apart {salt : Bytes} (parts : List Bytes)
    (guardList : List MapHash) (hguard : guardList.length ≤ collisionGuardSize)
    (h : ∀ i j : Nat, i < j → j - i ≤ collisionGuardSize → guardList.length ≤ j →
      j < guardList.length + parts.length →
      (guardList ++ parts.map (mapHashOf fullHash salt))[i]? ≠
        (guardList ++ parts.map (mapHashOf fullHash salt))[j]?) :
    mapPass fullHash salt guardList parts =
      some (parts.map fun part => ⟨part, mapHashOf fullHash salt part, false⟩) := by
  induction parts generalizing guardList with
  | nil => rfl
  | cons part parts ih =>
      have hnew : mapHashOf fullHash salt part ∉ guardList := by
        intro hmem
        obtain ⟨i, hi, hget⟩ := List.mem_iff_getElem.mp hmem
        apply h i guardList.length hi (by omega) (Nat.le_refl _) (by simp)
        rw [List.getElem?_append_left hi, List.getElem?_append_right (Nat.le_refl _)]
        simp [List.getElem?_eq_getElem hi, hget]
      rw [mapPass, if_neg hnew]
      dsimp only
      split
      · rename_i hlong
        obtain ⟨x, xs, rfl⟩ : ∃ x xs, guardList = x :: xs := by
          cases guardList with
          | nil => simp [collisionGuardSize, windowMaxFast, hashmapMaxLen] at hlong
          | cons x xs => exact ⟨x, xs, rfl⟩
        rw [List.cons_append, List.tail_cons, ih (xs ++ [_])]
        · rfl
        · simpa using hguard
        · intro i j hij hnear hj hlt
          have := h (i + 1) (j + 1) (by omega) (by omega) (by simp at hj ⊢; omega)
            (by simp at hlt ⊢; omega)
          simpa using this
      · rename_i hshort
        rw [ih (guardList ++ [_])]
        · rfl
        · omega
        · intro i j hij hnear hj hlt
          have := h i j hij hnear (by simp at hj; omega) (by simp at hlt ⊢; omega)
          simpa using this

/-- The packets of the parts `0`, `1`, up to `225` under `byteHash`. -/
def bytePackets : List PartPacket :=
  (List.range 226).map fun i =>
    { data := [UInt8.ofNat i], mapHash := ⟨[UInt8.ofNat (i % 225), 1, 0, 0], rfl⟩, sent := false }

/-- The sender of 226 parts of one byte. -/
def byteSender : Resource :=
  ((unmapped true 1 ((List.range 226).map UInt8.ofNat) false).withMap byteHash
    [0, 0, 0, 0] [] bytePackets).countSegments

/-- The receiver that accepts its advertisement. -/
def byteReceiver : Resource :=
  (accept byteSender.advertisement none true).getD (blank true)

theorem mapHashOf_byteHash {i : Nat} (h : i < 226) :
    mapHashOf byteHash [0, 0, 0, 0] [UInt8.ofNat i] =
      ⟨[UInt8.ofNat (i % 225), 1, 0, 0], rfl⟩ := by
  have hi : (UInt8.ofNat i).toNat = i := by
    rw [UInt8.toNat_ofNat']
    exact Nat.mod_eq_of_lt (by omega)
  apply Subtype.ext
  simp only [mapHashOf, byteHash, Bytes.Block.take, List.cons_append, List.headD_cons, hi]
  rfl

theorem partData_bytes {i : Nat} (h : i < 226) :
    partData 1 ((List.range 226).map UInt8.ofNat) i = [UInt8.ofNat i] := by
  apply List.ext_getElem?
  intro k
  rw [partData, List.getElem?_drop, List.getElem?_take, List.getElem?_map]
  cases k with
  | zero => simp [h]
  | succ k =>
      rw [if_neg (by omega)]
      simp

theorem mapPass_bytes :
    mapPass byteHash [0, 0, 0, 0] [] ((List.range 226).map fun i => [UInt8.ofNat i]) =
      some bytePackets := by
  rw [mapPass_of_apart _ _ (Nat.zero_le _)]
  · rw [bytePackets, List.map_map, Option.some.injEq]
    apply List.map_congr_left
    intro i hi
    simp only [Function.comp_apply, mapHashOf_byteHash (List.mem_range.mp hi)]
  · intro i j hij hnear _ hlt
    simp only [List.length_nil, List.length_map, List.length_range, Nat.zero_add] at hlt
    have hi : i < 226 := by omega
    simp only [List.nil_append, List.getElem?_map, List.getElem?_range hi,
      List.getElem?_range hlt, Option.map_some, mapHashOf_byteHash hi, mapHashOf_byteHash hlt]
    intro heq
    have hbyte : UInt8.ofNat (i % 225) = UInt8.ofNat (j % 225) := by simpa using heq
    have hnat := congrArg UInt8.toNat hbyte
    simp only [UInt8.toNat_ofNat', collisionGuardSize, windowMaxFast, hashmapMaxLen] at *
    omega

/-- `outgoing` with a first pass that succeeds. -/
theorem outgoing_of_pass {callback compressed : Bool} {sdu : Nat} {stream hashedData salt : Bytes}
    {salts : List Bytes} {packets : List PartPacket} {parts : List Bytes}
    (hparts : (List.range ((stream.length + sdu - 1) / sdu)).map (partData sdu stream) = parts)
    (hpass : mapPass fullHash salt [] parts = some packets) :
    outgoing fullHash callback sdu stream hashedData compressed (salt :: salts) =
      some ((unmapped callback sdu stream compressed).withMap fullHash salt hashedData
        packets).countSegments := by
  subst hparts
  rw [outgoing, mapParts]
  simp only [unmapped] at hpass ⊢
  rw [hpass]
  rfl

theorem outgoing_bytes :
    outgoing byteHash true 1 ((List.range 226).map UInt8.ofNat) [] false [[0, 0, 0, 0]] =
      some byteSender := by
  apply outgoing_of_pass _ mapPass_bytes
  rw [List.length_map, List.length_range]
  exact List.map_congr_left fun i hi => partData_bytes (List.mem_range.mp hi)

/-- A request for parts whose hashes are all known. -/
theorem requestNext_of_scan {r : Resource} {env : Readings} {hashes : List MapHash}
    (hidle : ¬ (r.status = .failed ∨ r.waitingForHmu = true)) (hsend : env.sendOk = true)
    (hscan : r.scanWindow r.window r.searchStart 0 = (hashes, false)) :
    r.requestNext env = ({ r with outstandingParts := hashes.length }.recordRequestSent,
      [.req (hashmapIsNotExhausted :: (r.hash.1 ++ Bytes.ofBlocks hashes))]) := by
  simp only [requestNext, prepareRequestNextData, if_neg hidle, hscan, hsend, if_true,
    Bool.false_eq_true, if_false]

/-- The hashes of the first four parts. -/
def byteHashes : List MapHash :=
  [⟨[0, 1, 0, 0], rfl⟩, ⟨[1, 1, 0, 0], rfl⟩, ⟨[2, 1, 0, 0], rfl⟩, ⟨[3, 1, 0, 0], rfl⟩]

/-- The request for the first four parts. -/
def byteRequest : Bytes :=
  hashmapIsNotExhausted :: (byteReceiver.hash.1 ++ Bytes.ofBlocks byteHashes)

/-- The receiver after that request. -/
def byteReceiverAsking : Resource :=
  { byteReceiver with outstandingParts := byteHashes.length }.recordRequestSent

theorem requestNext_bytes :
    byteReceiver.requestNext calm = (byteReceiverAsking, [.req byteRequest]) :=
  requestNext_of_scan (by decide +kernel) rfl (by decide +kernel)

/-- With 226 parts of one byte, the first request also makes the sender send
the last part, and the receiver takes it for the first. -/
theorem intact_false_at_twins :
    outgoing byteHash true 1 ((List.range 226).map UInt8.ofNat) [] false [[0, 0, 0, 0]] =
      some byteSender ∧
    accept byteSender.advertisement none true = some byteReceiver ∧
    ¬ Always (step byteHash) (Intact byteHash) (Transfer.start byteSender byteReceiver)
      [.requestNext calm, .request byteRequest calm, .part [225] calm] := by
  refine ⟨outgoing_bytes, accept_some (by decide +kernel) none true _, fun halways => ?_⟩
  have hsome : (byteSender.request byteRequest calm).isSome = true := by decide +kernel
  have hanswer : (byteSender.request byteRequest calm).all
      (fun answer => decide (.part [225] ∈ answer.2)) = true := by decide +kernel
  have hstored : (byteReceiverAsking.receivePart byteHash [225] calm).1.parts[0]? =
      some (some [225]) := by decide +kernel
  have hfirst : byteSender.parts[0]? = some (some [0]) := by decide +kernel
  obtain ⟨⟨sender, effects⟩, hrequest⟩ := Option.isSome_iff_exists.mp hsome
  rw [hrequest, Option.all_some, decide_eq_true_eq] at hanswer
  obtain ⟨hsender, hreceiver, -, hparts, -⟩ := emit_spec
    { sender := sender, receiver := byteReceiverAsking, reqs := [byteRequest]
      parts := [], hmus := [] } effects
  have hstep₁ : step byteHash (Transfer.start byteSender byteReceiver) (.requestNext calm) =
      some { sender := byteSender, receiver := byteReceiverAsking, reqs := [byteRequest]
             parts := [], hmus := [] } := by
    simp only [step, Transfer.start, requestNext_bytes]
    rfl
  have hstep₂ : step byteHash
      { sender := byteSender, receiver := byteReceiverAsking, reqs := [byteRequest]
        parts := [], hmus := [] } (.request byteRequest calm) =
      some (Transfer.emit { sender := sender, receiver := byteReceiverAsking
                            reqs := [byteRequest], parts := [], hmus := [] } effects) := by
    simp only [step, List.mem_singleton, if_true, hrequest, Option.map_some]
  generalize Transfer.emit { sender := sender, receiver := byteReceiverAsking
                             reqs := [byteRequest], parts := [], hmus := [] } effects = t₂
    at hsender hreceiver hparts hstep₂
  have hstep₃ : step byteHash t₂ (.part [225] calm) =
      some ({ t₂ with receiver := (t₂.receiver.receivePart byteHash [225] calm).1 }.emit
        (t₂.receiver.receivePart byteHash [225] calm).2.1) := by
    simp only [step, (hparts [225]).mpr (.inr hanswer), if_true]
  obtain ⟨hsender₃, hreceiver₃, -⟩ := emit_spec
    { t₂ with receiver := (t₂.receiver.receivePart byteHash [225] calm).1 }
    (t₂.receiver.receivePart byteHash [225] calm).2.1
  have hintact := halways _ _ (List.prefix_refl _)
    (exec_cons_eq_some.mpr ⟨_, hstep₁, exec_cons_eq_some.mpr ⟨_, hstep₂,
      exec_cons_eq_some.mpr ⟨_, hstep₃, rfl⟩⟩⟩)
  dsimp only at hsender hreceiver hsender₃ hreceiver₃
  rw [← hreceiver, ← hreceiver₃] at hstored
  have hslot := hintact.1 0 [225] hstored
  rw [hsender₃, hsender, (request_spec hrequest).1.parts, hfirst] at hslot
  exact absurd hslot (by decide)

end Reticulum.Resource
