import Mathlib.Data.List.Nodup
import Reticulum.Resource.Integrity

/-!
# Hashmap updates

The receiver learns the sender's hashmap in segments of `hashmapMaxLen`
entries. It counts the entries it knows; the sender counts segments and finds
the receiver's place by the last hash that the receiver knows. With distinct
entries that are not all zero, the two counts agree along every run.
-/

namespace Reticulum.Resource

open Runs

/-! ## Writing one segment -/

/-- Writing entries that are there already changes nothing. -/
theorem writeHashes_known {hashes hashmap : List MapHash} {start : Nat} (height : Nat)
    (hzero : zeroHash ∉ hashes) (hknown : ∀ k < hashes.length, hashmap[start + k]? = hashes[k]?) :
    writeHashes hashes start (hashmap, height) = (hashmap, height) := by
  induction hashes generalizing start with
  | nil => rfl
  | cons h hashes ih =>
      have hfirst : hashmap[start]? = some h := by simpa using hknown 0 (by simp)
      obtain ⟨hlt, hget⟩ := List.getElem?_eq_some_iff.mp hfirst
      have hne : h ≠ zeroHash := fun heq => hzero (by simp [heq])
      have hset : hashmap.set start h = hashmap := by
        rw [← hget]
        exact List.set_getElem_self hlt
      rw [writeHashes, hfirst]
      simp only [hset, if_neg hne]
      apply ih
      · exact fun hmem => hzero (List.mem_cons_of_mem h hmem)
      · intro k hk
        have := hknown (k + 1) (by simpa using hk)
        rwa [List.getElem?_cons_succ, ← Nat.add_assoc, Nat.add_right_comm] at this

/-- Writing entries after the known ones makes them known. -/
theorem writeHashes_fresh (hashes known : List MapHash) {missing : Nat} (height : Nat)
    (hroom : hashes.length ≤ missing) :
    writeHashes hashes known.length (known ++ List.replicate missing zeroHash, height) =
      (known ++ hashes ++ List.replicate (missing - hashes.length) zeroHash,
        height + hashes.length) := by
  induction hashes generalizing known missing height with
  | nil => simp [writeHashes]
  | cons h hashes ih =>
      obtain ⟨missing, rfl⟩ : ∃ m, missing = m + 1 :=
        ⟨missing - 1, by simp only [List.length_cons] at hroom; omega⟩
      have hget : (known ++ List.replicate (missing + 1) zeroHash)[known.length]? =
          some zeroHash := by simp [List.replicate_succ]
      have hset : (known ++ List.replicate (missing + 1) zeroHash).set known.length h =
          (known ++ [h]) ++ List.replicate missing zeroHash := by
        simp [List.replicate_succ]
      have hroom' : hashes.length ≤ missing := by simpa using hroom
      have hih := ih (known ++ [h]) (height + 1) hroom'
      rw [writeHashes, hget]
      simp only [hset, if_true]
      rw [List.length_append, List.length_singleton] at hih
      rw [hih]
      simp only [List.append_assoc, List.singleton_append, List.length_cons,
        Nat.add_sub_add_right, Nat.add_assoc, Nat.add_comm 1]

/-! ## Finding the receiver's place -/

theorem lastPosition_nodup {mapHashes : List MapHash} (hnodup : mapHashes.Nodup) {i : Nat}
    {h : MapHash} (hget : mapHashes[i]? = some h) : lastPosition h mapHashes = some i := by
  obtain ⟨hi, hval⟩ := List.getElem?_eq_some_iff.mp hget
  cases hfind : mapHashes.reverse.findIdx? fun x => x = h with
  | none =>
      have hmem : h ∈ mapHashes.reverse := by
        rw [List.mem_reverse, ← hval]
        exact List.getElem_mem hi
      simpa using List.findIdx?_eq_none_iff.mp hfind h hmem
  | some k =>
      obtain ⟨hk, hpred, -⟩ := List.findIdx?_eq_some_iff_getElem.mp hfind
      rw [List.length_reverse] at hk
      have heq : mapHashes[mapHashes.length - 1 - k] = mapHashes[i] := by
        rw [hval, ← List.getElem_reverse (by simpa using hk)]
        simpa using hpred
      have hindex := (List.Nodup.getElem_inj_iff hnodup).mp heq
      rw [lastPosition, hfind, Option.map_some, hindex]

theorem nextSegmentAfter_boundary {k : Nat} (hk : 0 < k) :
    nextSegmentAfter (k * hashmapMaxLen - 1) = k := by
  have hpos : 0 < k * hashmapMaxLen := Nat.mul_pos hk (by decide)
  rw [nextSegmentAfter, Nat.sub_add_cancel hpos, if_pos (Nat.mul_mod_left k hashmapMaxLen)]
  exact Nat.mul_div_cancel k (by decide)

/-! ## What the receiver knows -/

/-- A sender whose hashmap is that of its packets, cut into segments. -/
structure Segmented (S : Resource) : Prop where
  hashmap : S.hashmap = S.packets.map PartPacket.mapHash
  packets : S.packets.length = S.totalParts
  parts : S.parts.length = S.totalParts
  segments : S.hashmapHeight = (S.totalParts + hashmapMaxLen - 1) / hashmapMaxLen
  running : S.status ≠ .failed

theorem Segmented.length {S : Resource} (hS : Segmented S) : S.hashmap.length = S.totalParts := by
  rw [hS.hashmap, List.length_map, hS.packets]

variable (fullHash : Bytes → Digest) {data : Bytes}

/-- Every sender that `outgoing` makes is segmented. -/
theorem outgoing_segmented {callback compressed : Bool} {sdu : Nat} {stream hashedData : Bytes}
    {salts : List Bytes} {S : Resource}
    (h : outgoing fullHash callback sdu stream hashedData compressed salts = some S) :
    Segmented S := by
  obtain ⟨hmapped, hlength, hheight, hstatus⟩ := outgoing_spec fullHash h
  refine ⟨hmapped.hashmap, ?_, hlength, hheight, ?_⟩
  · rw [← hlength, hmapped.parts, List.length_map]
  · rw [hstatus]
    decide

/-- The receiver knows the sender's first entries, up to the end of a segment,
and no other. -/
structure Knows (S r : Resource) : Prop where
  le : r.hashmapHeight ≤ S.totalParts
  hashmap : r.hashmap = S.hashmap.take r.hashmapHeight ++
    List.replicate (S.totalParts - r.hashmapHeight) zeroHash
  boundary : r.hashmapHeight = S.totalParts ∨ hashmapMaxLen ∣ r.hashmapHeight
  started : 0 < S.totalParts → 0 < r.hashmapHeight
  parts : r.parts.length = S.totalParts

variable {S r r' : Resource}

theorem Knows.sameMap (h : Knows S r) (hr : SameMap r r') : Knows S r' := by
  refine ⟨?_, ?_, ?_, ?_, ?_⟩
  · rw [hr.hashmapHeight]
    exact h.le
  · rw [hr.hashmap, hr.hashmapHeight]
    exact h.hashmap
  · rw [hr.hashmapHeight]
    exact h.boundary
  · rw [hr.hashmapHeight]
    exact h.started
  · rw [hr.parts]
    exact h.parts

/-- The entries below the height are the sender's. -/
theorem Knows.get_lt (h : Knows S r) (hS : Segmented S) {i : Nat} (hi : i < r.hashmapHeight) :
    r.hashmap[i]? = S.hashmap[i]? := by
  have hlen : i < (S.hashmap.take r.hashmapHeight).length := by
    rw [List.length_take, hS.length, Nat.min_eq_left h.le]
    exact hi
  rw [h.hashmap, List.getElem?_append_left hlen, List.getElem?_take_of_lt hi]

/-- The segment that starts at the height, filled in after the known entries. -/
theorem take_append_segment {hashmap : List MapHash} {segment total : Nat}
    (h : segment * hashmapMaxLen < total) :
    hashmap.take (segment * hashmapMaxLen) ++ hashmapSegment hashmap segment total =
      hashmap.take (min ((segment + 1) * hashmapMaxLen) total) := by
  have hle : segment * hashmapMaxLen ≤ min ((segment + 1) * hashmapMaxLen) total := by
    rw [Nat.add_mul]
    omega
  rw [hashmapSegment]
  nth_rewrite 2 [← List.take_append_drop (segment * hashmapMaxLen)
    (hashmap.take (min ((segment + 1) * hashmapMaxLen) total))]
  rw [List.take_take, Nat.min_eq_left hle]

theorem length_hashmapSegment (hS : Segmented S) (segment : Nat) :
    (hashmapSegment S.hashmap segment S.totalParts).length =
      min ((segment + 1) * hashmapMaxLen) S.totalParts - segment * hashmapMaxLen := by
  rw [hashmapSegment, List.length_drop, List.length_take, hS.length]
  omega

/-- Filling in the segment that starts where the known entries end. -/
theorem knows_of_fresh (hS : Segmented S) {segment : Nat}
    (hlt : segment * hashmapMaxLen < S.totalParts) (hparts : r'.parts.length = S.totalParts)
    (hmap : (r'.hashmap, r'.hashmapHeight) =
      writeHashes (hashmapSegment S.hashmap segment S.totalParts) (segment * hashmapMaxLen)
        (S.hashmap.take (segment * hashmapMaxLen) ++
          List.replicate (S.totalParts - segment * hashmapMaxLen) zeroHash,
          segment * hashmapMaxLen)) :
    Knows S r' ∧ segment * hashmapMaxLen < r'.hashmapHeight := by
  have hlen := length_hashmapSegment hS segment
  have hknown : (S.hashmap.take (segment * hashmapMaxLen)).length = segment * hashmapMaxLen := by
    rw [List.length_take, hS.length, Nat.min_eq_left (Nat.le_of_lt hlt)]
  have hroom : (hashmapSegment S.hashmap segment S.totalParts).length ≤
      S.totalParts - segment * hashmapMaxLen := by
    rw [hlen]
    omega
  have hfresh := writeHashes_fresh (hashmapSegment S.hashmap segment S.totalParts)
    (S.hashmap.take (segment * hashmapMaxLen)) (segment * hashmapMaxLen) hroom
  rw [hknown] at hfresh
  rw [hfresh, hlen, take_append_segment hlt] at hmap
  obtain ⟨hhashmap, hheight⟩ := Prod.mk.inj hmap
  have hnext : segment * hashmapMaxLen <
      min ((segment + 1) * hashmapMaxLen) S.totalParts := by
    rw [Nat.add_mul]
    simp only [hashmapMaxLen] at *
    omega
  have hnew : r'.hashmapHeight = min ((segment + 1) * hashmapMaxLen) S.totalParts := by
    omega
  refine ⟨⟨?_, ?_, ?_, fun _ => by omega, hparts⟩, by omega⟩
  · rw [hnew]
    exact Nat.min_le_right _ _
  · rw [hhashmap, hnew]
    congr 2
    omega
  · rw [hnew]
    rcases Nat.le_total ((segment + 1) * hashmapMaxLen) S.totalParts with hle | hle
    · right
      rw [Nat.min_eq_left hle]
      exact Nat.dvd_mul_left _ _
    · left
      exact Nat.min_eq_right hle

/-- Filling in a segment that starts at or below the height. -/
theorem Knows.fill (h : Knows S r) (hS : Segmented S) (hzero : zeroHash ∉ S.hashmap)
    {segment : Nat} (hstart : segment * hashmapMaxLen ≤ r.hashmapHeight)
    (hlt : segment * hashmapMaxLen < S.totalParts) (hparts : r'.parts = r.parts)
    (hmap : (r'.hashmap, r'.hashmapHeight) =
      writeHashes (hashmapSegment S.hashmap segment S.totalParts) (segment * hashmapMaxLen)
        (r.hashmap, r.hashmapHeight)) :
    Knows S r' ∧ r.hashmapHeight ≤ r'.hashmapHeight := by
  have hlen := length_hashmapSegment hS segment
  rcases Nat.lt_or_eq_of_le hstart with hbelow | hat
  · have hend : min ((segment + 1) * hashmapMaxLen) S.totalParts ≤ r.hashmapHeight := by
      rcases h.boundary with hall | ⟨k, hk⟩
      · rw [hall]
        exact Nat.min_le_right _ _
      · have hsk : segment < k := by
          rw [hk, Nat.mul_comm] at hbelow
          exact Nat.lt_of_mul_lt_mul_left hbelow
        rw [hk, Nat.mul_comm hashmapMaxLen]
        exact (Nat.min_le_left _ _).trans (Nat.mul_le_mul_right _ hsk)
    have hsame : writeHashes (hashmapSegment S.hashmap segment S.totalParts)
        (segment * hashmapMaxLen) (r.hashmap, r.hashmapHeight) =
          (r.hashmap, r.hashmapHeight) := by
      apply writeHashes_known
      · exact fun hmem => hzero (List.mem_of_mem_take (List.mem_of_mem_drop hmem))
      · intro k hk
        have hin : segment * hashmapMaxLen + k <
            min ((segment + 1) * hashmapMaxLen) S.totalParts := by omega
        rw [h.get_lt hS (by omega), hashmapSegment, List.getElem?_drop,
          List.getElem?_take_of_lt hin]
    rw [hsame] at hmap
    obtain ⟨hhashmap, hheight⟩ := Prod.mk.inj hmap
    refine ⟨⟨hheight ▸ h.le, ?_, hheight ▸ h.boundary, hheight ▸ h.started,
      hparts ▸ h.parts⟩, hheight ▸ Nat.le_refl _⟩
    rw [hhashmap, hheight]
    exact h.hashmap
  · have hfilled := knows_of_fresh hS hlt (hparts ▸ h.parts) (by
      rw [hmap, ← hat]
      congr 2
      rw [hat]
      exact h.hashmap)
    exact ⟨hfilled.1, by omega⟩

/-- The receiver that accepts the advertisement knows the first segment. -/
theorem accept_knows (hS : Segmented S) {window : Option Nat} {callback : Bool}
    (hr : accept S.advertisement window callback = some r) : Knows S r := by
  unfold accept at hr
  split at hr
  · cases hr
  · obtain rfl := Option.some.inj hr
    rcases Nat.eq_zero_or_pos S.totalParts with hnone | hsome
    · have hempty : S.hashmap = [] := List.eq_nil_of_length_eq_zero (hS.length.trans hnone)
      refine ⟨?_, ?_, .inl ?_, fun hpos => ?_, by simp [Resource.advertisement]⟩ <;>
        simp_all [Resource.advertisement, hashmapSegment, writeHashes, Bytes.blocks4]
    · have hfirst : 0 * hashmapMaxLen < S.totalParts := by simpa using hsome
      refine (knows_of_fresh hS hfirst ?_ ?_).1
      · simp [Resource.advertisement]
      · simp [Resource.advertisement]

/-! ## Requests for more hashmap -/

/-- A scan that runs out of hashes has met a missing part without one. -/
theorem scanWindow_exhausted {r : Resource} {fuel pn outstanding : Nat}
    (h : (r.scanWindow fuel pn outstanding).2 = true) :
    ∃ i : Nat, r.parts[i]? = some none ∧ r.hashmap[i]?.getD zeroHash = zeroHash := by
  induction fuel generalizing pn outstanding with
  | zero => cases h
  | succ fuel ih =>
      unfold scanWindow at h
      split at h
      · cases h
      · split at h
        · cases h
        · exact ih h
      · rename_i hslot
        dsimp only at h
        split at h
        · rename_i hzero
          exact ⟨pn, hslot, hzero⟩
        · split at h
          · cases h
          · exact ih h

theorem lastMapHash_flagged (last : MapHash) (rest : Bytes) :
    lastMapHash (hashmapIsExhausted :: last.1 ++ rest) = last := by
  rw [lastMapHash, List.cons_append, List.drop_succ_cons, List.drop_zero,
    Bytes.blocks4_append, List.headD_cons]

theorem hashesOffset_flagged (last : MapHash) (hash : Digest) (rest : Bytes) :
    hashesOffset (hashmapIsExhausted :: last.1 ++ (hash.1 ++ rest)) ≤
      (hashmapIsExhausted :: last.1 ++ (hash.1 ++ rest)).length := by
  have hoffset : hashesOffset (hashmapIsExhausted :: last.1 ++ (hash.1 ++ rest)) = 37 := rfl
  simp only [hoffset, List.length_append, List.length_cons, last.2, hash.2]
  omega

/-- A flagged request names the hash at the end of segment `k`. -/
def EndsSegment (S : Resource) (data : Bytes) (k : Nat) : Prop :=
  0 < k ∧ k * hashmapMaxLen < S.totalParts ∧
    S.hashmap[k * hashmapMaxLen - 1]? = some (lastMapHash data) ∧
    hashesOffset data ≤ data.length

/-- The receiver flags a request only at the end of a segment. -/
theorem Knows.flagged (h : Knows S r) (hS : Segmented S) (hzero : zeroHash ∉ S.hashmap)
    (hdata : r.prepareRequestNextData.2 = some data)
    (hflag : data.head? = some hashmapIsExhausted) :
    r.hashmapHeight = r.hashmapHeight / hashmapMaxLen * hashmapMaxLen ∧
      EndsSegment S data (r.hashmapHeight / hashmapMaxLen) := by
  unfold prepareRequestNextData at hdata
  split at hdata
  · cases hdata
  dsimp only at hdata
  split at hdata
  · rename_i hexhausted
    obtain ⟨i, hslot, hunknown⟩ := scanWindow_exhausted hexhausted
    have hi : i < S.totalParts := h.parts ▸ (List.getElem?_eq_some_iff.mp hslot).1
    have hheight : r.hashmapHeight ≤ i := by
      rcases Nat.lt_or_ge i r.hashmapHeight with hlt | hge
      · have hlen : i < S.hashmap.length := hS.length ▸ hi
        rw [h.get_lt hS hlt, List.getElem?_eq_getElem hlen, Option.getD_some] at hunknown
        exact absurd (hunknown ▸ List.getElem_mem hlen) hzero
      · exact hge
    have hdvd : hashmapMaxLen ∣ r.hashmapHeight := by
      rcases h.boundary with hall | hdvd
      · omega
      · exact hdvd
    have hmul : r.hashmapHeight = r.hashmapHeight / hashmapMaxLen * hashmapMaxLen :=
      (Nat.div_mul_cancel hdvd).symm
    have hpos := h.started (by omega)
    have hlast : r.hashmap[r.hashmapHeight - 1]? = S.hashmap[r.hashmapHeight - 1]? :=
      h.get_lt hS (by omega)
    have hlt : r.hashmapHeight - 1 < S.hashmap.length := by
      rw [hS.length]
      omega
    rw [hlast, List.getElem?_eq_getElem hlt] at hdata
    obtain rfl := Option.some.inj hdata
    refine ⟨hmul, ?_, hmul ▸ by omega, ?_, ?_⟩
    · exact Nat.div_pos (Nat.le_of_dvd hpos hdvd) (by decide)
    · rw [← hmul, List.getElem?_eq_getElem hlt, lastMapHash_flagged]
    · exact hashesOffset_flagged _ _ _
  · obtain rfl := Option.some.inj hdata
    simp [hashmapIsExhausted, hashmapIsNotExhausted] at hflag

/-! ## The sender's answer -/

section

variable (hS : Segmented S)

include hS

theorem hashmapSegment_eq (segment : Nat) :
    hashmapSegment S.hashmap segment S.parts.length =
      (S.hashmap.drop (segment * hashmapMaxLen)).take hashmapMaxLen := by
  have htake : S.hashmap.take (min ((segment + 1) * hashmapMaxLen) S.parts.length) =
      S.hashmap.take ((segment + 1) * hashmapMaxLen) := by
    rw [hS.parts, ← hS.length, ← List.take_take, List.take_length]
  rw [hashmapSegment, htake, List.drop_take, Nat.add_mul, Nat.one_mul, Nat.add_sub_cancel_left]

/-- The last hash of a flagged request is found at the end of its segment. -/
theorem EndsSegment.position (hnodup : S.hashmap.Nodup) {k : Nat}
    (h : EndsSegment S data k) (hr : SameNames S r) :
    lastPosition (lastMapHash data) (r.packets.map PartPacket.mapHash) =
      some (k * hashmapMaxLen - 1) := by
  rw [hr.mapHashes, ← hS.hashmap]
  exact lastPosition_nodup hnodup h.2.2.1

theorem EndsSegment.lt_segments {k : Nat} (h : EndsSegment S data k) :
    k < S.hashmapHeight := by
  obtain ⟨-, hlt, -⟩ := h
  rw [hS.segments, Nat.lt_div_iff_mul_lt (by decide)]
  simp only [hashmapMaxLen] at *
  omega

/-- The hashmap branch of `request` answers a flagged request. -/
theorem EndsSegment.answer (hnodup : S.hashmap.Nodup) {k : Nat}
    (h : EndsSegment S data k) (hr : SameNames S r) {env : Readings} (hsend : env.sendOk = true) :
    ∃ lastIndex, r.answerHashmap (lastMapHash data) env = (r.noteReceiverHeight lastIndex,
      [.hmu k (Bytes.ofBlocks ((S.hashmap.drop (k * hashmapMaxLen)).take hashmapMaxLen))],
      true) := by
  refine ⟨k * hashmapMaxLen - 1, ?_⟩
  have hnext := nextSegmentAfter_boundary h.1
  have hfits : ¬ k ≥ (r.noteReceiverHeight (k * hashmapMaxLen - 1)).hashmapHeight := by
    show ¬ k ≥ r.hashmapHeight
    rw [hr.hashmapHeight]
    exact Nat.not_le.mpr (h.lt_segments hS)
  rw [answerHashmap, h.position hS hnodup hr]
  simp only [hnext, if_neg hfits, hsend, if_true]
  rw [← hashmapSegment_eq hS, ← hr.hashmap, ← hr.parts]
  rfl

/-- The sender answers a flagged request with the entries that follow the last
hash it names. -/
theorem EndsSegment.request (hnodup : S.hashmap.Nodup) {k : Nat}
    (h : EndsSegment S data k) (hflag : data.head? = some hashmapIsExhausted) (hr : SameNames S r)
    (hrunning : r.status ≠ .failed) {env : Readings} (hsend : env.sendOk = true) :
    ∃ r' effects, r.request data env = some (r', effects) ∧ r'.status ≠ .failed ∧
      .hmu k (Bytes.ofBlocks ((S.hashmap.drop (k * hashmapMaxLen)).take hashmapMaxLen)) ∈
        effects := by
  have hbegin : SameNames r r.beginRequest := ⟨rfl, rfl, rfl, rfl⟩
  have hsent : SameNames S (r.beginRequest.sendParts (requestedHashes data) env).1 :=
    hr.trans (hbegin.trans (sendParts_sameNames _ _ env))
  obtain ⟨lastIndex, hanswer⟩ := h.answer hS hnodup hsent hsend
  rw [Resource.request, if_neg hrunning, if_neg (Nat.not_lt.mpr h.2.2.2)]
  simp only [hflag, if_true, hanswer]
  refine ⟨_, _, rfl, ?_, by simp⟩
  unfold awaitProof
  split
  · simp
  · simp [noteReceiverHeight, sendParts, beginRequest]

end

/-! ## Along a run -/

/-- What holds along a run with the sender's resource `S`. -/
structure HmuInv (S : Resource) (t : Transfer) : Prop where
  sender : SameNames S t.sender
  knows : Knows S t.receiver
  reqs : ∀ data ∈ t.reqs, data.head? = some hashmapIsExhausted →
    ∃ k, EndsSegment S data k ∧ k * hashmapMaxLen ≤ t.receiver.hashmapHeight
  hmus : ∀ segment hashmap, (segment, hashmap) ∈ t.hmus →
    segment * hashmapMaxLen ≤ t.receiver.hashmapHeight ∧
      segment * hashmapMaxLen < S.totalParts ∧
      Bytes.blocks4 hashmap = hashmapSegment S.hashmap segment S.totalParts

/-- Packets that keep the invariant when the receiver's height is `height`. -/
def Timely (S : Resource) (height : Nat) : Effect → Prop
  | .req data => data.head? = some hashmapIsExhausted →
      ∃ k, EndsSegment S data k ∧ k * hashmapMaxLen ≤ height
  | .hmu segment hashmap => segment * hashmapMaxLen ≤ height ∧
      segment * hashmapMaxLen < S.totalParts ∧
      Bytes.blocks4 hashmap = hashmapSegment S.hashmap segment S.totalParts
  | _ => True

theorem timely_of_not_packet {height : Nat} {e : Effect} (h : e.isPacket = false) :
    Timely S height e := by
  cases e <;> first | exact True.intro | cases h

variable {t : Transfer}

theorem HmuInv.emit (h : HmuInv S t) {effects : List Effect}
    (heffects : ∀ e ∈ effects, Timely S t.receiver.hashmapHeight e) :
    HmuInv S (t.emit effects) := by
  obtain ⟨hsender, hreceiver, hreqs, -, hhmus⟩ := emit_spec t effects
  refine ⟨hsender ▸ h.sender, hreceiver ▸ h.knows, ?_, ?_⟩
  · intro data hdata
    rw [hreceiver]
    rcases (hreqs data).mp hdata with hdata | hdata
    · exact h.reqs data hdata
    · exact heffects _ hdata
  · intro segment hashmap hhmu
    rw [hreceiver]
    rcases (hhmus segment hashmap).mp hhmu with hhmu | hhmu
    · exact h.hmus segment hashmap hhmu
    · exact heffects _ hhmu

/-- A receiver that knows at least as much keeps the invariant. -/
theorem HmuInv.receiver (h : HmuInv S t) (hknows : Knows S r)
    (hle : t.receiver.hashmapHeight ≤ r.hashmapHeight) : HmuInv S { t with receiver := r } where
  sender := h.sender
  knows := hknows
  reqs := fun data hdata hflag =>
    let ⟨k, hends, hk⟩ := h.reqs data hdata hflag
    ⟨k, hends, hk.trans hle⟩
  hmus := fun segment hashmap hhmu =>
    let ⟨hstart, hlt, hblocks⟩ := h.hmus segment hashmap hhmu
    ⟨hstart.trans hle, hlt, hblocks⟩

/-- The requests of a receiver that knows its height are timely. -/
theorem Knows.timely (h : Knows S r) (hS : Segmented S) (hzero : zeroHash ∉ S.hashmap)
    (hr : SameMap r r') (hdata : r'.prepareRequestNextData.2 = some data) :
    Timely S r.hashmapHeight (.req data) := by
  intro hflag
  obtain ⟨hmul, hends⟩ := (h.sameMap hr).flagged hS hzero hdata hflag
  refine ⟨_, hends, ?_⟩
  rw [← hmul, hr.hashmapHeight]

/-- The sender's answers are timely. -/
theorem HmuInv.answers (h : HmuInv S t) (hS : Segmented S) (hnodup : S.hashmap.Nodup)
    (hdata : data ∈ t.reqs) {e : Effect} (he : Answers t.sender data e) :
    Timely S t.receiver.hashmapHeight e := by
  rcases he with ⟨packet, -, rfl, -⟩ | ⟨hflag, lastIndex, hlast, -, rfl⟩
  · exact True.intro
  · obtain ⟨k, hends, hk⟩ := h.reqs data hdata hflag
    obtain rfl : k * hashmapMaxLen - 1 = lastIndex :=
      Option.some.inj ((hends.position hS hnodup h.sender).symm.trans hlast)
    rw [nextSegmentAfter_boundary hends.1, h.sender.hashmap, h.sender.parts, hS.parts]
    exact ⟨hk, hends.2.1, Bytes.blocks4_ofBlocks _⟩

/-- Every event keeps the invariant. -/
theorem hmuInv_step (hS : Segmented S) (hnodup : S.hashmap.Nodup) (hzero : zeroHash ∉ S.hashmap)
    {t' : Transfer} {e : Event} (h : HmuInv S t) (hstep : step fullHash t e = some t') :
    HmuInv S t' := by
  cases e with
  | request data env =>
      simp only [step] at hstep
      split at hstep
      · rename_i hdata
        obtain ⟨⟨sender, effects⟩, hrequest, rfl⟩ := Option.map_eq_some_iff.mp hstep
        obtain ⟨hsame, hanswers⟩ := request_spec hrequest
        have h' : HmuInv S { t with sender := sender } :=
          ⟨h.sender.trans hsame, h.knows, h.reqs, h.hmus⟩
        apply h'.emit
        intro e he
        by_cases hpacket : e.isPacket = true
        · exact h.answers hS hnodup hdata (hanswers e he hpacket)
        · exact timely_of_not_packet (Bool.not_eq_true _ ▸ hpacket)
      · cases hstep
  | part data env =>
      simp only [step] at hstep
      split at hstep
      · obtain rfl := Option.some.inj hstep
        obtain ⟨hstored, hquiet⟩ := receivePart_spec fullHash t.receiver data env
        have hknows : Knows S (t.receiver.receivePart fullHash data env).1 :=
          { le := hstored.hashmapHeight ▸ h.knows.le
            hashmap := by rw [hstored.hashmap, hstored.hashmapHeight]; exact h.knows.hashmap
            boundary := hstored.hashmapHeight ▸ h.knows.boundary
            started := hstored.hashmapHeight ▸ h.knows.started
            parts := hstored.length.trans h.knows.parts }
        have h' := h.receiver hknows (Nat.le_of_eq hstored.hashmapHeight.symm)
        exact h'.emit fun e he => timely_of_not_packet (hquiet e he)
      · cases hstep
  | hmu segment hashmap env =>
      simp only [step] at hstep
      split at hstep
      · rename_i hhmu
        obtain rfl := Option.some.inj hstep
        obtain ⟨hstart, hlt, hblocks⟩ := h.hmus segment hashmap hhmu
        obtain ⟨hparts, hsalt, hmap, hquiet⟩ :=
          hashmapUpdatePacket_spec t.receiver segment hashmap env
        have hfilled : Knows S
            (t.receiver.hashmapUpdatePacket (some (segment, hashmap)) env).1 ∧
            t.receiver.hashmapHeight ≤
              (t.receiver.hashmapUpdatePacket (some (segment, hashmap)) env).1.hashmapHeight := by
          rcases hmap with hmap | hmap
          · obtain ⟨hhashmap, hheight⟩ := Prod.mk.inj hmap
            refine ⟨⟨hheight ▸ h.knows.le, ?_, hheight ▸ h.knows.boundary,
              hheight ▸ h.knows.started, hparts ▸ h.knows.parts⟩, Nat.le_of_eq hheight.symm⟩
            rw [hhashmap, hheight]
            exact h.knows.hashmap
          · rw [hblocks] at hmap
            exact h.knows.fill hS hzero hstart hlt hparts hmap
        exact (h.receiver hfilled.1 hfilled.2).emit fun e he =>
          timely_of_not_packet (hquiet e he)
      · cases hstep
  | requestNext env =>
      simp only [step] at hstep
      obtain rfl := Option.some.inj hstep
      obtain ⟨hsame, hreq⟩ := requestNext_spec t.receiver env
      have h' := h.receiver (h.knows.sameMap hsame) (Nat.le_of_eq hsame.hashmapHeight.symm)
      apply h'.emit
      intro e he
      by_cases hpacket : e.isPacket = true
      · obtain ⟨data, rfl, hdata⟩ := hreq e he hpacket
        rw [hsame.hashmapHeight]
        exact h.knows.timely hS hzero (SameMap.refl _) hdata
      · exact timely_of_not_packet (Bool.not_eq_true _ ▸ hpacket)
  | watchdog env =>
      simp only [step] at hstep
      obtain rfl := Option.some.inj hstep
      obtain ⟨hsame, hreq⟩ := watchdog_spec t.receiver env
      have h' := h.receiver (h.knows.sameMap hsame) (Nat.le_of_eq hsame.hashmapHeight.symm)
      apply h'.emit
      intro e he
      by_cases hpacket : e.isPacket = true
      · obtain ⟨r', data, hr', rfl, hdata⟩ := hreq e he hpacket
        rw [hsame.hashmapHeight]
        exact h.knows.timely hS hzero hr' hdata
      · exact timely_of_not_packet (Bool.not_eq_true _ ▸ hpacket)

/-- What the two ends read while an event happens. -/
def Event.readings : Event → Readings
  | .request _ env => env
  | .part _ env => env
  | .hmu _ _ env => env
  | .requestNext env => env
  | .watchdog env => env

/-- A sender whose packets go out does not fail over a request. -/
theorem HmuInv.running_step (hS : Segmented S) (hnodup : S.hashmap.Nodup) {t' : Transfer}
    {e : Event} (h : HmuInv S t) (hrunning : t.sender.status ≠ .failed)
    (hsend : e.readings.sendOk = true) (hstep : step fullHash t e = some t') :
    t'.sender.status ≠ .failed := by
  cases e with
  | request data env =>
      simp only [step] at hstep
      split at hstep
      · rename_i hdata
        obtain ⟨⟨sender, effects⟩, hrequest, rfl⟩ := Option.map_eq_some_iff.mp hstep
        rw [(emit_spec _ effects).1]
        by_cases hflag : data.head? = some hashmapIsExhausted
        · obtain ⟨k, hends, -⟩ := h.reqs data hdata hflag
          obtain ⟨r', effects', hanswer, hr', -⟩ :=
            hends.request hS hnodup hflag h.sender hrunning hsend
          obtain ⟨rfl, rfl⟩ : sender = r' ∧ effects = effects' := by
            simpa using hrequest.symm.trans hanswer
          exact hr'
        · rw [Resource.request, if_neg hrunning] at hrequest
          split at hrequest
          · cases hrequest
          · dsimp only at hrequest
            obtain ⟨rfl, -⟩ := Prod.mk.inj (Option.some.inj hrequest)
            unfold awaitProof
            split <;> simp [sendParts, beginRequest]
      · cases hstep
  | part data env =>
      simp only [step] at hstep
      split at hstep
      · obtain rfl := Option.some.inj hstep
        rw [(emit_spec _ _).1]
        exact hrunning
      · cases hstep
  | hmu segment hashmap env =>
      simp only [step] at hstep
      split at hstep
      · obtain rfl := Option.some.inj hstep
        rw [(emit_spec _ _).1]
        exact hrunning
      · cases hstep
  | requestNext env =>
      obtain rfl := Option.some.inj hstep
      rw [(emit_spec _ _).1]
      exact hrunning
  | watchdog env =>
      obtain rfl := Option.some.inj hstep
      rw [(emit_spec _ _).1]
      exact hrunning

theorem hmuInv_start (hS : Segmented S) {window : Option Nat} {callback : Bool}
    (hr : accept S.advertisement window callback = some r) : HmuInv S (Transfer.start S r) where
  sender := (SameMap.refl S).sameNames
  knows := accept_knows hS hr
  reqs := by simp [Transfer.start]
  hmus := by simp [Transfer.start]

/-- In every state of every run the receiver knows the sender's entries up to
its height and no other, the height is the number of parts or the end of a
segment, and a flagged request makes a sender that has not failed answer with
the entries that follow. A sender whose packets go out does not fail. -/
theorem hashmap_progress (fullHash : Bytes → Digest) {window : Option Nat} {callback : Bool}
    (hS : Segmented S) (hnodup : S.hashmap.Nodup) (hzero : zeroHash ∉ S.hashmap)
    (hr : accept S.advertisement window callback = some r) {es : List Event}
    (hrun : exec (step fullHash) (Transfer.start S r) es = some t) :
    t.receiver.hashmapHeight ≤ S.totalParts ∧
    t.receiver.hashmap = S.hashmap.take t.receiver.hashmapHeight ++
      List.replicate (S.totalParts - t.receiver.hashmapHeight) zeroHash ∧
    (t.receiver.hashmapHeight = S.totalParts ∨ hashmapMaxLen ∣ t.receiver.hashmapHeight) ∧
    (∀ env data, .req data ∈ (t.receiver.requestNext env).2 ∨
        .req data ∈ (t.receiver.watchdog env).2 →
      data.head? = some hashmapIsExhausted →
      ∀ es' t', exec (step fullHash) (Transfer.start S r) es' = some t' →
      t'.sender.status ≠ .failed → ∀ env' : Readings, env'.sendOk = true →
      ∃ sender effects, t'.sender.request data env' = some (sender, effects) ∧
        sender.status ≠ .failed ∧
        .hmu (t.receiver.hashmapHeight / hashmapMaxLen)
          (Bytes.ofBlocks ((S.hashmap.drop t.receiver.hashmapHeight).take hashmapMaxLen)) ∈
            effects) ∧
    ((∀ e ∈ es, e.readings.sendOk = true) → t.sender.status ≠ .failed) := by
  have hinv : ∀ es t, exec (step fullHash) (Transfer.start S r) es = some t → HmuInv S t :=
    fun es t hrun => invariant_of_step
      (fun _ _ _ h hstep => hmuInv_step fullHash hS hnodup hzero h hstep)
      (hmuInv_start hS hr) hrun
  have h := hinv es t hrun
  refine ⟨h.knows.le, h.knows.hashmap, h.knows.boundary, ?_, fun hsends => ?_⟩
  · intro env data hsent hflag es' t' hrun' hrunning env' hsend
    obtain ⟨r', hr', hdata⟩ : ∃ r', SameMap t.receiver r' ∧
        r'.prepareRequestNextData.2 = some data := by
      rcases hsent with hsent | hsent
      · obtain ⟨data', heq, hdata⟩ := (requestNext_spec t.receiver env).2 _ hsent rfl
        obtain rfl := Effect.req.inj heq
        exact ⟨_, SameMap.refl _, hdata⟩
      · obtain ⟨r', data', hr', heq, hdata⟩ := (watchdog_spec t.receiver env).2 _ hsent rfl
        obtain rfl := Effect.req.inj heq
        exact ⟨r', hr', hdata⟩
    obtain ⟨hmul, hends⟩ := (h.knows.sameMap hr').flagged hS hzero hdata hflag
    rw [hr'.hashmapHeight] at hmul hends
    obtain ⟨sender, effects, hrequest, hstatus, hanswer⟩ :=
      hends.request hS hnodup hflag (hinv es' t' hrun').sender hrunning hsend
    rw [← hmul] at hanswer
    exact ⟨sender, effects, hrequest, hstatus, hanswer⟩
  · have hkeeps : HmuInv S t ∧ t.sender.status ≠ .failed := by
      apply invariant (P := fun t => HmuInv S t ∧ t.sender.status ≠ .failed) ?_
        ⟨hmuInv_start hS hr, hS.running⟩ (meets_of_forall hsends _) hrun
      intro t e t' ⟨h, hrunning⟩ hsend hstep
      exact ⟨hmuInv_step fullHash hS hnodup hzero h hstep,
        h.running_step fullHash hS hnodup hrunning hsend hstep⟩
    exact hkeeps.2

theorem Transfer.sender_start (sender receiver : Resource) :
    (Transfer.start sender receiver).sender = sender := rfl

theorem Transfer.receiver_start (sender receiver : Resource) :
    (Transfer.start sender receiver).receiver = receiver := rfl

/-- The sender of 76 parts of one byte, two more than a segment of the hashmap names. -/
def twoSegments : Resource :=
  (outgoing byteHash true 1 ((List.range 76).map UInt8.ofNat) [] false [[0, 0, 0, 0]]).getD
    (blank true)

/-- Its receiver, on a link whose last resource ended with the widest window. -/
def twoSegmentsReceiver : Resource :=
  (accept twoSegments.advertisement (some 75) true).getD (blank true)

/-- The request for the 74 parts that the receiver can name. -/
def exhaustedRequest : Bytes := (twoSegmentsReceiver.prepareRequestNextData.2).getD []

/-- The two entries that the advertisement leaves out. -/
def lateEntries : Bytes := Bytes.ofBlocks ((twoSegments.hashmap.drop 74).take hashmapMaxLen)

/-- The request, the sender's answer to it, and the update. -/
def twoSegmentsRun : List Event :=
  [.requestNext calm, .request exhaustedRequest calm, .hmu 1 lateEntries calm]

/-- What the run needs, evaluated together. -/
theorem twoSegments_values :
    (outgoing byteHash true 1 ((List.range 76).map UInt8.ofNat) [] false
      [[0, 0, 0, 0]]).isSome = true ∧ twoSegments.totalParts = 76 ∧
    twoSegments.hashmap.Nodup ∧ zeroHash ∉ twoSegments.hashmap ∧
    twoSegments.advertisement.t ≤ maxEfficientSize * 3 ∧ twoSegmentsReceiver.hashmapHeight = 74 ∧
    .req exhaustedRequest ∈ (twoSegmentsReceiver.requestNext calm).2 ∧
    exhaustedRequest.head? = some hashmapIsExhausted ∧
    (exec (step byteHash) (Transfer.start twoSegments twoSegmentsReceiver) twoSegmentsRun).map
      (fun t => t.receiver.hashmapHeight) = some 76 := by
  decide +kernel

/-- The receiver's first request is flagged, the sender answers it with segment 1, and after the
update the receiver knows all entries. -/
theorem hashmap_progress_two_segments :
    accept twoSegments.advertisement (some 75) true = some twoSegmentsReceiver ∧
    .req exhaustedRequest ∈ (twoSegmentsReceiver.requestNext calm).2 ∧
    (∃ sender effects, twoSegments.request exhaustedRequest calm = some (sender, effects) ∧
      sender.status ≠ .failed ∧ .hmu 1 lateEntries ∈ effects) ∧
    ∃ t, exec (step byteHash) (Transfer.start twoSegments twoSegmentsReceiver) twoSegmentsRun =
        some t ∧ t.receiver.hashmapHeight = 76 ∧ t.receiver.hashmap = twoSegments.hashmap := by
  obtain ⟨hsome, htotal, hnodup, hzero, hsize, hknown, hasked, hflag, hupdated⟩ :=
    twoSegments_values
  have hS : Segmented twoSegments := by
    obtain ⟨S, hsender⟩ := Option.isSome_iff_exists.mp hsome
    rw [twoSegments, hsender]
    exact outgoing_segmented byteHash hsender
  have hr : accept twoSegments.advertisement (some 75) true = some twoSegmentsReceiver :=
    accept_some hsize (some 75) true (blank true)
  have hstart : exec (step byteHash) (Transfer.start twoSegments twoSegmentsReceiver) [] =
      some (Transfer.start twoSegments twoSegmentsReceiver) := rfl
  obtain ⟨-, -, -, hanswers, -⟩ := hashmap_progress byteHash hS hnodup hzero hr hstart
  simp only [Transfer.receiver_start, hknown] at hanswers
  have hanswer := hanswers calm exhaustedRequest (.inl hasked) hflag [] _ hstart hS.running calm
    rfl
  rw [Transfer.sender_start] at hanswer
  obtain ⟨t, hrun, hheight⟩ := Option.map_eq_some_iff.mp hupdated
  obtain ⟨-, hmap, -⟩ := hashmap_progress byteHash hS hnodup hzero hr hrun
  refine ⟨hr, hasked, hanswer, t, hrun, hheight, ?_⟩
  rw [hmap, hheight, htotal, ← htotal, ← hS.length, List.take_length]
  simp

end Reticulum.Resource
