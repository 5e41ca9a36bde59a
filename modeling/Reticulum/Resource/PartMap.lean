import Reticulum.Resource.Integrity

/-!
# The part map

`map_parts` cuts the stream into parts of `sdu` bytes and maps them under one salt after another
until no hash repeats within `COLLISION_GUARD_SIZE` parts. Everything that is derived from the salt
follows the last one (`mapParts_wellMapped_iff`). A part may still be mapped to the value that means
`unknown` to the receiver.

## Implementation notes

A `Sender` adds the fields that no operation of the transfer reads. `totalParts` is the number that
`prepare_data` computes from the length of the stream. `truncatedHash` is
`identity::truncated_hash`.
-/

namespace Reticulum.Resource

/-- A sending resource with the hashes that identify it elsewhere. -/
structure Sender where
  resource : Resource
  truncatedHash : Bytes
  originalHash : Bytes

namespace Sender

variable (fullHash : Bytes → Digest) (truncatedHash : Bytes → Bytes)

def salt (s : Sender) (randomHash hashedData : Bytes) (originalHash : Option Bytes) : Sender :=
  { resource := s.resource.salt fullHash randomHash hashedData
    truncatedHash := truncatedHash (hashedData ++ randomHash)
    originalHash := originalHash.getD (fullHash (hashedData ++ randomHash)).1 }

/-- The loop of `Resource::map_parts`, with the salts it draws: `none` when they run out. -/
def mapLoop (s : Sender) (data hashedData : Bytes) (originalHash : Option Bytes) :
    List Bytes → Option Sender
  | [] => none
  | randomHash :: salts =>
      let s := s.salt fullHash truncatedHash randomHash hashedData originalHash
      match mapPass fullHash s.resource.randomHash []
          ((List.range s.resource.totalParts).map (partData s.resource.sdu data)) with
      | none => s.mapLoop data hashedData originalHash salts
      | some packets => some { s with resource := { s.resource with
          parts := packets.map fun packet => some packet.data
          hashmap := packets.map PartPacket.mapHash
          packets := packets } }

/-- `Resource::map_parts`: `none` when the salts run out before it returns. -/
def mapParts (s : Sender) (hashedData : Bytes) (originalHash : Option Bytes)
    (salts : List Bytes) : Option (Except String Sender) :=
  match s.resource.data with
  | none => some (.error "Missing resource data")
  | some data =>
      (s.mapLoop fullHash truncatedHash data hashedData originalHash salts).map .ok

/-- The parts that a stream is cut into. -/
def chunks (sdu totalParts : Nat) (data : Bytes) : List Bytes :=
  (List.range totalParts).map (partData sdu data)

/-- The first salt under which no hash repeats too early. -/
def cleanSalt (parts : List Bytes) (salts : List Bytes) : Option Bytes :=
  salts.find? fun salt => (mapPass fullHash salt [] parts).isSome

/-- A part map that is well-formed, and follows its salt. -/
structure WellMapped (data hashedData : Bytes) (originalHash : Option Bytes) (s : Sender) :
    Prop where
  joined : (s.resource.parts.filterMap id).flatten = data
  sized : ∀ part ∈ s.resource.parts, ∃ b, part = some b ∧ 1 ≤ b.length ∧ b.length ≤ s.resource.sdu
  length : s.resource.hashmap.length = s.resource.totalParts
  entries : s.resource.hashmap.map some =
    s.resource.parts.map (Option.map (mapHashOf fullHash s.resource.randomHash))
  hash : s.resource.hash = fullHash (hashedData ++ s.resource.randomHash)
  truncated : s.truncatedHash = truncatedHash (hashedData ++ s.resource.randomHash)
  proof : s.resource.expectedProof = (fullHash (hashedData ++ s.resource.hash.1)).1
  original : s.originalHash = originalHash.getD s.resource.hash.1
  apart : ∀ i j, i < j → j < s.resource.hashmap.length → j - i ≤ collisionGuardSize →
    s.resource.hashmap[i]? ≠ s.resource.hashmap[j]?
  known : zeroHash ∉ s.resource.hashmap

variable {fullHash truncatedHash} {s s' : Sender} {data hashedData : Bytes}
  {originalHash : Option Bytes} {salts : List Bytes}

/-! ## The loop -/

/-- The other operations see the same resource. -/
theorem mapLoop_resource (s : Sender) (data hashedData : Bytes) (originalHash : Option Bytes)
    (salts : List Bytes) :
    (s.mapLoop fullHash truncatedHash data hashedData originalHash salts).map Sender.resource =
      s.resource.mapParts fullHash data hashedData salts := by
  have hsalts : ∀ r : Resource, ∀ randomHash salts,
      (r.salt fullHash randomHash hashedData).mapParts fullHash data hashedData salts =
        r.mapParts fullHash data hashedData salts := by
    intro r randomHash salts
    induction salts with
    | nil => rfl
    | cons salt salts ih =>
        unfold Resource.mapParts
        rw [ih]
        rfl
  induction salts generalizing s with
  | nil => rfl
  | cons randomHash salts ih =>
      unfold mapLoop Resource.mapParts
      dsimp only [Sender.salt, Resource.salt]
      cases mapPass fullHash randomHash []
          ((List.range s.resource.totalParts).map (partData s.resource.sdu data)) with
      | none => exact (ih _).trans (hsalts s.resource randomHash salts)
      | some packets => rfl

/-- What the loop gives: a map under the first clean salt. -/
theorem mapLoop_some
    (h : s.mapLoop fullHash truncatedHash data hashedData originalHash salts = some s') :
    ∃ salt packets, cleanSalt fullHash (chunks s.resource.sdu s.resource.totalParts data) salts =
        some salt ∧
      mapPass fullHash salt [] (chunks s.resource.sdu s.resource.totalParts data) = some packets ∧
      s' = { s.salt fullHash truncatedHash salt hashedData originalHash with
        resource := s.resource.withMap fullHash salt hashedData packets } := by
  induction salts generalizing s with
  | nil => cases h
  | cons randomHash salts ih =>
      unfold mapLoop at h
      dsimp only at h
      split at h
      · rename_i hmap
        have hnone : mapPass fullHash randomHash []
            (chunks s.resource.sdu s.resource.totalParts data) = none := hmap
        obtain ⟨salt, packets, hclean, hpass, rfl⟩ := ih h
        refine ⟨salt, packets, ?_, hpass, rfl⟩
        rw [cleanSalt, List.find?_cons, hnone]
        exact hclean
      · rename_i packets hmap
        have hsome : mapPass fullHash randomHash []
            (chunks s.resource.sdu s.resource.totalParts data) = some packets := hmap
        refine ⟨randomHash, packets, ?_, hsome, (Option.some.inj h).symm⟩
        rw [cleanSalt, List.find?_cons, hsome]
        rfl

/-! ## The parts -/

/-- The first parts are the first bytes. -/
theorem flatten_chunks (sdu totalParts : Nat) (data : Bytes) :
    (chunks sdu totalParts data).flatten = data.take (totalParts * sdu) := by
  unfold chunks
  induction totalParts with
  | zero => simp
  | succ k ih =>
      rw [List.range_succ, List.map_append, List.flatten_append, ih, Nat.succ_mul, List.take_add]
      simp [partData, List.drop_take, Nat.succ_mul]

/-- A part lies inside the stream. -/
theorem lt_partCount_iff {sdu : Nat} (hsdu : 1 ≤ sdu) (length i : Nat) :
    i < (length + sdu - 1) / sdu ↔ i * sdu < length := by
  rw [Nat.lt_iff_add_one_le, Nat.le_div_iff_mul_le hsdu, Nat.add_one_mul]
  omega

theorem le_partCount_mul {sdu : Nat} (hsdu : 1 ≤ sdu) (length : Nat) :
    length ≤ (length + sdu - 1) / sdu * sdu := by
  by_contra hlt
  exact absurd ((lt_partCount_iff hsdu length _).mpr (Nat.not_le.mp hlt)) (lt_irrefl _)

/-- Each part holds between one and `sdu` bytes. -/
theorem length_chunk {sdu : Nat} (hsdu : 1 ≤ sdu) {part : Bytes}
    (h : part ∈ chunks sdu ((data.length + sdu - 1) / sdu) data) :
    1 ≤ part.length ∧ part.length ≤ sdu := by
  obtain ⟨i, hi, rfl⟩ := List.mem_map.mp h
  have hinside := (lt_partCount_iff hsdu _ _).mp (List.mem_range.mp hi)
  rw [partData, List.length_drop, List.length_take, Nat.add_one_mul]
  omega

/-! ## The map -/

theorem mapLoop_of_mapParts (hdata : s.resource.data = some data)
    (h : s.mapParts fullHash truncatedHash hashedData originalHash salts = some (.ok s')) :
    s.mapLoop fullHash truncatedHash data hashedData originalHash salts = some s' := by
  unfold mapParts at h
  rw [hdata] at h
  obtain ⟨looped, hloop, hok⟩ := Option.map_eq_some_iff.mp h
  obtain rfl := Except.ok.inj hok
  exact hloop

/-- A pass that succeeds under the first salt is the map. -/
theorem mapParts_of_pass (hdata : s.resource.data = some data) {salt : Bytes}
    {packets : List PartPacket}
    (hpass : mapPass fullHash salt [] (chunks s.resource.sdu s.resource.totalParts data) =
      some packets) (salts : List Bytes) :
    s.mapParts fullHash truncatedHash hashedData originalHash (salt :: salts) =
      some (.ok { s.salt fullHash truncatedHash salt hashedData originalHash with
        resource := s.resource.withMap fullHash salt hashedData packets }) := by
  have hsome : mapPass fullHash salt []
      ((List.range s.resource.totalParts).map (partData s.resource.sdu data)) = some packets :=
    hpass
  unfold mapParts
  rw [hdata]
  unfold mapLoop
  dsimp only [Sender.salt, Resource.salt]
  rw [hsome]
  rfl

/-- The parts of a map are the stream. -/
theorem flatten_withMap (hsdu : 1 ≤ s.resource.sdu)
    (htotal : s.resource.totalParts = (data.length + s.resource.sdu - 1) / s.resource.sdu)
    {salt : Bytes} {packets : List PartPacket}
    (hpass : mapPass fullHash salt [] (chunks s.resource.sdu s.resource.totalParts data) =
      some packets) :
    ((s.resource.withMap fullHash salt hashedData packets).parts.filterMap id).flatten = data := by
  have hparts := (mapPass_spec fullHash hpass).1
  have hjoined : (packets.map fun packet => some packet.data).filterMap id =
      chunks s.resource.sdu s.resource.totalParts data := by
    rw [List.filterMap_map, ← hparts]
    exact congrFun List.filterMap_eq_map packets
  calc _ = (chunks s.resource.sdu s.resource.totalParts data).flatten :=
        congrArg List.flatten hjoined
    _ = data.take (s.resource.totalParts * s.resource.sdu) := flatten_chunks _ _ _
    _ = data := by
        rw [htotal]
        exact List.take_of_length_le (le_partCount_mul hsdu _)

/-- A pass that succeeds has no hash twice within the guard. -/
theorem mapPass_apart {salt : Bytes} {parts : List Bytes} {guardList : List MapHash}
    {packets : List PartPacket} (hguard : guardList.length ≤ collisionGuardSize)
    (h : mapPass fullHash salt guardList parts = some packets) {i j : Nat} (hij : i < j)
    (hnear : j - i ≤ collisionGuardSize) (hj : guardList.length ≤ j)
    (hlt : j < guardList.length + packets.length) :
    (guardList ++ packets.map PartPacket.mapHash)[i]? ≠
      (guardList ++ packets.map PartPacket.mapHash)[j]? := by
  induction parts generalizing guardList packets i j with
  | nil =>
      cases h
      exact absurd hlt (Nat.not_lt.mpr hj)
  | cons part parts ih =>
      unfold mapPass at h
      dsimp only at h
      split at h
      · cases h
      rename_i hnew
      obtain ⟨rest, hrest, rfl⟩ := Option.map_eq_some_iff.mp h
      rw [List.map_cons]
      rw [List.length_cons] at hlt
      rcases Nat.eq_or_lt_of_le hj with rfl | hlater
      · -- the part that is mapped now is compared with the whole guard list
        rw [List.getElem?_append_left hij, List.getElem?_append_right le_rfl, Nat.sub_self,
          List.getElem?_cons_zero]
        exact fun hget => hnew (List.mem_of_getElem? hget)
      rw [List.append_cons]
      split at hrest
      · rename_i hlong
        rw [List.length_append, List.length_singleton] at hlong
        cases guardList with
        | nil => exact absurd hlong (by decide)
        | cons first guardList =>
            obtain ⟨i, rfl⟩ : ∃ k, i = k + 1 := ⟨i - 1, by
              rw [List.length_cons] at hlong hlater
              omega⟩
            obtain ⟨j, rfl⟩ : ∃ k, j = k + 1 := ⟨j - 1, by omega⟩
            rw [List.length_cons] at hguard hlater hlt
            apply ih (by simpa using hguard) hrest (by omega) (by omega)
            · rw [List.cons_append, List.tail_cons, List.length_append, List.length_singleton]
              omega
            · simp
              omega
      · rename_i hshort
        apply ih (Nat.not_lt.mp hshort) hrest hij hnear
        · rw [List.length_append, List.length_singleton]
          exact hlater
        · rw [List.length_append, List.length_singleton]
          omega

/-- The condition: under the first salt whose pass has no collision, no part has the hash that means
`unknown`. -/
def NoneUnknown (fullHash : Bytes → Digest) (sdu totalParts : Nat) (data : Bytes)
    (salts : List Bytes) : Prop :=
  ∀ salt, cleanSalt fullHash (chunks sdu totalParts data) salts = some salt →
    ∀ part ∈ chunks sdu totalParts data, mapHashOf fullHash salt part ≠ zeroHash

/-- Whenever `map_parts` returns, for all data and every `sdu` of at least one, the map is
well-formed under the final salt if and only if no part is mapped to the hash that means
`unknown`. -/
theorem mapParts_wellMapped_iff (fullHash : Bytes → Digest) (truncatedHash : Bytes → Bytes)
    (s : Sender) {data : Bytes} (hdata : s.resource.data = some data) (hsdu : 1 ≤ s.resource.sdu)
    (htotal : s.resource.totalParts = (data.length + s.resource.sdu - 1) / s.resource.sdu)
    (hashedData : Bytes) (originalHash : Option Bytes) (salts : List Bytes) {s' : Sender}
    (hreturns : s.mapParts fullHash truncatedHash hashedData originalHash salts = some (.ok s')) :
    WellMapped fullHash truncatedHash data hashedData originalHash s' ↔
      NoneUnknown fullHash s.resource.sdu s.resource.totalParts data salts := by
  obtain ⟨salt, packets, hclean, hpass, hmapped⟩ :=
    mapLoop_some (mapLoop_of_mapParts hdata hreturns)
  obtain ⟨hparts, hnamed, -⟩ := mapPass_spec fullHash hpass
  have hpartsOf : s'.resource.parts =
      (chunks s.resource.sdu s.resource.totalParts data).map some := by
    rw [hmapped, ← hparts, List.map_map]
    rfl
  have hhashes : s'.resource.hashmap =
      (chunks s.resource.sdu s.resource.totalParts data).map (mapHashOf fullHash salt) := by
    rw [hmapped, ← hparts, List.map_map]
    exact List.map_congr_left hnamed
  have hzero : zeroHash ∉ s'.resource.hashmap ↔
      NoneUnknown fullHash s.resource.sdu s.resource.totalParts data salts := by
    rw [hhashes, List.mem_map]
    constructor
    · intro hnone other hother part hpart heq
      obtain rfl := Option.some.inj (hclean.symm.trans hother)
      exact hnone ⟨part, hpart, heq⟩
    · rintro hnone ⟨part, hpart, heq⟩
      exact hnone salt hclean part hpart heq
  rw [← hzero]
  refine ⟨WellMapped.known, fun hknown => ?_⟩
  have hlength : (chunks s.resource.sdu s.resource.totalParts data).length =
      s.resource.totalParts := by
    rw [chunks, List.length_map, List.length_range]
  have hkept : s'.resource.sdu = s.resource.sdu ∧
      s'.resource.totalParts = s.resource.totalParts ∧
      s'.resource.randomHash = salt := by
    rw [hmapped]
    exact ⟨rfl, rfl, rfl⟩
  refine ⟨?_, fun part hpart => ?_, ?_, ?_, ?_, ?_, ?_, ?_, fun i j hij hj hnear => ?_, hknown⟩
  · rw [hmapped]
    exact flatten_withMap hsdu htotal hpass
  · rw [hpartsOf] at hpart
    obtain ⟨b, hb, rfl⟩ := List.mem_map.mp hpart
    rw [htotal] at hb
    rw [hkept.1]
    exact ⟨b, rfl, length_chunk hsdu hb⟩
  · rw [hhashes, List.length_map, hlength, hkept.2.1]
  · rw [hhashes, hpartsOf, hkept.2.2, List.map_map, List.map_map]
    rfl
  · rw [hmapped]
    rfl
  · rw [hmapped]
    rfl
  · rw [hmapped]
    rfl
  · rw [hmapped]
    rfl
  · have hguarded := mapPass_apart (Nat.zero_le _) hpass hij hnear (Nat.zero_le _) (by
      rw [hmapped] at hj
      simpa [Resource.withMap] using hj)
    rw [hmapped]
    exact hguarded

/-- A resource of two bytes, cut into parts of one byte. -/
def twoByteSender : Sender where
  resource := unmapped false 1 [7, 8] false
  truncatedHash := []
  originalHash := []

theorem mapParts_wellMapped_iff_two : ∃ s',
    twoByteSender.mapParts byteHash id [] none [[0, 0, 0, 0]] = some (.ok s') ∧
      WellMapped byteHash id [7, 8] [] none s' := by
  obtain ⟨s', hs'⟩ : ∃ s', twoByteSender.mapParts byteHash id [] none [[0, 0, 0, 0]] =
      some (.ok s') := ⟨_, rfl⟩
  refine ⟨s', hs', (mapParts_wellMapped_iff byteHash id twoByteSender rfl le_rfl rfl [] none _
    hs').mpr ?_⟩
  intro salt hsalt part hpart
  have hclean : cleanSalt byteHash (chunks 1 2 [7, 8]) [[0, 0, 0, 0]] = some [0, 0, 0, 0] := by
    decide
  obtain rfl := Option.some.inj (hclean.symm.trans hsalt)
  revert part
  decide

/-- A hash that begins with zeros maps the part to the value that means `unknown`. -/
theorem mapParts_wellMapped_false : ¬∀ (fullHash : Bytes → Digest)
    (truncatedHash : Bytes → Bytes) (s : Sender) (data : Bytes), s.resource.data = some data →
      1 ≤ s.resource.sdu →
      s.resource.totalParts = (data.length + s.resource.sdu - 1) / s.resource.sdu →
      ∀ (hashedData : Bytes) (originalHash : Option Bytes) (salts : List Bytes) (s' : Sender),
        s.mapParts fullHash truncatedHash hashedData originalHash salts = some (.ok s') →
          WellMapped fullHash truncatedHash data hashedData originalHash s' := by
  intro h
  obtain ⟨s', hs', hzero⟩ : ∃ s', ({ twoByteSender with resource := unmapped false 1 [7] false } :
      Sender).mapParts (fun _ => ⟨List.replicate 32 0, rfl⟩) id [] none [[0, 0, 0, 0]] =
        some (.ok s') ∧ zeroHash ∈ s'.resource.hashmap :=
    ⟨_, rfl, by decide⟩
  exact (h _ id _ [7] rfl le_rfl rfl [] none _ s' hs').known hzero

end Sender

end Reticulum.Resource
