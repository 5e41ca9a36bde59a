import Reticulum.Resource.Basic

/-!
# Mapping, advertising and accepting a resource

The sender cuts its stream into parts of `sdu` bytes and names each part by a
map hash salted with `random_hash`; a pass in which a hash repeats among the
last `collisionGuardSize` ones is made again under a new salt. The
advertisement carries the first segment of the hashmap, and the receiver fills
it into an empty one.

## Implementation notes

`fullHash` is `identity::full_hash`. The salts that `map_parts` draws are a
list: a run of `map_parts` that returns uses finitely many.
-/

namespace Reticulum.Resource

variable (fullHash : Bytes → Digest)

/-- The hash that names a part under a salt. -/
def mapHashOf (salt data : Bytes) : MapHash :=
  Bytes.Block.take 4 (by decide) (fullHash (data ++ salt))

def getMapHash (r : Resource) (data : Bytes) : MapHash :=
  mapHashOf fullHash r.randomHash data

def salt (r : Resource) (randomHash hashedData : Bytes) : Resource :=
  let hash := fullHash (hashedData ++ randomHash)
  { r with
    randomHash := randomHash
    hash := hash
    expectedProof := (fullHash (hashedData ++ hash.1)).1 }

/-- `data[i * sdu .. min((i + 1) * sdu, data.len())]`. -/
def partData (sdu : Nat) (data : Bytes) (i : Nat) : Bytes :=
  (data.take ((i + 1) * sdu)).drop (i * sdu)

/-- One pass of `map_parts` over the parts that are left: `none` on a
collision with the guard list. -/
def mapPass (salt : Bytes) (guardList : List MapHash) :
    List Bytes → Option (List PartPacket)
  | [] => some []
  | part :: parts =>
      let mapHash := mapHashOf fullHash salt part
      if mapHash ∈ guardList then none
      else
        let guardList := guardList ++ [mapHash]
        let guardList := if guardList.length > collisionGuardSize then guardList.tail
          else guardList
        (mapPass salt guardList parts).map fun packets =>
          { data := part, mapHash := mapHash, sent := false } :: packets

/-- A resource with the map of a pass that succeeded. -/
def withMap (r : Resource) (salt hashedData : Bytes) (packets : List PartPacket) : Resource :=
  { r.salt fullHash salt hashedData with
    parts := packets.map fun packet => some packet.data
    hashmap := packets.map PartPacket.mapHash
    packets := packets }

/-- `Resource::map_parts`, with the salts it draws: `none` when they run out
before a pass succeeds. -/
def mapParts (r : Resource) (data hashedData : Bytes) : List Bytes → Option Resource
  | [] => none
  | salt :: salts =>
      match mapPass fullHash salt [] ((List.range r.totalParts).map (partData r.sdu data)) with
      | none => mapParts r data hashedData salts
      | some packets => some (r.withMap fullHash salt hashedData packets)

/-- A resource that `new_internal` starts from. -/
def blank (callback : Bool) : Resource :=
  { status := .none, initiator := false, sdu := 464, data := none
    encrypted := false, compressed := false, hasMetadata := false, split := false
    callback := callback
    hash := ⟨List.replicate 32 0, rfl⟩, randomHash := [], expectedProof := []
    parts := [], packets := [], hashmap := [], hashmapHeight := 0
    waitingForHmu := false, consecutiveCompletedHeight := -1
    totalParts := 0, receivedCount := 0, outstandingParts := 0
    window := initialWindow, windowMax := windowMaxSlow
    windowMin := initialWindowMin, windowFlexibility := initialWindowFlexibility
    retriesLeft := initialMaxRetries, maxRetries := initialMaxRetries
    maxAdvRetries := initialMaxAdvRetries
    rttKnown := false, reqSent := false, reqResp := false
    fastRateRounds := 0, verySlowRateRounds := 0
    sentParts := 0, receiverMinConsecutiveHeight := 0
    segmentIndex := 1, totalSegments := 1
    preparingNextSegment := false, assemblyLock := false }

/-- The end of `prepare_data`: a resource with its encrypted stream, before it
is mapped. -/
def unmapped (callback : Bool) (sdu : Nat) (stream : Bytes) (compressed : Bool) : Resource :=
  { blank callback with
    initiator := true
    sdu := sdu
    data := some stream
    encrypted := true
    compressed := compressed
    totalParts := (stream.length + sdu - 1) / sdu }

/-- The end of `prepare_outgoing`: the number of hashmap segments. -/
def countSegments (r : Resource) : Resource :=
  { r with hashmapHeight := (r.totalParts + hashmapMaxLen - 1) / hashmapMaxLen }

/-- The sending resource for a stream. `hashedData` is the data with its
metadata, before compression and encryption. -/
def outgoing (callback : Bool) (sdu : Nat) (stream hashedData : Bytes)
    (compressed : Bool) (salts : List Bytes) : Option Resource :=
  ((unmapped callback sdu stream compressed).mapParts fullHash stream hashedData salts).map
    countSegments

/-- `ResourceAdvertisement`, the fields that `accept` reads. -/
structure Advertisement where
  t : Nat
  n : Nat
  h : Digest
  r : Bytes
  i : Nat
  l : Nat
  m : Bytes
  e : Bool
  c : Bool
  x : Bool
  deriving DecidableEq, Repr

/-- The hashmap entries of one segment. -/
def hashmapSegment (hashmap : List MapHash) (segment total : Nat) : List MapHash :=
  (hashmap.take (min ((segment + 1) * hashmapMaxLen) total)).drop (segment * hashmapMaxLen)

/-- `ResourceAdvertisement::new_from_resource`, packed for segment 0. -/
def advertisement (r : Resource) : Advertisement :=
  { t := (r.data.getD []).length, n := r.totalParts, h := r.hash, r := r.randomHash
    i := r.segmentIndex, l := r.totalSegments
    m := Bytes.ofBlocks (hashmapSegment r.hashmap 0 r.totalParts)
    e := r.encrypted, c := r.compressed, x := r.hasMetadata }

/-- The loop that writes hashes into the hashmap from an index on, and counts
the entries that were unknown. -/
def writeHashes : List MapHash → Nat → List MapHash × Nat → List MapHash × Nat
  | [], _, map => map
  | h :: hashes, index, (hashmap, height) =>
      match hashmap[index]? with
      | none => writeHashes hashes (index + 1) (hashmap, height)
      | some old => writeHashes hashes (index + 1)
          (hashmap.set index h, if old = zeroHash then height + 1 else height)

/-- `Resource::accept`: `none` when the advertised transfer is too large to
unpack. `lastResourceWindow` is the window of the last resource on the link. -/
def accept (adv : Advertisement) (lastResourceWindow : Option Nat)
    (callback : Bool) : Option Resource :=
  if adv.t > maxEfficientSize * 3 then none
  else
    let (hashmap, height) :=
      writeHashes (Bytes.blocks4 adv.m) 0 (List.replicate adv.n zeroHash, 0)
    some { blank callback with
      status := .transferring
      hash := adv.h
      randomHash := adv.r
      encrypted := adv.e
      compressed := adv.c
      hasMetadata := adv.x
      segmentIndex := adv.i
      totalSegments := adv.l
      split := decide (adv.l > 1)
      totalParts := adv.n
      parts := List.replicate adv.n none
      hashmap := hashmap
      hashmapHeight := height
      window := lastResourceWindow.getD initialWindow }

end Reticulum.Resource
