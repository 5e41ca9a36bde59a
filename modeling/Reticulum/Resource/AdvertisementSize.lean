import Reticulum.Resource.PartMap
import Reticulum.Resource.Segments

/-!
# The size of an advertisement

An advertisement carries as many hashes as `HASHMAP_MAX_LEN` says, which is computed from an
`OVERHEAD` of 134 bytes for everything else. The widths of five numbers and a request id decide
whether that is enough (`advertisement_fits_iff`): it is for every resource without a request id
below 2 ^ 52 bytes, and with one for up to 127 segments.

## Implementation notes

Only what is written is modelled: the flags that `f` is made of are skipped in the packet. Numbers
are `u64` in the packet, and stay below `2 ^ 64`.
-/

namespace Reticulum.Resource

/-- An outgoing resource, with what its advertisement reads beside the operations. -/
structure Outgoing where
  sender : Sender
  totalSize : Nat
  requestId : Option Bytes
  isResponse : Bool
  hashmap_length : sender.resource.hashmap.length = sender.resource.totalParts
  randomHash_length : sender.resource.randomHash.length = randomHashSize
  originalHash_length : sender.originalHash.length = 32
  requestId_length : ∀ id, requestId = some id → id.length = 16

/-- `ResourceAdvertisementData`, the fields that are written. -/
structure AdvertisementData where
  t : Nat
  d : Nat
  n : Nat
  h : Bytes
  r : Bytes
  o : Bytes
  i : Nat
  l : Nat
  q : Option Bytes
  f : Nat
  m : Bytes

/-- `link::MDU`. -/
def linkMdu : Nat := (500 - 1 - 19 - 48) / 16 * 16 - 1

/-- The flags of an advertisement. -/
def advertisementFlags (x p u s c e : Bool) : Nat :=
  x.toNat * 32 + p.toNat * 16 + u.toNat * 8 + s.toNat * 4 + c.toNat * 2 + e.toNat

/-- `ResourceAdvertisement::new_from_resource`, and the data that `pack` makes of it for a segment
of the hashmap. -/
def Outgoing.advertisementData (o : Outgoing) (segment : Nat) : AdvertisementData :=
  let r := o.sender.resource
  { t := (r.data.getD []).length
    d := o.totalSize
    n := r.totalParts
    h := r.hash.1
    r := r.randomHash
    o := o.sender.originalHash
    i := r.segmentIndex
    l := r.totalSegments
    q := o.requestId
    f := advertisementFlags r.hasMetadata (o.requestId.isSome && o.isResponse)
      (o.requestId.isSome && !o.isResponse) r.split r.compressed r.encrypted
    m := Bytes.ofBlocks (hashmapSegment r.hashmap segment r.totalParts) }

/-- A field with its name. -/
def field (name : Char) (value : Bytes) : Bytes :=
  MessagePack.fixstr [UInt8.ofNat name.toNat] ++ value

/-- `serialize_optional_bytes`. -/
def optionalBytes : Option Bytes → Bytes
  | some bytes => MessagePack.bin bytes
  | none => MessagePack.nil

/-- `to_vec_named` of an advertisement: a map of eleven named fields. -/
def AdvertisementData.toVecNamed (a : AdvertisementData) : Bytes :=
  MessagePack.fixmap 11 ++ [
    field 't' (MessagePack.natural a.t),
    field 'd' (MessagePack.natural a.d),
    field 'n' (MessagePack.natural a.n),
    field 'h' (MessagePack.bin a.h),
    field 'r' (MessagePack.bin a.r),
    field 'o' (MessagePack.bin a.o),
    field 'i' (MessagePack.natural a.i),
    field 'l' (MessagePack.natural a.l),
    field 'q' (optionalBytes a.q),
    field 'f' (MessagePack.natural a.f),
    field 'm' (MessagePack.bin a.m)].flatten

def Outgoing.pack (o : Outgoing) (segment : Nat) : Bytes := (o.advertisementData segment).toVecNamed

/-- The bytes that the numbers of an advertisement take. -/
def Outgoing.numbersWidth (o : Outgoing) : Nat :=
  MessagePack.naturalWidth (o.sender.resource.data.getD []).length +
    MessagePack.naturalWidth o.totalSize + MessagePack.naturalWidth o.sender.resource.totalParts +
    MessagePack.naturalWidth o.sender.resource.segmentIndex +
    MessagePack.naturalWidth o.sender.resource.totalSegments

/-- The bytes that the hashmap leaves of its share, below `HASHMAP_MAX_LEN` parts. -/
def unusedHashmap (totalParts : Nat) : Nat :=
  4 * (hashmapMaxLen - totalParts) + if totalParts < 64 then 1 else 0

/-- The condition: the numbers, and 17 bytes for a request id, take at most 33 bytes and what the
hashmap leaves. -/
def Outgoing.Narrow (o : Outgoing) : Prop :=
  o.numbersWidth + (if o.requestId.isSome then 17 else 0) ≤
    33 + unusedHashmap o.sender.resource.totalParts

instance (o : Outgoing) : Decidable o.Narrow := inferInstanceAs (Decidable (_ ≤ _))

/-- The advertisement fits the MDU of a link, and its packet the smallest MTU. -/
def Outgoing.Fits (c : Crypto) (link : LinkHandle) (vector : Bytes.Block 16) (o : Outgoing) :
    Prop :=
  (o.pack 0).length ≤ linkMdu ∧
    ∃ token, link.encrypt c vector (o.pack 0) = .ok token ∧ 19 + token.length ≤ 500

/-- The resource whose parts are mapped, after `prepare_data`. -/
def Prepared.unmapped (p : Prepared) (callback : Bool) (sdu : Nat) : Sender where
  resource := { Resource.unmapped callback sdu p.stream p.compressed with
    hasMetadata := p.hasMetadata
    split := p.split
    segmentIndex := p.segmentIndex
    totalSegments := p.totalSegments }
  truncatedHash := []
  originalHash := []

/-! ## Lengths -/

@[simp] theorem length_field (name : Char) (value : Bytes) :
    (field name value).length = 2 + value.length := by
  rw [field, List.length_append, MessagePack.length_fixstr, List.length_singleton]

theorem length_optionalBytes {q : Option Bytes} (h : ∀ id, q = some id → id.length = 16) :
    (optionalBytes q).length = 1 + if q.isSome then 17 else 0 := by
  cases q with
  | none => rfl
  | some id =>
      rw [optionalBytes, MessagePack.length_bin, h id rfl]
      rfl

theorem advertisementFlags_lt (x p u s c e : Bool) : advertisementFlags x p u s c e < 128 := by
  have hbit : ∀ b : Bool, b.toNat ≤ 1 := Bool.toNat_le
  have hx := hbit x
  have hp := hbit p
  have hu := hbit u
  have hs := hbit s
  have hc := hbit c
  have he := hbit e
  unfold advertisementFlags
  omega

theorem length_ofBlocks {n : Nat} (blocks : List (Bytes.Block n)) :
    (Bytes.ofBlocks blocks).length = n * blocks.length := by
  induction blocks with
  | nil => rfl
  | cons b blocks ih =>
      rw [Bytes.ofBlocks_cons, List.length_append, ih, b.2, List.length_cons, Nat.mul_succ,
        Nat.add_comm]

/-- The hashmap of an advertisement. -/
theorem length_advertised (o : Outgoing) :
    (o.advertisementData 0).m.length = 4 * min hashmapMaxLen o.sender.resource.totalParts := by
  show (Bytes.ofBlocks (hashmapSegment _ 0 _)).length = _
  rw [length_ofBlocks, hashmapSegment, List.length_drop, List.length_take, o.hashmap_length]
  omega

/-- The hashmap and what it leaves are 299 bytes. -/
theorem binWidth_add_unusedHashmap (n : Nat) :
    MessagePack.binWidth (4 * min hashmapMaxLen n) + 4 * min hashmapMaxLen n + unusedHashmap n =
      299 := by
  have hmax : hashmapMaxLen = 74 := rfl
  unfold MessagePack.binWidth unusedHashmap
  rw [hmax]
  split_ifs <;> omega

/-- The size of an advertisement. -/
theorem length_pack (o : Outgoing) :
    (o.pack 0).length + unusedHashmap o.sender.resource.totalParts =
      398 + o.numbersWidth + if o.requestId.isSome then 17 else 0 := by
  have hflags : MessagePack.naturalWidth (o.advertisementData 0).f = 1 :=
    if_pos (advertisementFlags_lt _ _ _ _ _ _)
  have hh : (o.advertisementData 0).h.length = 32 := o.sender.resource.hash.2
  have hr : (o.advertisementData 0).r.length = 4 := o.randomHash_length
  have ho : (o.advertisementData 0).o.length = 32 := o.originalHash_length
  have hq : (optionalBytes (o.advertisementData 0).q).length =
      1 + if o.requestId.isSome then 17 else 0 := length_optionalBytes o.requestId_length
  have hm := length_advertised o
  have hmap := binWidth_add_unusedHashmap o.sender.resource.totalParts
  have h32 : MessagePack.binWidth 32 = 2 := rfl
  have h4 : MessagePack.binWidth 4 = 2 := rfl
  have hnumbers : o.numbersWidth = MessagePack.naturalWidth (o.advertisementData 0).t +
      MessagePack.naturalWidth (o.advertisementData 0).d +
      MessagePack.naturalWidth (o.advertisementData 0).n +
      MessagePack.naturalWidth (o.advertisementData 0).i +
      MessagePack.naturalWidth (o.advertisementData 0).l := rfl
  unfold Outgoing.pack AdvertisementData.toVecNamed
  simp only [List.length_append, List.flatten_cons, List.flatten_nil, length_field, List.length_nil,
    MessagePack.length_natural, MessagePack.length_bin, MessagePack.fixmap, List.length_singleton,
    hflags, hh, hr, ho, hq, hm, h32, h4]
  omega

/-- What fits the MDU fits the smallest MTU when it is encrypted, and nothing else does. -/
theorem packet_le_iff (n : Nat) : 19 + (48 + 16 * (n / 16 + 1)) ≤ 500 ↔ n ≤ linkMdu := by
  have hmdu : linkMdu = 431 := rfl
  rw [hmdu]
  omega

/-- For every outgoing resource, whatever its sizes, its segment and its request id, the
advertisement fits the MDU and its packet the smallest MTU if and only if its numbers are narrow
enough for the hashmap it carries. -/
theorem advertisement_fits_iff (c : Crypto) (hpads : c.Pads) {link : LinkHandle}
    (hlink : link.Established) (vector : Bytes.Block 16) (o : Outgoing) :
    o.Fits c link vector ↔ o.Narrow := by
  have hlength := length_pack o
  have hmdu : linkMdu = 431 := rfl
  have hnarrow : o.Narrow ↔ (o.pack 0).length ≤ linkMdu := by
    unfold Outgoing.Narrow
    omega
  obtain ⟨token, htoken, hsize⟩ := LinkHandle.encrypt_length hpads hlink vector (o.pack 0)
  rw [hnarrow]
  constructor
  · exact fun hfits => hfits.1
  · intro hfits
    refine ⟨hfits, token, htoken, ?_⟩
    rw [hsize]
    exact (packet_le_iff _).mpr hfits

/-- Every segment whose parts are mapped is such an outgoing resource. -/
theorem exists_outgoing (p : Prepared) {callback : Bool} {sdu : Nat} {fullHash : Bytes → Digest}
    {truncatedHash : Bytes → Bytes} {originalHash : Option Bytes} {salts : List Bytes} {s : Sender}
    (h : (p.unmapped callback sdu).mapParts fullHash truncatedHash p.payload originalHash salts =
      some (.ok s)) (hsalts : ∀ salt ∈ salts, salt.length = randomHashSize)
    (horiginal : ∀ hash, originalHash = some hash → hash.length = 32) {requestId : Option Bytes}
    (hrequest : ∀ id, requestId = some id → id.length = 16) (isResponse : Bool) :
    ∃ o : Outgoing, o.sender = s ∧ o.totalSize = p.totalSize ∧ o.requestId = requestId ∧
      o.isResponse = isResponse := by
  obtain ⟨looped, hloop, hok⟩ := Option.map_eq_some_iff.mp h
  obtain rfl := Except.ok.inj hok
  obtain ⟨salt, packets, hclean, hpass, rfl⟩ := Sender.mapLoop_some hloop
  refine ⟨⟨_, p.totalSize, requestId, isResponse, ?_, ?_, ?_, hrequest⟩, rfl, rfl, rfl, rfl⟩
  · have hlength := congrArg List.length (mapPass_spec fullHash hpass).1
    rw [List.length_map, Sender.chunks, List.length_map, List.length_range] at hlength
    exact (List.length_map _).trans hlength
  · exact hsalts salt (List.mem_of_find?_eq_some hclean)
  · cases originalHash with
    | none => exact (fullHash _).2
    | some hash => exact horiginal hash rfl

/-! ## Examples -/

/-- A resource of `size` encrypted bytes in `totalParts` parts, segment `i` of `l`. -/
def requestSegment (size totalParts i l : Nat) : Outgoing where
  sender :=
    { resource := { blank false with
        data := some (List.replicate size 0)
        encrypted := true
        split := true
        totalParts := totalParts
        randomHash := [1, 2, 3, 4]
        hashmap := (List.range totalParts).map fun part =>
          ⟨Fields.bigEndian 4 (part + 1), Fields.length_bigEndian 4 _⟩
        segmentIndex := i
        totalSegments := l }
      truncatedHash := []
      originalHash := List.replicate 32 0 }
  totalSize := l * maxEfficientSize
  requestId := some (List.replicate 16 0)
  isResponse := true
  hashmap_length := (List.length_map _).trans List.length_range
  randomHash_length := rfl
  originalHash_length := List.length_replicate
  requestId_length := fun _ h => Option.some.inj h ▸ List.length_replicate

theorem requestSegment_numbersWidth (size totalParts i l : Nat) :
    (requestSegment size totalParts i l).numbersWidth =
      MessagePack.naturalWidth size + MessagePack.naturalWidth (l * maxEfficientSize) +
        MessagePack.naturalWidth totalParts + MessagePack.naturalWidth i +
        MessagePack.naturalWidth l := by
  have hdata : ((requestSegment size totalParts i l).sender.resource.data.getD []).length = size :=
    List.length_replicate
  rw [Outgoing.numbersWidth, hdata]
  rfl

theorem advertisement_fits_iff_small :
    (requestSegment 100 1 1 2).Fits paddingCrypto (openSealing 1).link (openSealing 1).vector :=
  (advertisement_fits_iff paddingCrypto paddingCrypto_pads (openSealing_established 1) _ _).mpr
    (by decide)

/-- Segment 128 of a response of 200 segments: the advertisement takes 432 bytes. -/
theorem advertisement_fits_false : ¬∀ (c : Crypto), c.Pads → ∀ link : LinkHandle,
    link.Established → ∀ (vector : Bytes.Block 16) (o : Outgoing), o.Fits c link vector := by
  intro h
  have hfits := (h paddingCrypto paddingCrypto_pads _ (openSealing_established 1)
    (openSealing 1).vector (requestSegment 1048640 2260 128 200)).1
  have hlength := length_pack (requestSegment 1048640 2260 128 200)
  have hwidth : (requestSegment 1048640 2260 128 200).numbersWidth = 17 :=
    requestSegment_numbersWidth 1048640 2260 128 200
  have hunused : unusedHashmap (requestSegment 1048640 2260 128 200).sender.resource.totalParts =
      0 := rfl
  have hrequest : (requestSegment 1048640 2260 128 200).requestId.isSome = true := rfl
  have hmdu : linkMdu = 431 := rfl
  rw [hwidth, hunused, hrequest, if_pos rfl] at hlength
  rw [hmdu] at hfits
  -- the length is not to be computed
  generalize ((requestSegment 1048640 2260 128 200).pack 0).length = length at hfits hlength
  omega

end Reticulum.Resource
