import Reticulum.Resource.AdvertisementSize
import Reticulum.Resource.Conclusion

/-!
# The payload of a resource

The receiver puts the segments of a resource together in a file, and the metadata of the first in
another, which it reads for the application after the last (`assemble_stored`). The data and the
proofs agree with the sender's for every resource. The metadata is written as a MessagePack byte
string and read as a row of numbers, and arrives if and only if the library reads the one as the
other (`payload_roundTrip_iff`).

## Implementation notes

`Assembly.assemble` is the same function without the files (`assembleStored_resource`). The disk
takes what is written to it. Both files of a resource are named after its original hash. `readVec`
is `rmp_serde::from_slice::<Vec<u8>>`, and `bunzip` the decoder of the `bzip2` crate.
-/

namespace Reticulum.Resource

/-- The files of a resource: `storagepath` and `meta_storagepath`. -/
structure Files where
  storage : Option Bytes
  metadata : Option Bytes

/-- The resource directory. -/
abbrev Disk := Bytes → Files

/-- A receiving resource, with what its assembly reads and writes beside the operations. -/
structure Incoming where
  resource : Resource
  originalHash : Bytes
  maxDecompressedSize : Nat
  metadata : Bytes
  inputFile : Option Bytes
  /-- `link.decrypt` -/
  decrypt : Bytes → Option Bytes

/-- What an assembly leaves. -/
structure Assembled where
  receiver : Incoming
  disk : Disk
  effects : List Effect
  /-- what goes to `storagepath` -/
  payload : Option Bytes

def boundedDecompress (bunzip : Bytes → Option Bytes) (data : Bytes) (maxSize : Nat) :
    Option Bytes :=
  (bunzip data).filter fun decompressed => decompressed.length ≤ maxSize

/-- What the assembly of a stream reads. -/
def Incoming.decoding (r : Incoming) (bunzip : Bytes → Option Bytes) (combined : Option Bytes) :
    Decoding where
  decrypt := r.decrypt
  decompress data := boundedDecompress bunzip data r.maxDecompressedSize
  storageOk := true
  combined := combined

/-- The metadata and the payload of the data: `none` where slicing panics. -/
def splitMetadata (r : Resource) (data : Bytes) : Option (Option Bytes × Bytes) :=
  if r.hasMetadata ∧ r.segmentIndex = 1 then
    match data with
    | a :: b :: c :: rest =>
        let metadataSize := a.toNat * 65536 + b.toNat * 256 + c.toNat
        if metadataSize ≤ rest.length then
          some (some (rest.take metadataSize), rest.drop metadataSize)
        else none
    | _ => none
  else some (none, data)

/-- The metadata of a segment goes to a new file, its payload behind what is stored. -/
def Files.write (f : Files) (metadata : Option Bytes) (payload : Bytes) : Files where
  storage := some (f.storage.getD [] ++ payload)
  metadata := metadata.or f.metadata

variable (fullHash : Bytes → Digest) (bunzip readVec : Bytes → Option Bytes)

/-- The end of `assemble`: the link is told, and on the last segment the application. -/
def finishStored (r : Incoming) (disk : Disk) (effects : List Effect) (payload : Option Bytes) :
    Assembled :=
  let files := disk r.originalHash
  if r.resource.segmentIndex = r.resource.totalSegments then
    if r.resource.callback then
      { receiver := { r with
          metadata := (files.metadata.bind readVec).getD r.metadata
          inputFile := files.storage.or r.inputFile }
        disk := Function.update disk r.originalHash { storage := none, metadata := none }
        effects := effects ++ [.conclude, .callback r.resource]
        payload := payload }
    else
      { receiver := r
        disk := Function.update disk r.originalHash { files with storage := none }
        effects := effects ++ [.conclude]
        payload := payload }
  else { receiver := r, disk := disk, effects := effects ++ [.conclude], payload := payload }

/-- `Resource::assemble`, with the files. -/
def assembleStored (env : Readings) (r : Incoming) (disk : Disk) : Option Assembled :=
  if r.resource.status = .failed then
    some { receiver := r, disk := disk, effects := [], payload := none }
  else
    match assembledData r.resource (r.decoding bunzip none) with
    | none =>
        let cancelled := { r.resource with status := .corrupt }.cancel env
        some { receiver := { r with resource := cancelled.1 }, disk := disk
               effects := cancelled.2, payload := none }
    | some data =>
        if fullHash (data ++ r.resource.randomHash) = r.resource.hash then
          (splitMetadata r.resource data).map fun (metadata, payload) =>
            let files := (disk r.originalHash).write metadata payload
            let proved :=
              { r.resource with data := some data, status := .complete }.prove fullHash env
            finishStored readVec
              { r with resource := proved.1.segmentData (r.decoding bunzip files.storage) }
              (Function.update disk r.originalHash files) proved.2 (some payload)
        else
          some (finishStored readVec { r with resource := { r.resource with status := .corrupt } }
            disk [] none)

/-- The segments of a resource are assembled one after the other. -/
def assembleAll (env : Nat → Readings) : List Incoming → Disk → Option (List Assembled)
  | [], _ => some []
  | r :: rs, disk =>
      (assembleStored fullHash bunzip readVec (env r.resource.segmentIndex) r disk).bind fun a =>
        (assembleAll env rs a.disk).map (a :: ·)

/-- A sender whose parts are mapped for a segment, under the original hash of the first. -/
structure Sends (fullHash : Bytes → Digest) (truncatedHash : Bytes → Bytes) (originalHash : Bytes)
    (p : Prepared) (s : Sender) : Prop where
  mapped : ∃ callback sdu salts, 1 ≤ sdu ∧
    (p.unmapped callback sdu).mapParts fullHash truncatedHash p.payload
      (if p.segmentIndex = 1 then none else some originalHash) salts = some (.ok s)
  original : s.originalHash = originalHash

/-- A receiver with all parts of a sender, and the fields of its advertisement. -/
structure Receives (s : Sender) (r : Incoming) : Prop where
  status : r.resource.status ≠ .failed
  hash : r.resource.hash = s.resource.hash
  randomHash : r.resource.randomHash = s.resource.randomHash
  encrypted : r.resource.encrypted = s.resource.encrypted
  compressed : r.resource.compressed = s.resource.compressed
  hasMetadata : r.resource.hasMetadata = s.resource.hasMetadata
  segmentIndex : r.resource.segmentIndex = s.resource.segmentIndex
  totalSegments : r.resource.totalSegments = s.resource.totalSegments
  split : r.resource.split = decide (s.resource.totalSegments > 1)
  parts : r.resource.parts = s.resource.parts
  originalHash : r.originalHash = s.originalHash
  maxDecompressedSize : r.maxDecompressedSize = autoCompressMaxSize
  metadata : r.metadata = []

/-- A segment goes from its sender to its receiver over a link that decrypts what it encrypts. -/
structure Carries (c : Crypto) (sealing : Nat → Sealing) (fullHash : Bytes → Digest)
    (truncatedHash : Bytes → Bytes) (originalHash : Bytes) (p : Prepared)
    (t : Sender × Incoming) : Prop where
  sends : Sends fullHash truncatedHash originalHash p t.1
  receives : Receives t.1 t.2
  decrypts : ∀ plaintext token, (sealing p.segmentIndex).link.encrypt c
    (sealing p.segmentIndex).vector plaintext = .ok token → t.2.decrypt token = some plaintext

/-- The proof of a sender's resource is sent, if it can be, and is the expected one. -/
def Proven (env : Nat → Readings) (t : Sender × Incoming) (a : Assembled) : Prop :=
  (env t.1.resource.segmentIndex).sendOk = true → ∃ proof, .proof proof ∈ a.effects ∧
    proof = t.1.resource.hash.1 ++ t.1.resource.expectedProof ∧
    t.1.resource.proofMatches proof = true

/-- All segments are complete and proven, and hold the data in order. The application finds the data
in its file and, if there are several segments, in the resource. -/
structure Delivered (env : Nat → Readings) (data : Bytes) (transfers : List (Sender × Incoming))
    (assembled : List Assembled) : Prop where
  complete : ∀ a ∈ assembled, a.receiver.resource.status = .complete
  proven : List.Forall₂ (Proven env) transfers assembled
  payload : (assembled.filterMap Assembled.payload).flatten = data
  file : ∀ a, assembled.getLast? = some a → a.receiver.resource.callback = true →
    a.receiver.inputFile = some data
  combined : ∀ a, assembled.getLast? = some a → a.receiver.resource.split = true →
    a.receiver.resource.data = some data

/-- The segments are delivered, and the last has the metadata of the sender. -/
def RoundTrip (env : Nat → Readings) (disk : Disk) (data : Bytes) (metadata : Option Bytes)
    (transfers : List (Sender × Incoming)) : Prop :=
  ∃ assembled, assembleAll fullHash bunzip readVec env (transfers.map Prod.snd) disk =
      some assembled ∧
    Delivered env data transfers assembled ∧
    ∀ a, assembled.getLast? = some a → a.receiver.metadata = metadata.getD []

/-- The condition: there is an application to read the metadata for, and a byte string is read back
as a row of numbers. Metadata that is empty needs neither. -/
def MetadataRead (metadata : Option Bytes) (transfers : List (Sender × Incoming)) : Prop :=
  ∀ t, transfers.getLast? = some t → ∀ value, metadata = some value →
    (if t.2.resource.callback then (readVec (MessagePack.bin value)).getD [] else []) = value

variable {fullHash : Bytes → Digest} {truncatedHash : Bytes → Bytes}
  {bunzip readVec : Bytes → Option Bytes} {c : Crypto} {compress : Bytes → Bytes}
  {option : AutoCompressOption} {sealing : Nat → Sealing} {m : Metadata} {content : Bytes}
  {originalHash : Bytes} {metadata : Option Bytes} {env : Nat → Readings}

/-! ## The files do not decide the rest -/

theorem finishStored_resource (r : Incoming) (disk : Disk) (effects : List Effect)
    (payload : Option Bytes) :
    ((finishStored readVec r disk effects payload).receiver.resource,
      (finishStored readVec r disk effects payload).effects) =
        r.resource.finishAssembly effects := by
  unfold finishStored finishAssembly
  dsimp only
  by_cases hlast : r.resource.segmentIndex = r.resource.totalSegments
  · by_cases hcallback : r.resource.callback = true
    · rw [if_pos hlast, if_pos hcallback, if_pos ⟨hlast, hcallback⟩]
    · rw [if_pos hlast, if_neg hcallback, if_neg fun h => hcallback h.2]
  · rw [if_neg hlast, if_neg fun h => hlast h.1]

/-- The metadata lies inside the data if slicing does not panic. -/
theorem isSome_splitMetadata (r : Resource) (data : Bytes) :
    (splitMetadata r data).isSome = metadataFits r data := by
  unfold splitMetadata metadataFits
  by_cases hmetadata : r.hasMetadata = true ∧ r.segmentIndex = 1
  · rw [if_pos hmetadata, if_pos hmetadata]
    obtain _ | ⟨a, _ | ⟨b, _ | ⟨c, rest⟩⟩⟩ := data
    · rfl
    · rfl
    · rfl
    · dsimp only
      split
      · rename_i hfits
        exact (decide_eq_true hfits).symm
      · rename_i hfits
        exact (decide_eq_false hfits).symm
  · rw [if_neg hmetadata, if_neg hmetadata]
    rfl

/-- Without the files, it is the assembly of the other modules. -/
theorem assembleStored_resource (env : Readings) (r : Incoming) (disk : Disk) : ∃ combined,
    (assembleStored fullHash bunzip readVec env r disk).map
        (fun a => (a.receiver.resource, a.effects)) =
      r.resource.assemble fullHash (r.decoding bunzip combined) env := by
  unfold assembleStored assemble
  by_cases hfailed : r.resource.status = .failed
  · rw [if_pos hfailed]
    simp only [if_pos hfailed]
    exact ⟨none, rfl⟩
  simp only [if_neg hfailed]
  have hsame : ∀ combined, assembledData r.resource (r.decoding bunzip combined) =
      assembledData r.resource (r.decoding bunzip none) := fun _ => rfl
  simp only [hsame]
  cases assembledData r.resource (r.decoding bunzip none) with
  | none => exact ⟨none, rfl⟩
  | some data =>
      dsimp only
      by_cases hmatches : fullHash (data ++ r.resource.randomHash) = r.resource.hash
      · simp only [if_pos hmatches]
        rw [← isSome_splitMetadata]
        cases splitMetadata r.resource data with
        | none => exact ⟨none, rfl⟩
        | some parts =>
            refine ⟨((disk r.originalHash).write parts.1 parts.2).storage, ?_⟩
            exact congrArg some (finishStored_resource _ _ _ _)
      · simp only [if_neg hmatches]
        exact ⟨none, congrArg some (finishStored_resource _ _ _ _)⟩

/-! ## One segment -/

/-- The resource of a sender for a segment. -/
structure Sent (fullHash : Bytes → Digest) (p : Prepared) (r : Resource) : Prop where
  hash : r.hash = fullHash (p.payload ++ r.randomHash)
  expectedProof : r.expectedProof = (fullHash (p.payload ++ r.hash.1)).1
  encrypted : r.encrypted = true
  compressed : r.compressed = p.compressed
  hasMetadata : r.hasMetadata = p.hasMetadata
  segmentIndex : r.segmentIndex = p.segmentIndex
  totalSegments : r.totalSegments = p.totalSegments
  stream : (r.parts.filterMap id).flatten = p.stream

variable {transfers : List (Sender × Incoming)} {i : Nat} {p : Prepared} {t : Sender × Incoming}

theorem Sends.sent {s : Sender} (h : Sends fullHash truncatedHash originalHash p s) :
    Sent fullHash p s.resource := by
  obtain ⟨callback, sdu, salts, hsdu, hmapped⟩ := h.mapped
  obtain ⟨salt, packets, -, hpass, rfl⟩ :=
    Sender.mapLoop_some (Sender.mapLoop_of_mapParts rfl hmapped)
  exact ⟨rfl, rfl, rfl, rfl, rfl, rfl, rfl, Sender.flatten_withMap hsdu rfl hpass⟩

/-- A sender completes on the proof that it expects. -/
theorem Sent.proofMatches {r : Resource} (h : Sent fullHash p r) :
    r.proofMatches (r.hash.1 ++ r.expectedProof) = true := by
  have hlength : r.expectedProof.length = 32 := by
    rw [h.expectedProof]
    exact (fullHash _).2
  refine decide_eq_true ⟨?_, List.drop_left' r.hash.2⟩
  rw [List.length_append, r.hash.2, hlength]

/-- What was sent is what is shown: decompression undoes compression up to the bound. -/
theorem boundedDecompress_compress (hbunzip : ∀ payload, bunzip (compress payload) = some payload)
    {payload : Bytes} (hle : payload.length ≤ autoCompressMaxSize) :
    boundedDecompress bunzip (compress payload) autoCompressMaxSize = some payload := by
  unfold boundedDecompress
  rw [hbunzip, Option.filter_some, if_pos (decide_eq_true hle)]

/-- The payload of a segment is far below the bound of the decompression. -/
theorem length_segmentPayload_le (hmetadata : prepareMetadata metadata 0 = .ok m) (i : Nat) :
    (segmentPayload m content i).length ≤ autoCompressMaxSize := by
  have hslice : (segmentSlice m.size content i).length ≤ maxEfficientSize := by
    rw [length_segmentSlice, segmentLength]
    split <;> omega
  have hbytes : m.bytes.length ≤ 3 + metadataMaxSize := by
    rcases prepareMetadata_ok hmetadata with ⟨-, rfl⟩ | ⟨value, -, hle, rfl⟩
    · exact Nat.zero_le _
    · rw [List.length_append, Fields.length_bigEndian]
      exact Nat.add_le_add_left hle 3
  unfold segmentPayload
  unfold maxEfficientSize at hslice
  unfold metadataMaxSize at hbytes
  unfold autoCompressMaxSize
  split
  · rw [List.length_append]
    omega
  · rw [List.nil_append]
    omega

/-- The receiver gets the payload of a segment back from its parts. -/
theorem assembledData_carries (hbunzip : ∀ payload, bunzip (compress payload) = some payload)
    (hmetadata : prepareMetadata metadata 0 = .ok m)
    (hsegment : IsSegment c compress option sealing m content i p)
    (hcarries : Carries c sealing fullHash truncatedHash originalHash p t)
    (combined : Option Bytes) :
    assembledData t.2.resource (t.2.decoding bunzip combined) =
      some (segmentPayload m content i) := by
  obtain rfl := hsegment.segmentIndex
  have hsent := hcarries.sends.sent
  have hreceives := hcarries.receives
  have hdecrypted := hcarries.decrypts _ _ hsegment.stream
  have hprefix : ((sealing p.segmentIndex).randomPrefix.1 ++
      (sentPayload compress option p.payload).1).drop randomHashSize =
        (sentPayload compress option p.payload).1 :=
    List.drop_left' (sealing p.segmentIndex).randomPrefix.2
  have hlong : ((sealing p.segmentIndex).randomPrefix.1 ++
      (sentPayload compress option p.payload).1).length ≥ randomHashSize := by
    rw [List.length_append, (sealing p.segmentIndex).randomPrefix.2]
    exact Nat.le_add_right _ _
  unfold assembledData
  rw [hreceives.parts, hsent.stream, hreceives.encrypted, hsent.encrypted]
  dsimp only [Incoming.decoding]
  rw [if_pos rfl, hdecrypted, Option.getD_some, if_pos hlong, hprefix, hreceives.compressed,
    hsent.compressed, hsegment.compressed, hreceives.maxDecompressedSize, ← hsegment.payload]
  unfold sentPayload
  split
  · rw [if_pos rfl]
    apply boundedDecompress_compress hbunzip
    rw [hsegment.payload]
    exact length_segmentPayload_le hmetadata _
  · rfl

/-- The files before segment `i` is assembled. -/
def filesAt (m : Metadata) (metadata : Option Bytes) (content : Bytes) (i : Nat) : Files :=
  if i = 1 then { storage := none, metadata := none }
  else { storage := some (content.take (segmentStart m.size i))
         metadata := metadata.map MessagePack.bin }

/-- The metadata that the first segment brings. -/
def metadataAt (metadata : Option Bytes) (i : Nat) : Option Bytes :=
  if i = 1 then metadata.map MessagePack.bin else none

theorem write_filesAt (m : Metadata) (metadata : Option Bytes) (content : Bytes) (hi : 1 ≤ i) :
    (filesAt m metadata content i).write (metadataAt metadata i)
      (segmentSlice m.size content i) = filesAt m metadata content (i + 1) := by
  have hlater : i + 1 ≠ 1 := by omega
  unfold filesAt metadataAt Files.write
  rw [if_neg hlater, segmentStart_succ m.size hi, List.take_add]
  by_cases hfirst : i = 1
  · subst i
    simp [segmentSlice, segmentStart]
  · simp only [if_neg hfirst, Option.getD_some, Option.none_or]
    rfl

/-- The receiver takes the metadata out where the sender put it. -/
theorem splitMetadata_segmentPayload (hmetadata : prepareMetadata metadata 0 = .ok m) {r : Resource}
    (hpresent : r.hasMetadata = m.present) (hindex : r.segmentIndex = i) :
    splitMetadata r (segmentPayload m content i) =
      some (metadataAt metadata i, segmentSlice m.size content i) := by
  unfold splitMetadata segmentPayload metadataAt
  rw [hpresent, hindex]
  by_cases hfirst : i = 1
  swap
  · rw [if_neg fun h => hfirst h.2, if_neg hfirst, if_neg hfirst]
    rfl
  rw [if_pos hfirst, if_pos hfirst]
  rcases prepareMetadata_ok hmetadata with ⟨rfl, rfl⟩ | ⟨value, rfl, hle, rfl⟩
  · rw [if_neg fun h => Bool.false_ne_true h.1]
    rfl
  · rw [if_pos ⟨rfl, hfirst⟩, Option.map_some]
    unfold metadataMaxSize at hle
    generalize MessagePack.bin value = packed at hle ⊢
    have hsize : (UInt8.ofNat (packed.length / 256 / 256)).toNat * 65536 +
        (UInt8.ofNat (packed.length / 256)).toNat * 256 + (UInt8.ofNat packed.length).toNat =
          packed.length := by
      simp only [UInt8.toNat_ofNat']
      omega
    have hheader : Fields.bigEndian 3 packed.length = [UInt8.ofNat (packed.length / 256 / 256),
        UInt8.ofNat (packed.length / 256), UInt8.ofNat packed.length] := rfl
    rw [hheader]
    dsimp only [List.cons_append, List.nil_append]
    rw [hsize, if_pos (by rw [List.length_append]; exact Nat.le_add_right _ _), List.take_left,
      List.drop_left]

/-- A resource whose data matches the hash. -/
def completed (r : Resource) (data : Bytes) : Resource :=
  { r with data := some data, status := .complete }

/-- A receiver whose data matches the hash, at the end of its assembly. -/
def Incoming.completed (bunzip : Bytes → Option Bytes) (r : Incoming) (data : Bytes)
    (combined : Option Bytes) : Incoming :=
  { r with resource := (r.resource.completed data).segmentData (r.decoding bunzip combined) }

/-- The assembly of a segment, up to its end. -/
theorem assembleStored_carries (hbunzip : ∀ payload, bunzip (compress payload) = some payload)
    (hmetadata : prepareMetadata metadata 0 = .ok m) (hi : 1 ≤ i)
    (hsegment : IsSegment c compress option sealing m content i p)
    (hcarries : Carries c sealing fullHash truncatedHash originalHash p t) (env : Readings)
    {disk : Disk} (hdisk : disk originalHash = filesAt m metadata content i) :
    assembleStored fullHash bunzip readVec env t.2 disk = some (finishStored readVec
      (t.2.completed bunzip p.payload (filesAt m metadata content (i + 1)).storage)
      (Function.update disk t.2.originalHash (filesAt m metadata content (i + 1)))
      ((t.2.resource.completed p.payload).prove fullHash env).2
      (some (segmentSlice m.size content i))) := by
  have hsent := hcarries.sends.sent
  have hreceives := hcarries.receives
  have hpresent : t.2.resource.hasMetadata = m.present :=
    (hreceives.hasMetadata.trans hsent.hasMetadata).trans hsegment.hasMetadata
  have hindex : t.2.resource.segmentIndex = i :=
    (hreceives.segmentIndex.trans hsent.segmentIndex).trans hsegment.segmentIndex
  have hmatches : fullHash (p.payload ++ t.2.resource.randomHash) = t.2.resource.hash := by
    rw [hreceives.randomHash, hreceives.hash]
    exact hsent.hash.symm
  have hname : t.2.originalHash = originalHash :=
    hreceives.originalHash.trans hcarries.sends.original
  have hproved := (prove_complete fullHash env (r := t.2.resource.completed p.payload) rfl).1
  unfold assembleStored
  rw [if_neg hreceives.status, assembledData_carries hbunzip hmetadata hsegment hcarries,
    ← hsegment.payload]
  dsimp only
  rw [if_pos hmatches, hsegment.payload, splitMetadata_segmentPayload hmetadata hpresent hindex,
    ← hsegment.payload, Option.map_some]
  dsimp only
  unfold Incoming.completed
  unfold completed at hproved ⊢
  rw [hproved, hname, hdisk, write_filesAt m metadata content hi]

theorem finishStored_payload (r : Incoming) (disk : Disk) (effects : List Effect)
    (payload : Option Bytes) : (finishStored readVec r disk effects payload).payload = payload := by
  unfold finishStored
  dsimp only
  split
  · split <;> rfl
  · rfl

/-- A segment before the last leaves its files to the next. -/
theorem finishStored_disk {r : Incoming} (disk : Disk) (effects : List Effect)
    (payload : Option Bytes) (h : r.resource.segmentIndex ≠ r.resource.totalSegments) :
    (finishStored readVec r disk effects payload).disk = disk := by
  unfold finishStored
  exact congrArg Assembled.disk (if_neg h)

/-- What the application finds after the last segment. -/
theorem finishStored_last {r : Incoming} (disk : Disk) (effects : List Effect)
    (payload : Option Bytes) (h : r.resource.segmentIndex = r.resource.totalSegments) :
    (finishStored readVec r disk effects payload).receiver.metadata =
        (if r.resource.callback then
          ((disk r.originalHash).metadata.bind readVec).getD r.metadata else r.metadata) ∧
      (r.resource.callback = true →
        (finishStored readVec r disk effects payload).receiver.inputFile =
          (disk r.originalHash).storage.or r.inputFile) := by
  unfold finishStored
  dsimp only
  rw [if_pos h]
  by_cases hcallback : r.resource.callback = true
  · rw [if_pos hcallback, if_pos hcallback]
    exact ⟨rfl, fun _ => rfl⟩
  · rw [if_neg hcallback, if_neg hcallback]
    exact ⟨rfl, fun hsome => absurd hsome hcallback⟩

/-- The metadata that the application finds. -/
def foundMetadata (readVec : Bytes → Option Bytes) (callback : Bool) (metadata : Option Bytes) :
    Bytes :=
  if callback then ((metadata.map MessagePack.bin).bind readVec).getD [] else []

/-- Segment `i` as it is assembled. -/
structure AssembledAt (readVec : Bytes → Option Bytes) (m : Metadata) (metadata : Option Bytes)
    (content originalHash : Bytes) (env : Nat → Readings) (i : Nat) (t : Sender × Incoming)
    (a : Assembled) : Prop where
  complete : a.receiver.resource.status = .complete
  proven : Proven env t a
  payload : a.payload = some (segmentSlice m.size content i)
  disk : i < segmentCount (content.length + m.size) →
    a.disk originalHash = filesAt m metadata content (i + 1)
  found : i = segmentCount (content.length + m.size) →
    a.receiver.metadata = foundMetadata readVec t.2.resource.callback metadata
  file : i = segmentCount (content.length + m.size) → a.receiver.resource.callback = true →
    a.receiver.inputFile = some content
  combined : i = segmentCount (content.length + m.size) → a.receiver.resource.split = true →
    a.receiver.resource.data = some content

/-- After the last segment the file holds all data. -/
theorem filesAt_end (m : Metadata) (metadata : Option Bytes) (content : Bytes) :
    filesAt m metadata content (segmentCount (content.length + m.size) + 1) =
      { storage := some content, metadata := metadata.map MessagePack.bin } := by
  have hlater : segmentCount (content.length + m.size) + 1 ≠ 1 :=
    fun h => absurd (Nat.succ.inj h) (Nat.succ_ne_zero _)
  unfold filesAt
  rw [if_neg hlater, List.take_of_length_le (le_segmentStart m.size content.length)]

/-- The proof that is sent is the one that the sender expects. -/
theorem prove_proof (env : Readings) {r : Resource} (h : r.status = .complete)
    (hsend : env.sendOk = true) :
    (r.prove fullHash env).2 =
      [.proof (r.hash.1 ++ (fullHash (r.data.getD [] ++ r.hash.1)).1)] := by
  unfold prove
  rw [h, if_neg (by decide), if_pos hsend]

theorem proven_completed {a : Assembled}
    (hsent : Sent fullHash p t.1.resource) (hreceives : Receives t.1 t.2)
    (heffects : ((t.2.resource.completed p.payload).prove fullHash
      (env t.1.resource.segmentIndex)).2 ⊆ a.effects) :
    Proven env t a := by
  intro hsend
  refine ⟨_, heffects ?_, rfl, hsent.proofMatches⟩
  have hproof : (fullHash (p.payload ++ t.2.resource.hash.1)).1 = t.1.resource.expectedProof := by
    rw [hreceives.hash]
    exact hsent.expectedProof.symm
  rw [prove_proof _ rfl hsend, List.mem_singleton, ← hproof, ← hreceives.hash]
  rfl

theorem effects_subset_finishStored (r : Incoming) (disk : Disk) (effects : List Effect)
    (payload : Option Bytes) : effects ⊆ (finishStored readVec r disk effects payload).effects := by
  have hsame : (finishStored readVec r disk effects payload).effects =
      (r.resource.finishAssembly effects).2 :=
    congrArg Prod.snd (finishStored_resource r disk effects payload)
  rw [hsame]
  exact List.subset_append_left effects _

/-- The fields that the end of an assembly keeps. -/
structure SameSegment (r r' : Resource) : Prop where
  segmentIndex : r'.segmentIndex = r.segmentIndex
  totalSegments : r'.totalSegments = r.totalSegments
  callback : r'.callback = r.callback
  split : r'.split = r.split

theorem completed_sameSegment (r : Incoming) (data : Bytes) (combined : Option Bytes) :
    SameSegment r.resource (r.completed bunzip data combined).resource := by
  unfold Incoming.completed segmentData
  dsimp only
  split <;> exact ⟨rfl, rfl, rfl, rfl⟩

theorem completed_data {r : Incoming} (data : Bytes) (combined : Option Bytes)
    (hsplit : r.resource.split = true)
    (hlast : r.resource.segmentIndex = r.resource.totalSegments) :
    (r.completed bunzip data combined).resource.data = combined := by
  have hshown : (r.completed bunzip data combined).resource =
      { r.resource.completed data with
        data := if r.resource.segmentIndex = r.resource.totalSegments then combined else none } :=
    if_pos hsplit
  rw [hshown]
  exact if_pos hlast

/-- Each segment is assembled from the files that the one before it leaves. -/
theorem assembleStored_assembledAt (hbunzip : ∀ payload, bunzip (compress payload) = some payload)
    (hmetadata : prepareMetadata metadata 0 = .ok m) (hi : 1 ≤ i)
    (hsegment : IsSegment c compress option sealing m content i p)
    (hcarries : Carries c sealing fullHash truncatedHash originalHash p t) {disk : Disk}
    (hdisk : disk originalHash = filesAt m metadata content i) :
    ∃ a, assembleStored fullHash bunzip readVec (env t.2.resource.segmentIndex) t.2 disk = some a ∧
      AssembledAt readVec m metadata content originalHash env i t a := by
  have hsent := hcarries.sends.sent
  have hreceives := hcarries.receives
  have hindex : t.2.resource.segmentIndex = i :=
    (hreceives.segmentIndex.trans hsent.segmentIndex).trans hsegment.segmentIndex
  have htotal : t.2.resource.totalSegments = segmentCount (content.length + m.size) :=
    (hreceives.totalSegments.trans hsent.totalSegments).trans hsegment.totalSegments
  have hname : t.2.originalHash = originalHash :=
    hreceives.originalHash.trans hcarries.sends.original
  refine ⟨_, assembleStored_carries hbunzip hmetadata hi hsegment hcarries _ hdisk, ?_⟩
  generalize hdone : t.2.completed bunzip p.payload (filesAt m metadata content (i + 1)).storage =
    done
  generalize heffects : ((t.2.resource.completed p.payload).prove fullHash
    (env t.2.resource.segmentIndex)).2 = effects
  have hsame : SameSegment t.2.resource done.resource := hdone ▸ completed_sameSegment t.2 _ _
  have hresource (disk : Disk) (payload : Option Bytes) :
      (finishStored readVec done disk effects payload).receiver.resource = done.resource :=
    congrArg Prod.fst (finishStored_resource done disk effects payload)
  have hempty : done.metadata = [] := by
    rw [← hdone]
    exact hreceives.metadata
  have hnamed : done.originalHash = originalHash := by
    rw [← hdone]
    exact hname
  have hlastOf (hlast : i = segmentCount (content.length + m.size)) :
      done.resource.segmentIndex = done.resource.totalSegments := by
    rw [hsame.segmentIndex, hsame.totalSegments, hindex, htotal, hlast]
  have hfiles (hlast : i = segmentCount (content.length + m.size)) :
      Function.update disk t.2.originalHash (filesAt m metadata content (i + 1)) done.originalHash =
        { storage := some content, metadata := metadata.map MessagePack.bin } := by
    rw [hname, hnamed, Function.update_self, hlast, filesAt_end]
  constructor
  · rw [hresource, ← hdone]
    exact status_segmentData _
  · apply proven_completed hsent hreceives
    rw [← hreceives.segmentIndex, heffects]
    exact effects_subset_finishStored _ _ _ _
  · exact finishStored_payload _ _ _ _
  · intro hlt
    rw [finishStored_disk _ _ _ (by rw [hsame.segmentIndex, hsame.totalSegments]; omega), hname,
      Function.update_self]
  · intro hlast
    rw [(finishStored_last _ _ _ (hlastOf hlast)).1, hfiles hlast, hsame.callback, hempty]
    rfl
  · intro hlast hcallback
    rw [hresource] at hcallback
    rw [(finishStored_last _ _ _ (hlastOf hlast)).2 hcallback, hfiles hlast]
    rfl
  · intro hlast hsplit
    have hend := hlastOf hlast
    rw [hresource, hsame.split] at hsplit
    rw [hsame.segmentIndex, hsame.totalSegments] at hend
    rw [hresource, ← hdone, completed_data p.payload _ hsplit hend, hlast, filesAt_end]

/-! ## All segments -/

/-- A segment of the data and its transfer. -/
def CarriesAt (c : Crypto) (compress : Bytes → Bytes) (option : AutoCompressOption)
    (sealing : Nat → Sealing) (m : Metadata) (content : Bytes) (fullHash : Bytes → Digest)
    (truncatedHash : Bytes → Bytes) (originalHash : Bytes) (i : Nat) (t : Sender × Incoming) :
    Prop :=
  ∃ p, IsSegment c compress option sealing m content i p ∧
    Carries c sealing fullHash truncatedHash originalHash p t

theorem CarriesAt.segmentIndex
    (h : CarriesAt c compress option sealing m content fullHash truncatedHash originalHash i t) :
    t.2.resource.segmentIndex = i := by
  obtain ⟨p, hsegment, hcarries⟩ := h
  calc t.2.resource.segmentIndex = t.1.resource.segmentIndex := hcarries.receives.segmentIndex
    _ = p.segmentIndex := hcarries.sends.sent.segmentIndex
    _ = i := hsegment.segmentIndex

/-- The segments from one on are assembled. -/
theorem assembleAll_assembledAt (readVec : Bytes → Option Bytes) (env : Nat → Readings)
    (hbunzip : ∀ payload, bunzip (compress payload) = some payload)
    (hmetadata : prepareMetadata metadata 0 = .ok m)
    {i k : Nat} (hi : 1 ≤ i) (hend : i + k = segmentCount (content.length + m.size) + 1)
    (h : List.Forall₂ (CarriesAt c compress option sealing m content fullHash truncatedHash
      originalHash) (List.range' i k) transfers)
    {disk : Disk} (hdisk : 1 ≤ k → disk originalHash = filesAt m metadata content i) :
    ∃ assembled, assembleAll fullHash bunzip readVec env (transfers.map Prod.snd) disk =
        some assembled ∧
      List.Forall₂ (fun t a => AssembledAt readVec m metadata content originalHash env
        t.2.resource.segmentIndex t a) transfers assembled := by
  induction k generalizing i transfers disk with
  | zero =>
      cases h
      exact ⟨[], rfl, .nil⟩
  | succ k ih =>
      rw [List.range'_succ] at h
      obtain _ | ⟨hfirst, hrest⟩ := h
      rename_i t transfers
      have hindex := hfirst.segmentIndex
      obtain ⟨p, hsegment, hcarries⟩ := hfirst
      obtain ⟨a, ha, hat⟩ := assembleStored_assembledAt hbunzip hmetadata hi hsegment hcarries
        (hdisk (Nat.le_add_left 1 k))
      obtain ⟨assembled, hassembled, hall⟩ := ih (Nat.le_add_left 1 i) (by omega) hrest
        fun hmore => hat.disk (by omega)
      refine ⟨a :: assembled, ?_, .cons (hindex.symm ▸ hat) hall⟩
      rw [List.map_cons, assembleAll, ha, Option.bind_some, hassembled]
      rfl

/-- The last of entries that are related one by one. -/
theorem getLast?_of_forall₂ {α β : Type*} {R : α → β → Prop} {as : List α} {bs : List β}
    (h : List.Forall₂ R as bs) {b : β} (hb : bs.getLast? = some b) :
    ∃ a, as.getLast? = some a ∧ R a b := by
  have hreverse := List.rel_reverse h
  rw [List.getLast?_eq_head?_reverse] at hb ⊢
  generalize as.reverse = as at hreverse ⊢
  generalize bs.reverse = bs at hreverse hb
  cases hreverse with
  | nil => cases hb
  | cons hab _ =>
      obtain rfl := Option.some.inj hb
      exact ⟨_, rfl, hab⟩

/-- The segments hold the data in order. -/
theorem flatten_payloads {assembled : List Assembled}
    (hindices : transfers.map (fun t => t.2.resource.segmentIndex) =
      List.range' 1 (segmentCount (content.length + m.size)))
    (hall : List.Forall₂ (fun t a => AssembledAt readVec m metadata content originalHash env
      t.2.resource.segmentIndex t a) transfers assembled) :
    (assembled.filterMap Assembled.payload).flatten = content := by
  have hpayloads : assembled.filterMap Assembled.payload =
      (List.range' 1 (segmentCount (content.length + m.size))).map
        (segmentSlice m.size content) := by
    rw [← hindices, List.map_map]
    clear hindices
    induction hall with
    | nil => rfl
    | cons hat _ ih => rw [List.filterMap_cons_some hat.payload, ih, List.map_cons]; rfl
  rw [hpayloads, flatten_segmentSlice]
  exact List.take_of_length_le (le_segmentStart m.size content.length)

/-- All segments are delivered, and the application finds the metadata if it is read. -/
theorem assembleAll_delivered (readVec : Bytes → Option Bytes) (env : Nat → Readings)
    (hbunzip : ∀ payload, bunzip (compress payload) = some payload)
    (hmetadata : prepareMetadata metadata 0 = .ok m)
    (h : List.Forall₂ (CarriesAt c compress option sealing m content fullHash truncatedHash
      originalHash) (List.range' 1 (segmentCount (content.length + m.size))) transfers)
    {disk : Disk} (hdisk : disk originalHash = { storage := none, metadata := none }) :
    ∃ assembled, assembleAll fullHash bunzip readVec env (transfers.map Prod.snd) disk =
        some assembled ∧
      Delivered env content transfers assembled ∧
      ∀ a, assembled.getLast? = some a → ∃ t, transfers.getLast? = some t ∧
        a.receiver.metadata = foundMetadata readVec t.2.resource.callback metadata := by
  obtain ⟨assembled, hassembled, hall⟩ := assembleAll_assembledAt readVec env hbunzip hmetadata
    le_rfl (Nat.add_comm 1 _) h fun _ => hdisk
  have hindices : transfers.map (fun t => t.2.resource.segmentIndex) =
      List.range' 1 (segmentCount (content.length + m.size)) :=
    (map_eq_of_forall₂ (fun _ _ hat => hat.segmentIndex) h).trans (List.map_id _)
  have hlast {t : Sender × Incoming} (ht : transfers.getLast? = some t) :
      t.2.resource.segmentIndex = segmentCount (content.length + m.size) := by
    have hend := List.getLast?_range' (s := 1) (n := segmentCount (content.length + m.size))
    have hsome : segmentCount (content.length + m.size) ≠ 0 := Nat.succ_ne_zero _
    rw [← hindices, List.getLast?_map, ht, if_neg hsome] at hend
    have hindex : t.2.resource.segmentIndex =
        1 + segmentCount (content.length + m.size) - 1 := Option.some.inj hend
    rw [hindex, Nat.add_sub_cancel_left]
  refine ⟨assembled, hassembled, ⟨?_, ?_, flatten_payloads hindices hall, ?_, ?_⟩, ?_⟩
  · exact (forall_mem_iff_of_forall₂ (Q := fun _ => True)
      (fun _ _ hat => iff_of_true hat.complete trivial) hall).mpr fun _ _ => trivial
  · exact hall.imp fun _ _ hat => hat.proven
  · intro a ha
    obtain ⟨t, ht, hat⟩ := getLast?_of_forall₂ hall ha
    exact hat.file (hlast ht)
  · intro a ha
    obtain ⟨t, ht, hat⟩ := getLast?_of_forall₂ hall ha
    exact hat.combined (hlast ht)
  · intro a ha
    obtain ⟨t, ht, hat⟩ := getLast?_of_forall₂ hall ha
    exact ⟨t, ht, hat.found (hlast ht)⟩

/-- Segments that are prepared and carried. -/
theorem carriesAt_of_segmentsOf (hlinks : ∀ i, (sealing i).link.Established)
    {data : ResourceData} {segments : List Prepared}
    (hsegments : segmentsOf c compress option sealing data metadata = .ok segments)
    (htransfers : List.Forall₂ (Carries c sealing fullHash truncatedHash originalHash) segments
      transfers) :
    ∃ m, prepareMetadata metadata 0 = .ok m ∧
      List.Forall₂ (CarriesAt c compress option sealing m data.content fullHash truncatedHash
        originalHash) (List.range' 1 (segmentCount (data.content.length + m.size))) transfers := by
  cases hmetadata : prepareMetadata metadata 0 with
  | error e =>
      unfold segmentsOf newInternal at hsegments
      rw [hmetadata] at hsegments
      cases hsegments
  | ok m =>
      obtain ⟨others, hothers, hprepared⟩ :=
        segmentsOf_segments c compress option hlinks data hmetadata
      obtain rfl := Except.ok.inj (hothers.symm.trans hsegments)
      refine ⟨m, rfl, ?_⟩
      clear hothers hsegments
      generalize List.range' 1 (segmentCount (data.content.length + m.size)) = indices
        at hprepared ⊢
      induction hprepared generalizing transfers with
      | nil =>
          cases htransfers
          exact .nil
      | cons hsegment _ ih =>
          obtain _ | ⟨hcarries, hrest⟩ := htransfers
          exact .cons ⟨_, hsegment, hcarries⟩ (ih hrest)

/-- What the application finds is what was attached, under the condition. -/
theorem foundMetadata_eq_iff (readVec : Bytes → Option Bytes) (callback : Bool)
    (metadata : Option Bytes) :
    foundMetadata readVec callback metadata = metadata.getD [] ↔ ∀ value, metadata = some value →
      (if callback then (readVec (MessagePack.bin value)).getD [] else []) = value := by
  cases metadata with
  | none =>
      refine iff_of_true ?_ fun _ hsome => absurd hsome.symm (Option.some_ne_none _)
      unfold foundMetadata
      split <;> rfl
  | some value =>
      constructor
      · intro hfound _ hsome
        obtain rfl := Option.some.inj hsome
        exact hfound
      · exact fun hread => hread value rfl

/-- The application finds the metadata of the sender under the condition, and only then. -/
theorem roundTrip_of_carriesAt (readVec : Bytes → Option Bytes) (env : Nat → Readings)
    (hbunzip : ∀ payload, bunzip (compress payload) = some payload)
    (hmetadata : prepareMetadata metadata 0 = .ok m)
    (h : List.Forall₂ (CarriesAt c compress option sealing m content fullHash truncatedHash
      originalHash) (List.range' 1 (segmentCount (content.length + m.size))) transfers)
    {disk : Disk} (hdisk : disk originalHash = { storage := none, metadata := none }) :
    RoundTrip fullHash bunzip readVec env disk content metadata transfers ↔
      MetadataRead readVec metadata transfers := by
  obtain ⟨assembled, hassembled, hdelivered, hfound⟩ :=
    assembleAll_delivered readVec env hbunzip hmetadata h hdisk
  constructor
  · rintro ⟨others, hothers, -, harrives⟩ t ht
    obtain rfl := Option.some.inj (hassembled.symm.trans hothers)
    obtain ⟨a, ha, -⟩ := getLast?_of_forall₂ hdelivered.proven.flip ht
    obtain ⟨t', ht', hmetadata'⟩ := hfound a ha
    obtain rfl := Option.some.inj (ht.symm.trans ht')
    exact (foundMetadata_eq_iff readVec _ metadata).mp (hmetadata'.symm.trans (harrives a ha))
  · intro hread
    refine ⟨assembled, hassembled, hdelivered, fun a ha => ?_⟩
    obtain ⟨t, ht, hmetadata'⟩ := hfound a ha
    exact hmetadata'.trans ((foundMetadata_eq_iff readVec _ metadata).mpr (hread t ht))

/-- For all data and metadata, all compression and every `sdu` of at least one, the segments are
delivered and their proofs are the expected ones, and the application finds the metadata if and only
if there is one to read it for, and the byte string that was written is read back as a row of
numbers. -/
theorem payload_roundTrip_iff (c : Crypto) (compress : Bytes → Bytes) (option : AutoCompressOption)
    (sealing : Nat → Sealing) (hlinks : ∀ i, (sealing i).link.Established)
    {bunzip : Bytes → Option Bytes} (hbunzip : ∀ payload, bunzip (compress payload) = some payload)
    (readVec : Bytes → Option Bytes) (fullHash : Bytes → Digest) (truncatedHash : Bytes → Bytes)
    (data : ResourceData) {metadata : Option Bytes} {segments : List Prepared}
    (hsegments : segmentsOf c compress option sealing data metadata = .ok segments)
    {originalHash : Bytes} {transfers : List (Sender × Incoming)}
    (htransfers : List.Forall₂ (Carries c sealing fullHash truncatedHash originalHash) segments
      transfers)
    (env : Nat → Readings) {disk : Disk}
    (hdisk : disk originalHash = { storage := none, metadata := none }) :
    RoundTrip fullHash bunzip readVec env disk data.content metadata transfers ↔
      MetadataRead readVec metadata transfers := by
  obtain ⟨m, hmetadata, hcarries⟩ := carriesAt_of_segmentsOf hlinks hsegments htransfers
  exact roundTrip_of_carriesAt readVec env hbunzip hmetadata hcarries hdisk

/-- What `accept` makes of an advertisement receives the sender, once it has all parts. -/
theorem receives_of_accept {s : Sender} {window : Option Nat} {callback : Bool} {r : Resource}
    (h : accept s.resource.advertisement window callback = some r)
    (decrypt : Bytes → Option Bytes) :
    Receives s
      { resource := { r with parts := s.resource.parts }
        originalHash := s.originalHash
        maxDecompressedSize := autoCompressMaxSize
        metadata := []
        inputFile := none
        decrypt := decrypt } := by
  unfold accept at h
  split at h
  · cases h
  · obtain rfl := Option.some.inj h
    constructor <;> first | rfl | exact ResourceStatus.noConfusion

/-! ## Examples -/

/-- The decryption of a cipher that changes nothing: the vector and the HMAC are cut off. -/
def plainDecrypt (token : Bytes) : Option Bytes := some ((token.drop 16).take (token.length - 48))

theorem plainDecrypt_encrypt {plaintext token : Bytes}
    (h : (openSealing i).link.encrypt (Link.sampleCrypto []) (openSealing i).vector plaintext =
      .ok token) : plainDecrypt token = some plaintext := by
  have hencrypt : ∃ hmac : Bytes.Block 32, (openSealing i).link.encrypt (Link.sampleCrypto [])
      (openSealing i).vector plaintext = .ok ((openSealing i).vector.1 ++ plaintext ++ hmac.1) :=
    ⟨_, rfl⟩
  obtain ⟨hmac, htoken⟩ := hencrypt
  obtain rfl := Except.ok.inj (htoken.symm.trans h)
  have hvector : (openSealing i).vector.1.length = 16 := (openSealing i).vector.2
  have hlength : ((openSealing i).vector.1 ++ plaintext ++ hmac.1).length - 48 =
      plaintext.length := by
    rw [List.length_append, List.length_append, hvector, hmac.2]
    omega
  unfold plainDecrypt
  rw [hlength, List.append_assoc, List.drop_left' hvector, List.take_left]

/-- A segment that is one part is mapped under every salt. -/
theorem exists_mapParts (fullHash : Bytes → Digest) (truncatedHash : Bytes → Bytes)
    (hstream : 0 < p.stream.length) (originalHash : Option Bytes) (salt : Bytes) :
    ∃ s, (p.unmapped false p.stream.length).mapParts fullHash truncatedHash p.payload originalHash
      [salt] = some (.ok s) := by
  have htotal : (p.stream.length + p.stream.length - 1) / p.stream.length = 1 :=
    Nat.div_eq_of_lt_le (by omega) (by omega)
  have hchunks : Sender.chunks p.stream.length
      ((p.stream.length + p.stream.length - 1) / p.stream.length) p.stream =
        [partData p.stream.length p.stream 0] := by
    rw [htotal]
    rfl
  have hpass : ∃ packets, mapPass fullHash salt [] (Sender.chunks p.stream.length
      ((p.stream.length + p.stream.length - 1) / p.stream.length) p.stream) = some packets := by
    rw [hchunks]
    exact ⟨_, rfl⟩
  obtain ⟨packets, hpackets⟩ := hpass
  exact ⟨_, Sender.mapParts_of_pass (s := p.unmapped false p.stream.length) rfl hpackets []⟩

/-- A segment is sent and received, a later one under the hash of the first. -/
theorem exists_carried (callback : Bool)
    (h : IsSegment (Link.sampleCrypto []) id .disabled openSealing m content i p)
    (hm : m.Accepted) (hsize : m.size ≤ maxEfficientSize) (originalHash : Bytes) :
    ∃ t : Sender × Incoming, Carries (Link.sampleCrypto []) openSealing byteHash id
        (if i = 1 then t.1.originalHash else originalHash) p t ∧
      t.2.resource.callback = callback := by
  obtain ⟨token, key, htoken, hlength⟩ := LinkHandle.encrypt_established (Link.sampleCrypto [])
    (openSealing_established i) (openSealing i).vector
    ((openSealing i).randomPrefix.1 ++ (sentPayload id .disabled p.payload).1)
  obtain rfl := Except.ok.inj (htoken.symm.trans h.stream)
  have hpos : 0 < p.stream.length := by omega
  have hbytes := hm.size
  have hpayload : p.payload.length ≤ maxEfficientSize := by
    rw [h.payload, segmentPayload, List.length_append, length_segmentSlice, segmentLength]
    split_ifs
    · omega
    · simp
  obtain ⟨s, hs⟩ := exists_mapParts byteHash id hpos
    (if i = 1 then none else some originalHash) [0, 0, 0, 0]
  have hadvertised : s.resource.advertisement.t ≤ maxEfficientSize * 3 := by
    obtain ⟨salt, packets, -, -, rfl⟩ :=
      Sender.mapLoop_some (Sender.mapLoop_of_mapParts rfl hs)
    have hsent : (sentPayload id .disabled p.payload).1 = p.payload := by
      unfold sentPayload
      exact congrArg Prod.fst (if_neg fun h => Bool.false_ne_true h.1)
    have hplain : ((openSealing i).randomPrefix.1 ++
        (sentPayload id .disabled p.payload).1).length = 4 + p.payload.length := by
      rw [hsent, List.length_append, (openSealing i).randomPrefix.2]
      rfl
    calc _ = p.stream.length := rfl
      _ = 48 + (4 + p.payload.length) := hlength.trans (congrArg (48 + ·) hplain)
      _ ≤ maxEfficientSize * 3 := by
        unfold maxEfficientSize at hpayload ⊢
        omega
  have hreceives := receives_of_accept (accept_some hadvertised none callback (blank false))
    plainDecrypt
  have hsends : Sends byteHash id (if i = 1 then s.originalHash else originalHash) p s := by
    refine ⟨⟨false, p.stream.length, [[0, 0, 0, 0]], hpos, ?_⟩, ?_⟩
    · rw [h.segmentIndex]
      split_ifs at hs ⊢ <;> exact hs
    · obtain ⟨salt, packets, -, -, rfl⟩ :=
        Sender.mapLoop_some (Sender.mapLoop_of_mapParts rfl hs)
      by_cases hi : i = 1
      · exact (if_pos hi).symm
      · rw [if_neg hi, if_neg hi]
        rfl
  refine ⟨(s, _), ⟨hsends, hreceives, fun _ _ h => plainDecrypt_encrypt h⟩, ?_⟩
  rw [accept, if_neg (Nat.not_lt.mpr hadvertised)]
  rfl

theorem exists_later {indices : List Nat} {segments : List Prepared} (callback : Bool)
    (hm : m.Accepted) (hsize : m.size ≤ maxEfficientSize) (originalHash : Bytes)
    (h : List.Forall₂ (IsSegment (Link.sampleCrypto []) id .disabled openSealing m content)
      indices segments) (hlater : ∀ i ∈ indices, i ≠ 1) :
    ∃ transfers, List.Forall₂
        (Carries (Link.sampleCrypto []) openSealing byteHash id originalHash) segments transfers ∧
      ∀ t ∈ transfers, t.2.resource.callback = callback := by
  induction h with
  | nil => exact ⟨[], .nil, fun _ ht => (by cases ht)⟩
  | cons hsegment _ ih =>
      obtain ⟨hi, hlater⟩ := List.forall_mem_cons.mp hlater
      obtain ⟨t, hcarries, hcallback⟩ := exists_carried callback hsegment hm hsize originalHash
      rw [if_neg hi] at hcarries
      obtain ⟨transfers, hrest, hcallbacks⟩ := ih hlater
      exact ⟨t :: transfers, .cons hcarries hrest,
        List.forall_mem_cons.mpr ⟨hcallback, hcallbacks⟩⟩

/-- Data is sent and received, with metadata that fits the first segment. -/
theorem exists_transfers (content : Bytes) (callback : Bool)
    (hmetadata : prepareMetadata metadata 0 = .ok m) (hsize : m.size ≤ maxEfficientSize) :
    ∃ segments originalHash transfers,
      segmentsOf (Link.sampleCrypto []) id .disabled openSealing (.bytes content) metadata =
          .ok segments ∧
        List.Forall₂ (Carries (Link.sampleCrypto []) openSealing byteHash id originalHash) segments
          transfers ∧
        (∀ t ∈ transfers, t.2.resource.callback = callback) ∧
        transfers.length = segmentCount (content.length + m.size) := by
  obtain ⟨segments, hsegments, hprepared⟩ := segmentsOf_segments (Link.sampleCrypto []) id
    .disabled openSealing_established (.bytes content) hmetadata
  have hm := prepareMetadata_accepted hmetadata
  have hcount := hprepared.length_eq
  rw [List.length_range'] at hcount
  rw [segmentCount, List.range'_succ] at hprepared
  cases hprepared with
  | cons hfirst hrest =>
      obtain ⟨t, hcarries, hcallback⟩ := exists_carried callback hfirst hm hsize []
      rw [if_pos rfl] at hcarries
      obtain ⟨transfers, hlater, hcallbacks⟩ := exists_later callback hm hsize t.1.originalHash
        hrest fun i hi => by
          have hle := (List.mem_range'_1.mp hi).1
          omega
      have hall := List.Forall₂.cons hcarries hlater
      exact ⟨_, _, t :: transfers, hsegments, hall,
        List.forall_mem_cons.mpr ⟨hcallback, hcallbacks⟩,
        hall.length_eq.symm.trans hcount.symm⟩

/-- More than a segment holds, and metadata that is empty, go through. -/
theorem payload_roundTrip_split : ∃ segments originalHash transfers,
    segmentsOf (Link.sampleCrypto []) id .disabled openSealing
        (.bytes (List.replicate maxEfficientSize 7)) (some []) = .ok segments ∧
      List.Forall₂ (Carries (Link.sampleCrypto []) openSealing byteHash id originalHash) segments
        transfers ∧
      1 < transfers.length ∧
      RoundTrip byteHash some MessagePack.readArray (fun _ => calm)
        (fun _ => { storage := none, metadata := none }) (List.replicate maxEfficientSize 7)
        (some []) transfers := by
  obtain ⟨m, hmetadata, hsize⟩ := prepareMetadata_some [] (by decide)
  have hfits : m.size ≤ maxEfficientSize := by
    rw [hsize]
    decide
  obtain ⟨segments, originalHash, transfers, hsegments, hcarries, -, hlength⟩ :=
    exists_transfers (List.replicate maxEfficientSize 7) true hmetadata hfits
  refine ⟨segments, originalHash, transfers, hsegments, hcarries, ?_, ?_⟩
  · rw [hlength, ← not_le, segmentCount_le_one_iff, List.length_replicate, hsize]
    exact Nat.not_le.mpr (Nat.lt_add_of_pos_right (by decide))
  · refine (payload_roundTrip_iff (Link.sampleCrypto []) id .disabled openSealing
      openSealing_established (fun _ => rfl) MessagePack.readArray byteHash id _ hsegments hcarries
      (fun _ => calm) rfl).mpr ?_
    intro t _ value hvalue
    obtain rfl := Option.some.inj hvalue
    have hbin : MessagePack.readArray (MessagePack.bin []) = none := by decide
    rw [hbin]
    exact ite_self _

/-- Metadata of one byte does not, where a row of bytes is read from an array of numbers. -/
theorem payload_roundTrip_false : ¬∀ (c : Crypto) (compress : Bytes → Bytes)
    (option : AutoCompressOption) (sealing : Nat → Sealing),
    (∀ i, (sealing i).link.Established) → ∀ (bunzip : Bytes → Option Bytes),
      (∀ payload, bunzip (compress payload) = some payload) → ∀ (readVec : Bytes → Option Bytes),
        (∀ b : Bytes, b.length < 4294967296 → readVec (MessagePack.array b) = some b) →
          ∀ (fullHash : Bytes → Digest) (truncatedHash : Bytes → Bytes) (data : ResourceData)
            (metadata : Option Bytes) (segments : List Prepared),
            segmentsOf c compress option sealing data metadata = .ok segments →
              ∀ (originalHash : Bytes) (transfers : List (Sender × Incoming)),
                List.Forall₂ (Carries c sealing fullHash truncatedHash originalHash) segments
                  transfers →
                  (∀ t ∈ transfers, t.2.resource.callback = true) →
                    ∀ (env : Nat → Readings) (disk : Disk),
                      disk originalHash = { storage := none, metadata := none } →
                        RoundTrip fullHash bunzip readVec env disk data.content metadata
                          transfers := by
  intro h
  obtain ⟨m, hmetadata, hsize⟩ := prepareMetadata_some [1] (by decide)
  have hfits : m.size ≤ maxEfficientSize := by
    rw [hsize]
    decide
  obtain ⟨segments, originalHash, transfers, hsegments, hcarries, hcallbacks, hlength⟩ :=
    exists_transfers [7] true hmetadata hfits
  have hone : segmentCount (([7] : Bytes).length + m.size) = 1 := by
    rw [hsize]
    decide
  obtain ⟨t, rfl⟩ := List.length_eq_one_iff.mp (hlength.trans hone)
  have hcallback := hcallbacks t List.mem_cons_self
  have hround := h (Link.sampleCrypto []) id .disabled openSealing openSealing_established some
    (fun _ => rfl) MessagePack.readArray (fun _ hlength => MessagePack.readArray_array hlength)
    byteHash id (.bytes [7]) (some [1]) segments hsegments originalHash [t] hcarries
    (fun _ ht => List.mem_singleton.mp ht ▸ hcallback) (fun _ => calm)
    (fun _ => { storage := none, metadata := none }) rfl
  obtain ⟨m', hmetadata', hcarried⟩ := carriesAt_of_segmentsOf openSealing_established hsegments
    hcarries
  have hread := (roundTrip_of_carriesAt MessagePack.readArray (fun _ => calm) (fun _ => rfl)
    hmetadata' hcarried rfl).mp hround t rfl [1] rfl
  have hbin : MessagePack.readArray (MessagePack.bin [1]) = none := by decide
  rw [hcallback, hbin] at hread
  exact absurd hread (by decide)

end Reticulum.Resource
