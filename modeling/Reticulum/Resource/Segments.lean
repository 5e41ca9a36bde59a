import Mathlib.Data.List.Forall2
import Reticulum.Resource.Preparation

/-!
# The segments of a resource

The segments of a resource that is split are the metadata and the data in order, whatever their
sizes (`segments_payload`). That each of them holds something and passes the size check of the
receiver depends on the metadata: it goes into the first segment whole, while the number of
segments is counted as if it were cut like the data (`segments_partition_iff`).

## Implementation notes

The link has to be there for every segment. Of the cipher only the length of what it gives is used:
blocks of 16 bytes, of which the last is padded.
-/

namespace Reticulum

/-- The link can encrypt: it is ACTIVE or STALE, and has the key of a `Token` for AES-256. -/
def LinkHandle.Established (handle : LinkHandle) : Prop :=
  ∃ l key, handle = some l ∧ (l.state = .active ∨ l.state = .stale) ∧ l.derivedKey = some key ∧
    key.length = 64

/-- The length that the PKCS#7 padding gives a ciphertext. -/
def Crypto.Pads (c : Crypto) : Prop :=
  ∀ key vector plaintext,
    (c.aesEncrypt key vector plaintext).length = 16 * (plaintext.length / 16 + 1)

/-- A link that is there encrypts: a vector, the ciphertext and an HMAC. -/
theorem LinkHandle.encrypt_established (c : Crypto) {handle : LinkHandle}
    (hlink : handle.Established) (vector : Bytes.Block 16) (plaintext : Bytes) :
    ∃ token key, handle.encrypt c vector plaintext = .ok token ∧
      token.length = 48 + (c.aesEncrypt key vector plaintext).length := by
  obtain ⟨l, key, rfl, hstate, hkey, hlength⟩ := hlink
  have hopen : ¬(l.state ≠ .active ∧ l.state ≠ .stale) := by tauto
  have htoken : Token.new key =
      .ok { signingKey := key.take 32, encryptionKey := key.drop 32 } := by
    unfold Token.new
    rw [if_neg (by omega), if_pos hlength]
  have hcipher : ¬(key.drop 32).length ≠ 32 := by
    rw [List.length_drop, hlength]
    decide
  unfold LinkHandle.encrypt Link.encrypt
  dsimp only
  rw [if_neg hopen, hkey]
  dsimp only
  rw [htoken]
  simp only [Except.bind, Token.encrypt, if_neg hcipher, Except.mapError]
  refine ⟨_, key.drop 32, rfl, ?_⟩
  rw [List.length_append, List.length_append, vector.2, (c.hmac _ _).2]
  omega

/-- The length of what a link encrypts. -/
theorem LinkHandle.encrypt_length {c : Crypto} (hpads : c.Pads) {handle : LinkHandle}
    (hlink : handle.Established) (vector : Bytes.Block 16) (plaintext : Bytes) :
    ∃ token, handle.encrypt c vector plaintext = .ok token ∧
      token.length = 48 + 16 * (plaintext.length / 16 + 1) := by
  obtain ⟨token, key, htoken, hlength⟩ := encrypt_established c hlink vector plaintext
  exact ⟨token, htoken, hlength.trans (congrArg (48 + ·) (hpads key vector plaintext))⟩

variable (metadataSize : Nat) (content : Bytes) {i : Nat} {metadata : Option Bytes}

namespace Resource

variable {c : Crypto} {compress : Bytes → Bytes} {option : AutoCompressOption}
  {sealing : Nat → Sealing} {m : Metadata} {data : ResourceData} {segments : List Prepared}

/-- Where the data of segment `i` starts. -/
def segmentStart (metadataSize i : Nat) : Nat :=
  if i = 1 then 0 else maxEfficientSize - metadataSize + (i - 2) * maxEfficientSize

/-- How much data segment `i` takes. -/
def segmentLength (metadataSize i : Nat) : Nat :=
  if i = 1 then maxEfficientSize - metadataSize else maxEfficientSize

/-- The data of segment `i`. -/
def segmentSlice (metadataSize : Nat) (content : Bytes) (i : Nat) : Bytes :=
  (content.drop (segmentStart metadataSize i)).take (segmentLength metadataSize i)

/-- The size of a stream for a payload of `n` bytes as it is sent. -/
def transferSize (n : Nat) : Nat := 48 + 16 * ((randomHashSize + n) / 16 + 1)

/-- The bytes of segment `i`: the metadata before the first of the data. -/
def segmentPayload (m : Metadata) (content : Bytes) (i : Nat) : Bytes :=
  (if i = 1 then m.bytes else []) ++ segmentSlice m.size content i

/-- The segments are the metadata and the data in order, none is empty, and each passes the size
check of `ResourceAdvertisement::unpack`. -/
structure Partition (m : Metadata) (content : Bytes) (segments : List Prepared) : Prop where
  joined : (segments.map Prepared.payload).flatten = m.bytes ++ content
  indices : segments.map Prepared.segmentIndex =
    List.range' 1 (segmentCount (content.length + m.size))
  nonempty : ∀ s ∈ segments, s.payload ≠ []
  bounded : ∀ s ∈ segments, s.stream.length ≤ maxEfficientSize * 3

/-- The condition on the metadata: it fits one segment, or the rest of the data fills all segments
after the first, and the first passes the size check. -/
def Partitionable (compress : Bytes → Bytes) (option : AutoCompressOption) (m : Metadata)
    (size : Nat) : Prop :=
  m.size ≤ maxEfficientSize ∨
    (size + m.size ≤ (1 + (size + maxEfficientSize - 1) / maxEfficientSize) * maxEfficientSize ∧
      transferSize (sentPayload compress option m.bytes).1.length ≤ maxEfficientSize * 3)

/-! ## Cutting -/

/-- A range that is cut off at the end of the bytes. -/
theorem drop_take_min (bytes : Bytes) (start len : Nat) :
    (bytes.take (min (min start bytes.length + len) bytes.length)).drop (min start bytes.length) =
      (bytes.drop start).take len := by
  rw [List.drop_take]
  rcases Nat.le_total start bytes.length with hle | hge
  · rw [Nat.min_eq_left hle]
    apply List.take_eq_take_iff.mpr
    rw [List.length_drop]
    omega
  · rw [Nat.min_eq_right hge, List.drop_length, List.drop_eq_nil_of_le hge, List.take_nil,
      List.take_nil]

theorem takeSegment_segment (hi : 1 ≤ i) (bytes : Bytes) :
    (takeSegment metadataSize i bytes).segment = segmentSlice metadataSize bytes i := by
  unfold takeSegment segmentSlice segmentStart segmentLength
  rw [Nat.max_eq_left hi]
  by_cases hfirst : i = 1
  · simp only [if_pos hfirst]
    exact drop_take_min bytes 0 _
  · simp only [if_neg hfirst]
    exact drop_take_min bytes _ _

theorem readSegment_segment (hi : 1 ≤ i) (content : Bytes) :
    (readSegment metadataSize i content).segment = segmentSlice metadataSize content i := by
  unfold readSegment segmentSlice segmentStart segmentLength
  rw [Nat.max_eq_left hi]
  by_cases hfirst : i = 1
  · simp only [if_pos hfirst]
  · simp only [if_neg hfirst, Nat.sub_sub]

/-- What a cut gives. -/
structure IsCut (metadataSize : Nat) (content : Bytes) (i : Nat) (cut : Cut) : Prop where
  totalSegments : cut.totalSegments = segmentCount (content.length + metadataSize)
  segmentIndex : cut.segmentIndex = i
  split : cut.split = decide (1 < cut.totalSegments)
  segment : cut.segment = segmentSlice metadataSize content i
  rest : i < cut.totalSegments → ∃ rest, cut.rest = some rest ∧ rest.content = content

/-- There is one segment, or more for data and metadata that do not fit one. -/
theorem segmentCount_le_one_iff (totalSize : Nat) :
    segmentCount totalSize ≤ 1 ↔ totalSize ≤ maxEfficientSize := by
  unfold segmentCount
  unfold maxEfficientSize
  omega

theorem cutData_isCut {metadataSize i : Nat} (hi : 1 ≤ i)
    (hle : i ≤ segmentCount (data.content.length + metadataSize)) :
    IsCut metadataSize data.content i (cutData metadataSize i data) := by
  unfold cutData
  split
  · rename_i hfits
    have hone := (segmentCount_le_one_iff _).mpr hfits
    obtain rfl : i = 1 := by omega
    refine ⟨by dsimp only; omega, rfl, rfl, ?_, fun hlt => absurd hlt (lt_irrefl 1)⟩
    rw [segmentSlice, segmentStart, segmentLength, if_pos rfl, if_pos rfl, List.drop_zero]
    exact (List.take_of_length_le (Nat.le_sub_of_add_le hfits)).symm
  rename_i hsplit
  have hmany : 1 < segmentCount (data.content.length + metadataSize) := by
    rw [← Nat.not_le, segmentCount_le_one_iff]
    exact hsplit
  have htaken : ∀ bytes : Bytes, 1 < segmentCount (bytes.length + metadataSize) →
      IsCut metadataSize bytes i (takeSegment metadataSize i bytes) := by
    intro bytes hbytes
    refine ⟨rfl, Nat.max_eq_left hi, (decide_eq_true hbytes).symm,
      takeSegment_segment metadataSize hi bytes, fun hlt => ⟨.shared bytes, if_pos ?_, rfl⟩⟩
    rw [Nat.max_eq_left hi]
    exact hlt
  cases data with
  | bytes content => exact htaken content hmany
  | shared content => exact htaken content hmany
  | file content =>
      exact ⟨rfl, Nat.max_eq_left hi, (decide_eq_true hmany).symm,
        readSegment_segment metadataSize hi content, fun _ => ⟨.file content, rfl, rfl⟩⟩

/-- A segment starts where the one before it ends. -/
theorem segmentStart_succ (hi : 1 ≤ i) :
    segmentStart metadataSize (i + 1) =
      segmentStart metadataSize i + segmentLength metadataSize i := by
  unfold segmentStart segmentLength
  rw [if_neg (by omega)]
  split
  · subst i
    simp
  · obtain ⟨k, rfl⟩ : ∃ k, i = k + 2 := ⟨i - 2, by omega⟩
    simp only [Nat.add_sub_cancel, Nat.add_assoc]
    have hk : k + 3 - 2 = k + 1 := rfl
    rw [hk, Nat.add_mul, Nat.one_mul]

/-- The first segments are the first bytes. -/
theorem flatten_segmentSlice (k : Nat) :
    ((List.range' 1 k).map (segmentSlice metadataSize content)).flatten =
      content.take (segmentStart metadataSize (k + 1)) := by
  induction k with
  | zero => rfl
  | succ k ih =>
      rw [List.range'_concat, List.map_append, List.flatten_append, ih,
        segmentStart_succ metadataSize (Nat.le_add_left 1 k), List.take_add]
      simp [segmentSlice, Nat.add_comm]

/-- All segments together reach the end of the data. -/
theorem le_segmentStart (metadataSize size : Nat) :
    size ≤ segmentStart metadataSize (segmentCount (size + metadataSize) + 1) := by
  unfold segmentStart segmentCount
  unfold maxEfficientSize
  split <;> omega

/-! ## The chain -/

/-- Segment `i` as it is prepared. -/
structure IsSegment (c : Crypto) (compress : Bytes → Bytes) (option : AutoCompressOption)
    (sealing : Nat → Sealing) (m : Metadata) (content : Bytes) (i : Nat) (s : Prepared) : Prop where
  segmentIndex : s.segmentIndex = i
  totalSegments : s.totalSegments = segmentCount (content.length + m.size)
  split : s.split = decide (1 < s.totalSegments)
  metadataSize : s.metadataSize = m.size
  hasMetadata : s.hasMetadata = m.present
  payload : s.payload = segmentPayload m content i
  compressed : s.compressed = (sentPayload compress option s.payload).2
  stream : (sealing i).link.encrypt c (sealing i).vector
    ((sealing i).randomPrefix.1 ++ (sentPayload compress option s.payload).1) = .ok s.stream
  rest : i < s.totalSegments → ∃ rest, s.rest = some rest ∧ rest.content = content

/-- Metadata that `prepare_metadata` accepts with the first segment. -/
structure Metadata.Accepted (m : Metadata) : Prop where
  size : m.bytes.length = m.size
  present : m.present = decide (0 < m.size)

/-- What `prepare_metadata` makes with the first segment. -/
theorem prepareMetadata_ok (h : prepareMetadata metadata 0 = .ok m) :
    (metadata = none ∧ m = { bytes := [], size := 0, present := false }) ∨
      ∃ value, metadata = some value ∧ (MessagePack.bin value).length ≤ metadataMaxSize ∧
        m = { bytes := Fields.bigEndian 3 (MessagePack.bin value).length ++ MessagePack.bin value
              size := 3 + (MessagePack.bin value).length
              present := true } := by
  cases metadata with
  | none => exact .inl ⟨rfl, (Except.ok.inj h).symm⟩
  | some value =>
      unfold prepareMetadata at h
      dsimp only at h
      split at h
      · cases h
      · rename_i hsize
        refine .inr ⟨value, rfl, Nat.not_lt.mp hsize, ?_⟩
        rw [List.length_append, Fields.length_bigEndian] at h
        exact (Except.ok.inj h).symm

theorem prepareMetadata_accepted (h : prepareMetadata metadata 0 = .ok m) : m.Accepted := by
  rcases prepareMetadata_ok h with ⟨-, rfl⟩ | ⟨value, -, -, rfl⟩
  · exact ⟨rfl, rfl⟩
  · constructor
    · rw [List.length_append, Fields.length_bigEndian]
    · exact (decide_eq_true (Nat.lt_of_lt_of_le (Nat.succ_pos 2) (Nat.le_add_right 3 _))).symm

/-- `prepare_data`, with the metadata that goes before the segment. -/
theorem prepareData_isSegment (c : Crypto) (compress : Bytes → Bytes) (option : AutoCompressOption)
    (hlinks : ∀ i, (sealing i).link.Established) (m' : Metadata) (hi : 1 ≤ i)
    (hle : i ≤ segmentCount (data.content.length + m.size)) (hsize : m'.size = m.size)
    (hbytes : m'.bytes = if i = 1 then m.bytes else []) (hpresent : m'.present = m.present)
    (habsent : m.present = false → m'.bytes = []) :
    ∃ segment, prepareData c compress option (sealing i) m' i data = .ok segment ∧
      IsSegment c compress option sealing m data.content i segment := by
  have hcut := cutData_isCut hi hle
  have hpayload : (if m'.present then m'.bytes ++ (cutData m.size i data).segment
      else (cutData m.size i data).segment) = segmentPayload m data.content i := by
    unfold segmentPayload
    rw [hcut.segment, ← hbytes, hpresent]
    split
    · rfl
    · rename_i hnone
      rw [habsent (by simpa using hnone), List.nil_append]
  obtain ⟨token, -, hencrypt, -⟩ := LinkHandle.encrypt_established c (hlinks i) (sealing i).vector
    ((sealing i).randomPrefix.1 ++
      (sentPayload compress option (segmentPayload m data.content i)).1)
  unfold prepareData
  rw [hsize]
  dsimp only
  rw [hpayload, hencrypt]
  exact ⟨_, rfl, hcut.segmentIndex, hcut.totalSegments, hcut.split, rfl, hpresent, rfl, rfl,
    hencrypt, hcut.rest⟩

/-- The next segment is made from the one before it. -/
theorem IsSegment.next (hlinks : ∀ i, (sealing i).link.Established) (hm : m.Accepted) (hi : 1 ≤ i)
    {s : Prepared} (h : IsSegment c compress option sealing m data.content i s)
    (hlt : i < s.totalSegments) :
    ∃ next, prepareNextSegment c compress option (sealing (i + 1)) s = some next ∧
      IsSegment c compress option sealing m data.content (i + 1) next := by
  obtain ⟨rest, hrest, hcontent⟩ := h.rest hlt
  have hle := h.totalSegments ▸ hlt
  rw [← hcontent] at hle
  obtain ⟨next, hnext, hsegment⟩ := prepareData_isSegment c compress option hlinks
    ⟨[], m.size, m.size > 0⟩ (Nat.le_add_left 1 i) hle rfl (if_neg (by omega)).symm
    hm.present.symm (fun _ => rfl)
  rw [hcontent] at hsegment
  refine ⟨next, ?_, hsegment⟩
  unfold prepareNextSegment newInternal
  rw [if_neg (by rw [h.segmentIndex]; exact Nat.not_le.mpr hlt), hrest, h.segmentIndex,
    h.metadataSize]
  simp only [Option.bind_some, prepareMetadata, Except.bind, hnext]
  rfl

/-- The chain of segments from one on. -/
theorem segmentsFrom_segments (hlinks : ∀ i, (sealing i).link.Established) (hm : m.Accepted)
    (hi : 1 ≤ i) {s : Prepared} (h : IsSegment c compress option sealing m data.content i s)
    {fuel : Nat} (hfuel : s.totalSegments ≤ i + fuel) (hle : i ≤ s.totalSegments) :
    List.Forall₂ (IsSegment c compress option sealing m data.content)
      (List.range' i (segmentCount (data.content.length + m.size) + 1 - i))
      (segmentsFrom c compress option sealing fuel s) := by
  have htotal := h.totalSegments
  induction fuel generalizing i s with
  | zero =>
      have hlast : segmentCount (data.content.length + m.size) + 1 - i = 1 := by omega
      rw [hlast]
      exact .cons h .nil
  | succ fuel ih =>
      rw [segmentsFrom, h.segmentIndex]
      by_cases hlt : i < s.totalSegments
      · obtain ⟨next, hnext, hsegment⟩ := h.next hlinks hm hi hlt
        have hcount : segmentCount (data.content.length + m.size) + 1 - i =
            segmentCount (data.content.length + m.size) + 1 - (i + 1) + 1 := by omega
        have hsame := hsegment.totalSegments
        rw [hnext, hcount, List.range'_succ]
        exact .cons h (ih (Nat.le_add_left 1 i) hsegment (by omega) (by omega) hsame)
      · have hlast : segmentCount (data.content.length + m.size) + 1 - i = 1 := by omega
        have hnone : prepareNextSegment c compress option (sealing (i + 1)) s = none := by
          unfold prepareNextSegment
          rw [h.segmentIndex]
          exact if_pos (Nat.not_lt.mp hlt)
        rw [hnone, hlast]
        exact .cons h .nil

/-- The segments of a resource. -/
theorem segmentsOf_segments (c : Crypto) (compress : Bytes → Bytes) (option : AutoCompressOption)
    (hlinks : ∀ i, (sealing i).link.Established) (data : ResourceData)
    (hmetadata : prepareMetadata metadata 0 = .ok m) :
    ∃ segments, segmentsOf c compress option sealing data metadata = .ok segments ∧
      List.Forall₂ (IsSegment c compress option sealing m data.content)
        (List.range' 1 (segmentCount (data.content.length + m.size))) segments := by
  have hm := prepareMetadata_accepted hmetadata
  have hcount : 1 ≤ segmentCount (data.content.length + m.size) := Nat.le_add_left 1 _
  obtain ⟨first, hfirst, hsegment⟩ := prepareData_isSegment c compress option hlinks m
    le_rfl hcount rfl (if_pos rfl).symm rfl fun habsent => by
      rw [hm.present, decide_eq_false_iff_not, ← hm.size] at habsent
      exact List.eq_nil_of_length_eq_zero (by omega)
  have hchain := segmentsFrom_segments hlinks hm le_rfl hsegment
    (Nat.le_add_left first.totalSegments 1) (hcount.trans_eq hsegment.totalSegments.symm)
  refine ⟨_, ?_, hchain⟩
  unfold segmentsOf newInternal
  rw [hmetadata]
  simp only [Except.bind, hfirst]
  rfl

/-- The length of a stream. -/
theorem IsSegment.length_stream (hpads : c.Pads) (hlinks : ∀ i, (sealing i).link.Established)
    {content : Bytes} {s : Prepared} (h : IsSegment c compress option sealing m content i s) :
    s.stream.length = transferSize (sentPayload compress option s.payload).1.length := by
  obtain ⟨token, htoken, hlength⟩ := LinkHandle.encrypt_length hpads (hlinks i) (sealing i).vector
    ((sealing i).randomPrefix.1 ++ (sentPayload compress option s.payload).1)
  obtain rfl := Except.ok.inj (htoken.symm.trans h.stream)
  rw [hlength, List.length_append, (sealing i).randomPrefix.2]
  rfl

/-! ## What the segments hold -/

/-- Entries that are related one by one have the same properties. -/
theorem forall_mem_iff_of_forall₂ {α β : Type*} {R : α → β → Prop} {P : β → Prop} {Q : α → Prop}
    (hiff : ∀ a b, R a b → (P b ↔ Q a)) {as : List α} {bs : List β} (h : List.Forall₂ R as bs) :
    (∀ b ∈ bs, P b) ↔ ∀ a ∈ as, Q a := by
  induction h with
  | nil =>
      exact iff_of_true (fun _ hb => absurd hb List.not_mem_nil)
        (fun _ ha => absurd ha List.not_mem_nil)
  | cons hab _ ih => rw [List.forall_mem_cons, List.forall_mem_cons, ih, hiff _ _ hab]

theorem map_eq_of_forall₂ {α β γ : Type*} {R : α → β → Prop} {f : β → γ} {g : α → γ}
    (heq : ∀ a b, R a b → f b = g a) {as : List α} {bs : List β} (h : List.Forall₂ R as bs) :
    bs.map f = as.map g := by
  induction h with
  | nil => rfl
  | cons hab _ ih => rw [List.map_cons, List.map_cons, ih, heq _ _ hab]

theorem length_segmentSlice (i : Nat) :
    (segmentSlice metadataSize content i).length =
      min (segmentLength metadataSize i) (content.length - segmentStart metadataSize i) := by
  rw [segmentSlice, List.length_take, List.length_drop]

theorem segmentPayload_later (hi : i ≠ 1) :
    segmentPayload m content i = segmentSlice m.size content i := by
  rw [segmentPayload, if_neg hi, List.nil_append]

/-- The segments are the metadata and the data, in order and whole. -/
theorem flatten_segmentPayload (m : Metadata) (content : Bytes) :
    ((List.range' 1 (segmentCount (content.length + m.size))).map
      (segmentPayload m content)).flatten = m.bytes ++ content := by
  have hslices := flatten_segmentSlice m.size content (segmentCount (content.length + m.size))
  rw [List.take_of_length_le (le_segmentStart m.size content.length)] at hslices
  unfold segmentCount at hslices ⊢
  rw [List.range'_succ, List.map_cons, List.flatten_cons] at hslices ⊢
  have hlater : (List.range' 2 ((content.length + m.size - 1) / maxEfficientSize)).map
      (segmentPayload m content) =
        (List.range' 2 ((content.length + m.size - 1) / maxEfficientSize)).map
          (segmentSlice m.size content) := by
    apply List.map_congr_left
    intro i hi
    have hle := (List.mem_range'_1.mp hi).1
    exact segmentPayload_later content (by omega)
  rw [hlater, segmentPayload, if_pos rfl, List.append_assoc, hslices]

/-- A payload is not longer when it is sent. -/
theorem sentPayload_le (compress : Bytes → Bytes) (option : AutoCompressOption) (payload : Bytes) :
    (sentPayload compress option payload).1.length ≤ payload.length := by
  unfold sentPayload
  split
  · rename_i hshorter
    exact hshorter.2.le
  · exact le_rfl

/-- What fits one segment passes the size check. -/
theorem transferSize_le {n : Nat} (h : n ≤ maxEfficientSize) :
    transferSize n ≤ maxEfficientSize * 3 := by
  unfold transferSize randomHashSize
  unfold maxEfficientSize at *
  omega

/-- The payload of a segment holds something and passes the size check. -/
def Passes (compress : Bytes → Bytes) (option : AutoCompressOption) (payload : Bytes) : Prop :=
  payload ≠ [] ∧
    transferSize (sentPayload compress option payload).1.length ≤ maxEfficientSize * 3

theorem passes_of_length {payload : Bytes} (hpos : 0 < payload.length)
    (hle : payload.length ≤ maxEfficientSize) : Passes compress option payload :=
  ⟨List.ne_nil_of_length_pos hpos,
    transferSize_le ((sentPayload_le compress option payload).trans hle)⟩

/-- A segment after the first passes if the data reaches it. -/
theorem passes_later_iff (hi : i ≠ 1) :
    Passes compress option (segmentPayload m content i) ↔
      segmentStart m.size i < content.length := by
  have hlength := length_segmentSlice m.size content i
  rw [segmentLength, if_neg hi] at hlength
  rw [segmentPayload_later content hi]
  constructor
  · intro hpasses
    have hpos := List.length_pos_iff.mpr hpasses.1
    omega
  · intro hlt
    apply passes_of_length
    · rw [hlength]
      unfold maxEfficientSize
      omega
    · rw [hlength]
      exact Nat.min_le_left _ _

/-- The first segment passes if the metadata fits it, or passes the size check alone. -/
theorem passes_first_iff (compress : Bytes → Bytes) (option : AutoCompressOption) (content : Bytes)
    (hm : m.bytes.length = m.size) (hsplit : maxEfficientSize < content.length + m.size) :
    Passes compress option (segmentPayload m content 1) ↔ (m.size ≤ maxEfficientSize ∨
      transferSize (sentPayload compress option m.bytes).1.length ≤ maxEfficientSize * 3) := by
  have hlength := length_segmentSlice m.size content 1
  rw [segmentLength, segmentStart, if_pos rfl, if_pos rfl, Nat.sub_zero] at hlength
  by_cases hfits : m.size ≤ maxEfficientSize
  · have htotal : (segmentPayload m content 1).length = maxEfficientSize := by
      rw [segmentPayload, if_pos rfl, List.length_append, hm, hlength]
      omega
    refine iff_of_true (passes_of_length ?_ htotal.le) (.inl hfits)
    rw [htotal]
    decide
  · have hslice : segmentSlice m.size content 1 = [] :=
      List.eq_nil_of_length_eq_zero (by omega)
    have hnone : segmentPayload m content 1 = m.bytes := by
      rw [segmentPayload, if_pos rfl, hslice, List.append_nil]
    rw [hnone]
    constructor
    · exact fun hpasses => .inr hpasses.2
    · rintro (hle | hsize)
      · exact absurd hle hfits
      · exact ⟨List.ne_nil_of_length_pos (by omega), hsize⟩

/-- The data reaches the last segment if the metadata fits the first, or if the rest of the segments
are filled. -/
theorem segmentStart_last_iff (metadataSize size : Nat)
    (hsplit : maxEfficientSize < size + metadataSize) :
    segmentStart metadataSize (segmentCount (size + metadataSize)) < size ↔
      (metadataSize ≤ maxEfficientSize ∨ size + metadataSize ≤
        (1 + (size + maxEfficientSize - 1) / maxEfficientSize) * maxEfficientSize) := by
  unfold segmentStart segmentCount
  unfold maxEfficientSize at *
  rw [if_neg (by omega)]
  omega

theorem segmentStart_mono {i j : Nat} (hi : i ≠ 1) (hij : i ≤ j) (hj : j ≠ 1) :
    segmentStart metadataSize i ≤ segmentStart metadataSize j := by
  unfold segmentStart
  rw [if_neg hi, if_neg hj]
  exact Nat.add_le_add_left (Nat.mul_le_mul_right _ (Nat.sub_le_sub_right hij 2)) _

/-- All segments pass under the condition, and only then. -/
theorem passes_iff (compress : Bytes → Bytes) (option : AutoCompressOption) (content : Bytes)
    (hm : m.bytes.length = m.size) (hsplit : maxEfficientSize < content.length + m.size) :
    (∀ i ∈ List.range' 1 (segmentCount (content.length + m.size)),
      Passes compress option (segmentPayload m content i)) ↔
        Partitionable compress option m content.length := by
  have hcount : 2 ≤ segmentCount (content.length + m.size) := by
    unfold segmentCount
    unfold maxEfficientSize at *
    omega
  have hfirst := passes_first_iff compress option content hm hsplit
  have hlast := segmentStart_last_iff m.size content.length hsplit
  constructor
  · intro hall
    have h1 := hfirst.mp (hall 1 (List.mem_range'_1.mpr ⟨le_rfl, by omega⟩))
    have hend := hlast.mp ((passes_later_iff content (by omega)).mp
      (hall _ (List.mem_range'_1.mpr ⟨by omega, Nat.lt_one_add_iff.mpr le_rfl⟩)))
    rcases h1 with hfits | hsize
    · exact .inl hfits
    · exact hend.imp_right fun hfilled => ⟨hfilled, hsize⟩
  · intro hcondition i hi
    obtain ⟨hpos, hle⟩ := List.mem_range'_1.mp hi
    by_cases h1 : i = 1
    · subst i
      exact hfirst.mpr (hcondition.imp_right And.right)
    · rw [passes_later_iff content h1]
      apply (segmentStart_mono m.size h1 (Nat.lt_one_add_iff.mp hle) (by omega)).trans_lt
      exact hlast.mpr (hcondition.imp_right And.left)

/-- The segments that are prepared are a partition if and only if all of them pass. -/
theorem partition_iff (hpads : c.Pads) (hlinks : ∀ i, (sealing i).link.Established)
    {content : Bytes}
    (hprepared : List.Forall₂ (IsSegment c compress option sealing m content)
      (List.range' 1 (segmentCount (content.length + m.size))) segments) :
    Partition m content segments ↔
      ∀ i ∈ List.range' 1 (segmentCount (content.length + m.size)),
        Passes compress option (segmentPayload m content i) := by
  rw [← forall_mem_iff_of_forall₂ (P := fun s : Prepared =>
    s.payload ≠ [] ∧ s.stream.length ≤ maxEfficientSize * 3)
    (fun i s h => by rw [h.length_stream hpads hlinks, h.payload]; rfl) hprepared]
  constructor
  · exact fun hpartition s hs => ⟨hpartition.nonempty s hs, hpartition.bounded s hs⟩
  · intro hall
    refine ⟨?_, ?_, fun s hs => (hall s hs).1, fun s hs => (hall s hs).2⟩
    · rw [map_eq_of_forall₂ (fun _ _ h => h.payload) hprepared]
      exact flatten_segmentPayload m content
    · rw [map_eq_of_forall₂ (fun _ _ h => h.segmentIndex) hprepared, List.map_id']

/-- For all data and metadata that are larger than one segment together, the segments are a
partition that the receiver accepts if and only if the metadata fits one segment, or passes the size
check alone while the data fills all segments that are counted after the first. -/
theorem segments_partition_iff (c : Crypto) (hpads : c.Pads) (compress : Bytes → Bytes)
    (option : AutoCompressOption) (sealing : Nat → Sealing)
    (hlinks : ∀ i, (sealing i).link.Established) (data : ResourceData) {metadata : Option Bytes}
    {m : Metadata} (hmetadata : prepareMetadata metadata 0 = .ok m)
    (hsplit : maxEfficientSize < data.content.length + m.size) :
    (∃ segments, segmentsOf c compress option sealing data metadata = .ok segments ∧
      Partition m data.content segments) ↔
        Partitionable compress option m data.content.length := by
  obtain ⟨segments, hsegments, hprepared⟩ :=
    segmentsOf_segments c compress option hlinks data hmetadata
  rw [← passes_iff compress option data.content (prepareMetadata_accepted hmetadata).size hsplit,
    ← partition_iff hpads hlinks hprepared]
  constructor
  · rintro ⟨others, hothers, hpartition⟩
    obtain rfl := Except.ok.inj (hsegments.symm.trans hothers)
    exact hpartition
  · exact fun hpartition => ⟨segments, hsegments, hpartition⟩

/-! ## Examples -/

/-- A stand-in for the crates, with a cipher that pads. -/
def paddingCrypto : Crypto :=
  { Link.sampleCrypto [] with
    aesEncrypt := fun _ _ plaintext => List.replicate (16 * (plaintext.length / 16 + 1)) 0 }

theorem paddingCrypto_pads : paddingCrypto.Pads := fun _ _ _ => List.length_replicate

/-- A link that is there for each segment. -/
def openSealing (_ : Nat) : Sealing where
  link := some { Link.sampleInitiator [] with
    state := .active, derivedKey := some (List.replicate 64 0) }
  randomPrefix := zeroHash
  vector := ⟨List.replicate 16 0, rfl⟩

theorem openSealing_established (i : Nat) : (openSealing i).link.Established :=
  ⟨_, List.replicate 64 0, rfl, .inl rfl, rfl, rfl⟩

/-- One byte more than a segment holds. -/
def oneByteMore : ResourceData := .bytes (List.replicate (maxEfficientSize + 1) 0)

theorem segments_partition_iff_plain :
    ∃ segments, segmentsOf paddingCrypto id .disabled openSealing oneByteMore none =
        .ok segments ∧
      Partition { bytes := [], size := 0, present := false } oneByteMore.content segments := by
  have hlength : oneByteMore.content.length = maxEfficientSize + 1 := by
    unfold oneByteMore
    exact List.length_replicate
  refine (segments_partition_iff paddingCrypto paddingCrypto_pads id .disabled openSealing
    openSealing_established oneByteMore rfl ?_).mpr (.inl (Nat.zero_le _))
  rw [hlength]
  exact Nat.lt_succ_self _

/-- Metadata that is accepted. -/
theorem prepareMetadata_some (metadata : Bytes)
    (h : (MessagePack.bin metadata).length ≤ metadataMaxSize) :
    ∃ m, prepareMetadata (some metadata) 0 = .ok m ∧
      m.size = 3 + (MessagePack.bin metadata).length := by
  refine ⟨_, if_neg (Nat.not_lt.mpr h), ?_⟩
  rw [List.length_append, Fields.length_bigEndian]

/-- Metadata of one mebibyte and no data make two segments, and the second is empty. -/
theorem segments_partition_false : ¬∀ (c : Crypto), c.Pads → ∀ (compress : Bytes → Bytes)
    (option : AutoCompressOption) (sealing : Nat → Sealing),
    (∀ i, (sealing i).link.Established) → ∀ (data : ResourceData) (metadata : Option Bytes)
      (m : Metadata), prepareMetadata metadata 0 = .ok m →
        maxEfficientSize < data.content.length + m.size →
          ∃ segments, segmentsOf c compress option sealing data metadata = .ok segments ∧
            Partition m data.content segments := by
  intro h
  have hlength : (MessagePack.bin (List.replicate 1048576 0)).length = 1048581 := by
    rw [MessagePack.length_bin, List.length_replicate]
    rfl
  have hfits : (MessagePack.bin (List.replicate 1048576 0)).length ≤ metadataMaxSize := by
    rw [hlength]
    unfold metadataMaxSize
    omega
  obtain ⟨m, hmetadata, hsize⟩ := prepareMetadata_some _ hfits
  rw [hlength] at hsize
  have hsplit : maxEfficientSize < (ResourceData.bytes []).content.length + m.size := by
    rw [hsize]
    decide
  obtain ⟨segments, hsegments, hpartition⟩ := h paddingCrypto paddingCrypto_pads id .disabled
    openSealing openSealing_established (.bytes []) _ m hmetadata hsplit
  obtain ⟨others, hothers, hprepared⟩ := segmentsOf_segments paddingCrypto id .disabled
    openSealing_established (.bytes []) hmetadata
  obtain rfl := Except.ok.inj (hsegments.symm.trans hothers)
  have hpasses := (partition_iff paddingCrypto_pads openSealing_established hprepared).mp hpartition
  have hcondition := (passes_iff id .disabled [] (prepareMetadata_accepted hmetadata).size
    hsplit).mp hpasses
  unfold Partitionable at hcondition
  rw [hsize] at hcondition
  rcases hcondition with hone | ⟨hfilled, -⟩
  · exact absurd hone (by decide)
  · exact absurd hfilled (by decide)

end Resource

end Reticulum
