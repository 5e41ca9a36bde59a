import Reticulum.Destination.Encryption
import Reticulum.Lib.MessagePack
import Reticulum.Resource.Basic

/-!
# Preparing a resource

The metadata of a resource goes before its data (`prepare_metadata`), data that is too large is cut
into segments (`take_segment`, and the branch for files of `prepare_data`), and each segment is
compressed if that makes it shorter and encrypted by the link behind a random prefix
(`prepare_data`). The next segment is made from the data of the one before it
(`prepare_next_segment`).

## Implementation notes

`compress` is the encoder of the `bzip2` crate. A file is its content, and a read from it gives what
is asked for as far as the file goes. What the preparation of each segment reads from the link and
from the random source is a `Sealing`, so that the link may be another one for each. The part map is
made afterwards, from the stream and the payload.
-/

namespace Reticulum.Resource

def metadataMaxSize : Nat := 16 * 1024 * 1024 - 1

def autoCompressMaxSize : Nat := 64 * 1024 * 1024

inductive AutoCompressOption
  | disabled
  | enabled
  | limit (size : Nat)
  deriving DecidableEq, Repr

/-- `should_compress`, for data of `size` bytes. -/
def AutoCompressOption.shouldCompress (size : Nat) : AutoCompressOption → Bool
  | .disabled => false
  | .enabled => size ≤ autoCompressMaxSize
  | .limit bound => size ≤ bound

inductive ResourceData
  | bytes (content : Bytes)
  | file (content : Bytes)
  | shared (content : Bytes)
  deriving DecidableEq, Repr

def ResourceData.content : ResourceData → Bytes
  | .bytes content => content
  | .file content => content
  | .shared content => content

/-- The metadata of a resource: `metadata`, `metadata_size` and `has_metadata`. -/
structure Metadata where
  bytes : Bytes
  size : Nat
  present : Bool
  deriving DecidableEq, Repr

def prepareMetadata (metadata : Option Bytes) (sentMetadataSize : Nat) :
    Except String Metadata :=
  match metadata with
  | some metadata =>
      let packed := MessagePack.bin metadata
      if packed.length > metadataMaxSize then .error "Resource metadata size exceeded"
      else
        let bytes := Fields.bigEndian 3 packed.length ++ packed
        .ok { bytes := bytes, size := bytes.length, present := true }
  | none => .ok { bytes := [], size := sentMetadataSize, present := sentMetadataSize > 0 }

/-- The data of one segment, and what the next one is made from. -/
structure Cut where
  totalSegments : Nat
  segmentIndex : Nat
  split : Bool
  segment : Bytes
  rest : Option ResourceData

/-- The number of segments. -/
def segmentCount (totalSize : Nat) : Nat := (totalSize - 1) / maxEfficientSize + 1

def takeSegment (metadataSize segmentIndex : Nat) (bytes : Bytes) : Cut :=
  let totalSegments := segmentCount (bytes.length + metadataSize)
  let segmentIndex := max segmentIndex 1
  let firstReadSize := maxEfficientSize - metadataSize
  let (start, len) := if segmentIndex = 1 then (0, firstReadSize)
    else (firstReadSize + (segmentIndex - 2) * maxEfficientSize, maxEfficientSize)
  let start := min start bytes.length
  let stop := min (start + len) bytes.length
  { totalSegments := totalSegments, segmentIndex := segmentIndex, split := true
    segment := (bytes.take stop).drop start
    rest := if segmentIndex < totalSegments then some (.shared bytes) else none }

/-- The branch of `prepare_data` for a file that is split. -/
def readSegment (metadataSize segmentIndex : Nat) (content : Bytes) : Cut :=
  let segmentIndex := max segmentIndex 1
  let seekIndex := segmentIndex - 1
  let firstReadSize := maxEfficientSize - metadataSize
  let (seekPosition, segmentReadSize) := if segmentIndex = 1 then (0, firstReadSize)
    else (firstReadSize + (seekIndex - 1) * maxEfficientSize, maxEfficientSize)
  { totalSegments := segmentCount (content.length + metadataSize), segmentIndex := segmentIndex
    split := true
    segment := (content.drop seekPosition).take segmentReadSize
    rest := some (.file content) }

/-- The data of a segment: all of it, if it fits one segment with the metadata. -/
def cutData (metadataSize segmentIndex : Nat) (data : ResourceData) : Cut :=
  if data.content.length + metadataSize ≤ maxEfficientSize then
    { totalSegments := 1, segmentIndex := 1, split := false, segment := data.content
      rest := none }
  else
    match data with
    | .file content => readSegment metadataSize segmentIndex content
    | .bytes content => takeSegment metadataSize segmentIndex content
    | .shared content => takeSegment metadataSize segmentIndex content

/-- What the preparation of a segment reads: the link, the random prefix of the stream, and the
initialisation vector that the link draws. -/
structure Sealing where
  link : LinkHandle
  randomPrefix : Bytes.Block randomHashSize
  vector : Bytes.Block 16

/-- A segment that is prepared. -/
structure Prepared where
  segmentIndex : Nat
  totalSegments : Nat
  split : Bool
  totalSize : Nat
  metadataSize : Nat
  hasMetadata : Bool
  /-- what the hashes of the resource cover -/
  payload : Bytes
  compressed : Bool
  /-- the encrypted stream -/
  stream : Bytes
  rest : Option ResourceData

variable (c : Crypto) (compress : Bytes → Bytes) (option : AutoCompressOption)

/-- The payload as it is sent, and whether it is compressed. -/
def sentPayload (payload : Bytes) : Bytes × Bool :=
  if option.shouldCompress payload.length ∧ (compress payload).length < payload.length then
    (compress payload, true)
  else (payload, false)

def prepareData (s : Sealing) (metadata : Metadata) (segmentIndex : Nat) (data : ResourceData) :
    Except String Prepared :=
  let cut := cutData metadata.size segmentIndex data
  let payload := if metadata.present then metadata.bytes ++ cut.segment else cut.segment
  let (sent, compressed) := sentPayload compress option payload
  (s.link.encrypt c s.vector (s.randomPrefix.1 ++ sent)).map fun stream =>
    { segmentIndex := cut.segmentIndex
      totalSegments := cut.totalSegments
      split := cut.split
      totalSize := if cut.split then data.content.length + metadata.size else payload.length
      metadataSize := metadata.size
      hasMetadata := metadata.present
      payload := payload
      compressed := compressed
      stream := stream
      rest := cut.rest }

/-- `Resource::new_internal` for a resource that is sent, up to its part map. -/
def newInternal (s : Sealing) (data : ResourceData) (metadata : Option Bytes)
    (segmentIndex sentMetadataSize : Nat) : Except String Prepared :=
  (prepareMetadata metadata sentMetadataSize).bind fun metadata =>
    prepareData c compress option s metadata segmentIndex data

def prepareNextSegment (s : Sealing) (segment : Prepared) : Option Prepared :=
  if segment.segmentIndex ≥ segment.totalSegments then none
  else
    segment.rest.bind fun rest =>
      (newInternal c compress option s rest none (segment.segmentIndex + 1)
        segment.metadataSize).toOption

/-- The segments that follow one another, at most `fuel` after the first. -/
def segmentsFrom (sealing : Nat → Sealing) : Nat → Prepared → List Prepared
  | 0, segment => [segment]
  | fuel + 1, segment =>
      match prepareNextSegment c compress option (sealing (segment.segmentIndex + 1)) segment with
      | some next => segment :: segmentsFrom sealing fuel next
      | none => [segment]

/-- The segments of a resource: the one that `new_internal` makes, and those that
`prepare_next_segment` makes after it. -/
def segmentsOf (sealing : Nat → Sealing) (data : ResourceData) (metadata : Option Bytes) :
    Except String (List Prepared) :=
  (newInternal c compress option (sealing 1) data metadata 1 0).map fun first =>
    segmentsFrom c compress option sealing first.totalSegments first

end Reticulum.Resource
