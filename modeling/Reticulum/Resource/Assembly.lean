import Reticulum.Resource.Operations

/-!
# Assembly and proof

The receiver assembles a copy of a resource whose parts have all come, checks
it against the advertised hash and sends a proof (`assemble`, `prove`). The
proof completes the sender's resource, and the next segment, if there is one,
is advertised (`validate_proof`).

## Implementation notes

Decryption, decompression and the storage file are given by `Decoding`. The
slicing of metadata and the opening of the storage file panic when they fail; a
panic is `none`. Whether a next segment exists is decided by the caller, which
holds it.
-/

namespace Reticulum.Resource

/-- What the assembly of a stream reads from the link and from the disk. -/
structure Decoding where
  /-- `link.decrypt` -/
  decrypt : Bytes → Option Bytes
  /-- `bounded_decompress` -/
  decompress : Bytes → Option Bytes
  /-- the storage file, if one is used, can be opened -/
  storageOk : Bool
  /-- the combined file of all segments -/
  combined : Option Bytes

/-- The data of the assembled parts; `none` when it is too large. -/
def assembledData (r : Resource) (d : Decoding) : Option Bytes :=
  let stream := (r.parts.filterMap id).flatten
  let data := if r.encrypted then (d.decrypt stream).getD stream else stream
  let data := if data.length ≥ randomHashSize then data.drop randomHashSize else data
  if r.compressed then d.decompress data else some data

/-- The metadata that the data of a first segment starts with lies inside
it. -/
def metadataFits (r : Resource) (data : Bytes) : Bool :=
  if r.hasMetadata ∧ r.segmentIndex = 1 then
    match data with
    | a :: b :: c :: rest => a.toNat * 65536 + b.toNat * 256 + c.toNat ≤ rest.length
    | _ => false
  else true

variable (fullHash : Bytes → Digest)

def prove (r : Resource) (env : Readings) : Resource × List Effect :=
  if r.status = .failed then (r, [])
  else if env.sendOk then
    (r, [.proof (r.hash.1 ++ (fullHash (r.data.getD [] ++ r.hash.1)).1)])
  else r.cancel env

/-- The end of `assemble`: the link is told, and on the last segment the
application. -/
def finishAssembly (r : Resource) (effects : List Effect) : Resource × List Effect :=
  (r, effects ++ .conclude ::
    if r.segmentIndex = r.totalSegments ∧ r.callback then [.callback r] else [])

/-- The data that a segment of a split resource shows. -/
def segmentData (r : Resource) (d : Decoding) : Resource :=
  if r.split then
    { r with data := if r.segmentIndex = r.totalSegments then d.combined else none }
  else r

def assemble (r : Resource) (d : Decoding) (env : Readings) : Option (Resource × List Effect) :=
  if r.status = .failed then some (r, [])
  else
    match assembledData r d with
    | none => some ({ r with status := .corrupt }.cancel env)
    | some data =>
        if fullHash (data ++ r.randomHash) = r.hash then
          if metadataFits r data ∧ d.storageOk then
            let (r, effects) :=
              { r with data := some data, status := .complete }.prove fullHash env
            some ((r.segmentData d).finishAssembly effects)
          else none
        else some ({ r with status := .corrupt }.finishAssembly [])

/-- The proof is the expected one. -/
def proofMatches (r : Resource) (proofData : Bytes) : Bool :=
  proofData.length = 64 ∧ proofData.drop 32 = r.expectedProof

/-- `Resource::validate_proof`; `hasNext` says that the next segment was made
by then. -/
def validateProof (r : Resource) (proofData : Bytes) (hasNext : Bool) :
    Resource × List Effect :=
  if r.status ≠ .failed ∧ r.proofMatches proofData then
    let r := { r with status := .complete }
    if r.segmentIndex = r.totalSegments then
      (r, .conclude :: if r.callback then [.callback r] else [])
    else if hasNext then (r, [.conclude, .advertiseNext])
    else
      let r := { r with status := .failed }
      (r, .conclude :: if r.callback then [.callback r] else [])
  else (r, [])

/-- `advertise_job` while another resource of the link is in flight. -/
def queue (r : Resource) : Resource := { r with status := .queued }

/-- The outcome of `advertise_job` once the link is ready: the advertisement
goes out, or the resource is cancelled. -/
def advertise (r : Resource) (env : Readings) : Resource × List Effect :=
  if env.linkActive ∧ env.sendOk then
    ({ r with status := .advertised, rttKnown := false, retriesLeft := r.maxAdvRetries }, [.adv])
  else r.cancel env

/-- What `new_internal` makes the next segment from. -/
structure SegmentInput where
  sdu : Nat
  stream : Bytes
  hashedData : Bytes
  compressed : Bool
  salts : List Bytes

/-- The next segment of a resource, as `prepare_next_segment` makes it. -/
def nextSegment (r : Resource) (input : SegmentInput) : Option Resource :=
  (outgoing fullHash r.callback input.sdu input.stream input.hashedData input.compressed
    input.salts).map fun next =>
      { next with
        segmentIndex := r.segmentIndex + 1, totalSegments := r.totalSegments, split := true }

end Reticulum.Resource
