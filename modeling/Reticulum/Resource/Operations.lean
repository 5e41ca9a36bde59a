import Reticulum.Resource.Mapping

/-!
# The operations of a transfer

The receiver asks for the parts of its window (`prepare_request_next_data`),
stores the parts that arrive (`receive_part`) and fills in hashmap updates
(`hashmap_update`); the sender answers requests (`request`). Either end may
give up (`cancel`).

## Implementation notes

An operation returns the resource and its effects in order. `request` returns
`none` where the source's slice indexing panics. `receive_part` hands the
decision to ask for more parts back to its caller, which asks later; that
later call is an operation of its own here.
-/

namespace Reticulum.Resource

/-- `Resource::cancel`. The next segment is cancelled first. -/
def cancel (r : Resource) (env : Readings) : Resource × List Effect :=
  if r.status = .corrupt then
    (r, [.cancelNext, .cancelIncoming, .control .rcl, .teardown])
  else if r.status.code < ResourceStatus.complete.code then
    let r := { r with status := .failed }
    let told := if env.linkActive then [.control (if r.initiator then .icl else .rcl)] else []
    let dropped := if r.initiator then .cancelOutgoing else .cancelIncoming
    (r, .cancelNext :: told ++ dropped :: if r.callback then [.conclude, .callback r] else [])
  else (r, [.cancelNext])

def rejected (r : Resource) : Resource × List Effect :=
  if r.status.code < ResourceStatus.complete.code ∧ r.initiator then
    let r := { r with status := .rejected }
    (r, .cancelOutgoing :: if r.callback then [.conclude, .callback r] else [])
  else (r, [])

/-! ## The receiver's requests -/

/-- The loop of `prepare_request_next_data`: the hashes of the missing parts
from `pn` on, and whether a missing part has no hash yet. -/
def scanWindow (r : Resource) : Nat → Nat → Nat → List MapHash × Bool
  | 0, _, _ => ([], false)
  | fuel + 1, pn, outstanding =>
      match r.parts[pn]? with
      | none => ([], false)
      | some (some _) =>
          if outstanding ≥ r.window then ([], false) else scanWindow r fuel (pn + 1) outstanding
      | some none =>
          let partHash := r.hashmap[pn]?.getD zeroHash
          if partHash = zeroHash then ([], true)
          else if outstanding + 1 ≥ r.window then ([partHash], false)
          else
            let (hashes, exhausted) := scanWindow r fuel (pn + 1) (outstanding + 1)
            (partHash :: hashes, exhausted)

def hashmapIsExhausted : UInt8 := 0xFF

def hashmapIsNotExhausted : UInt8 := 0x00

/-- The first part that is missing, as the source computes it. -/
def searchStart (r : Resource) : Nat := (r.consecutiveCompletedHeight + 1).toNat

def prepareRequestNextData (r : Resource) : Resource × Option Bytes :=
  if r.status = .failed ∨ r.waitingForHmu then (r, none)
  else
    let (hashes, exhausted) := scanWindow r r.window r.searchStart 0
    let r := { r with outstandingParts := hashes.length }
    let tail := r.hash.1 ++ Bytes.ofBlocks hashes
    if exhausted then
      match r.hashmap[r.hashmapHeight - 1]? with
      | some last => ({ r with waitingForHmu := true },
          some (hashmapIsExhausted :: last.1 ++ tail))
      | none => (r, some (hashmapIsExhausted :: tail))
    else (r, some (hashmapIsNotExhausted :: tail))

def recordRequestSent (r : Resource) : Resource :=
  { r with reqSent := true, reqResp := false }

/-- `Resource::request_next`, and the deferred requests of the link: build the
request, send it, and record that or cancel. -/
def requestNext (r : Resource) (env : Readings) : Resource × List Effect :=
  match r.prepareRequestNextData with
  | (r, none) => (r, [])
  | (r, some data) =>
      if env.sendOk then (r.recordRequestSent, [.req data]) else r.cancel env

/-! ## Parts and hashmap updates -/

/-- Store a part in slot `i` and move the consecutive height over it. -/
def storePart (r : Resource) (i : Nat) (data : Bytes) : Resource :=
  let parts := r.parts.set i (some data)
  let height := if (i : Int) = r.consecutiveCompletedHeight + 1 then (i : Int)
    else r.consecutiveCompletedHeight
  { r with
    parts := parts
    receivedCount := r.receivedCount + 1
    outstandingParts := r.outstandingParts - 1
    consecutiveCompletedHeight :=
      height + ((parts.drop (height + 1).toNat).takeWhile Option.isSome).length }

/-- The loop of `receive_part` over the window's hashes. -/
def storeMatches (partHash : MapHash) (data : Bytes) :
    List MapHash → Nat → Resource → Resource
  | [], _, r => r
  | h :: hashes, i, r =>
      storeMatches partHash data hashes (i + 1)
        (if h = partHash ∧ r.parts[i]? = some none then r.storePart i data else r)

def hashmapChunks (r : Resource) (start count : Nat) : List MapHash :=
  (r.hashmap.drop start).take count

/-- The first response to a request: its rate may widen the window. -/
def firstResponse (r : Resource) (env : Readings) : Resource :=
  if r.reqResp then r
  else
    let r := { r with reqResp := true, rttKnown := r.rttKnown || env.linkRttKnown }
    if env.rttPositive ∧ env.respRateFast ∧ r.fastRateRounds < fastRateThreshold then
      { r with
        fastRateRounds := r.fastRateRounds + 1
        windowMax := if r.fastRateRounds + 1 = fastRateThreshold then windowMaxFast
          else r.windowMax }
    else r

/-- The window grows when everything that was asked for has arrived. -/
def growWindow (r : Resource) : Resource :=
  if r.window < r.windowMax then
    { r with
      window := r.window + 1
      windowMin := if usizeSub (r.window + 1) r.windowMin > usizeSub r.windowFlexibility 1
        then r.windowMin + 1 else r.windowMin }
  else r

/-- The rate of the parts received since the request moves the window's
bound. -/
def measureRate (r : Resource) (env : Readings) : Resource :=
  if r.reqSent ∧ env.sinceRequest then
    let r := if env.dataRateFast ∧ r.fastRateRounds < fastRateThreshold then
        { r with
          fastRateRounds := r.fastRateRounds + 1
          windowMax := if r.fastRateRounds + 1 = fastRateThreshold then windowMaxFast
            else r.windowMax }
      else r
    if r.fastRateRounds = 0 ∧ env.dataRateVerySlow ∧
        r.verySlowRateRounds < verySlowRateThreshold then
      { r with
        verySlowRateRounds := r.verySlowRateRounds + 1
        windowMax := if r.verySlowRateRounds + 1 = verySlowRateThreshold
          then windowMaxVerySlow else r.windowMax }
    else r
  else r

variable (fullHash : Bytes → Digest)

/-- The start of `receive_part`. -/
def beginPart (r : Resource) (env : Readings) : Resource :=
  { r with retriesLeft := r.maxRetries }.firstResponse env

/-- The part is compared with the hashes of the window. -/
def storeInWindow (r : Resource) (data : Bytes) : Resource :=
  storeMatches (r.getMapHash fullHash data) data (r.hashmapChunks r.searchStart r.window)
    r.searchStart { r with status := .transferring }

/-- The last part came: a copy of the resource is assembled. -/
def startAssembly (r : Resource) : Resource :=
  { r with assemblyLock := true, status := .assembling }

/-- `Resource::receive_part`: the resource, its effects, whether the caller is
to ask for the next parts, and whether it is to start the watchdog. -/
def receivePart (r : Resource) (data : Bytes) (env : Readings) :
    Resource × List Effect × Bool × Bool :=
  let startWatchdog := !r.reqResp && !r.rttKnown
  let r := r.beginPart env
  if r.status = .failed then (r, [], false, startWatchdog)
  else
    let r := r.storeInWindow fullHash data
    if r.receivedCount = r.totalParts ∧ ¬ r.assemblyLock then
      (r.startAssembly, [.assemble r.startAssembly], false, startWatchdog)
    else if r.outstandingParts = 0 then
      let r := r.growWindow.measureRate env
      (r, [], !r.waitingForHmu, startWatchdog)
    else (r, [], false, startWatchdog)

/-- The hashes of an update are filled into the hashmap. -/
def fillHashmap (r : Resource) (segment : Nat) (hashes : List MapHash) : Resource :=
  let (hashmap, height) :=
    writeHashes hashes (segment * hashmapMaxLen) (r.hashmap, r.hashmapHeight)
  { r with status := .transferring, hashmap := hashmap, hashmapHeight := height }

/-- `Resource::hashmap_update`: whether the next parts are to be asked for. -/
def hashmapUpdate (r : Resource) (segment : Nat) (hashmap : Bytes) (env : Readings) :
    Resource × List Effect × Bool :=
  if r.status = .failed then (r, [], false)
  else
    let hashes := Bytes.blocks4 hashmap
    let r := r.fillHashmap segment hashes
    if hashes.length < 1 then ((r.cancel env).1, (r.cancel env).2, false)
    else ({ r with waitingForHmu := false }, [], true)

/-- `Resource::hashmap_update_packet`; `update` is the unpacked payload, if it
could be unpacked. -/
def hashmapUpdatePacket (r : Resource) (update : Option (Nat × Bytes)) (env : Readings) :
    Resource × List Effect × Bool :=
  if r.status ≠ .failed ∧ r.waitingForHmu then
    let r := { r with retriesLeft := r.maxRetries }
    match update with
    | some (segment, hashmap) => r.hashmapUpdate segment hashmap env
    | none => (r, [], false)
  else (r, [], false)

/-! ## The sender's answers -/

/-- The parts with a requested hash go out, in the order of the map. -/
def sendParts (r : Resource) (mapHashes : List MapHash) (env : Readings) :
    Resource × List Effect :=
  let asked := r.packets.filter fun packet => packet.mapHash ∈ mapHashes
  ({ r with
      packets := r.packets.mapIdx fun i packet =>
        if packet.mapHash ∈ mapHashes then { packet with sent := env.carried i } else packet
      sentParts := r.sentParts + (asked.filter fun packet => !packet.sent).length },
    asked.map fun packet => .part packet.data)

/-- `rposition`: the last position of a map hash. -/
def lastPosition (mapHash : MapHash) (mapHashes : List MapHash) : Option Nat :=
  (mapHashes.reverse.findIdx? fun h => h = mapHash).map fun i => mapHashes.length - 1 - i

/-- The segment that follows the entry at `lastIndex`. -/
def nextSegmentAfter (lastIndex : Nat) : Nat :=
  if (lastIndex + 1) % hashmapMaxLen = 0 then (lastIndex + 1) / hashmapMaxLen
  else lastIndex / hashmapMaxLen + 1

/-- `receiver_min_consecutive_height` after a request for more hashmap. -/
def noteReceiverHeight (r : Resource) (lastIndex : Nat) : Resource :=
  { r with receiverMinConsecutiveHeight := lastIndex + 1 - (1 + windowMaxFast) }

/-- The hashmap branch of `request`: `false` when `request` returns early. -/
def answerHashmap (r : Resource) (lastMapHash : MapHash) (env : Readings) :
    Resource × List Effect × Bool :=
  match lastPosition lastMapHash (r.packets.map PartPacket.mapHash) with
  | none => ((r.cancel env).1, (r.cancel env).2, false)
  | some lastIndex =>
      let r := r.noteReceiverHeight lastIndex
      let segment := nextSegmentAfter lastIndex
      if segment ≥ r.hashmapHeight then (r, [], false)
      else if env.sendOk then
        (r, [.hmu segment
          (Bytes.ofBlocks (hashmapSegment r.hashmap segment r.parts.length))], true)
      else ((r.cancel env).1, (r.cancel env).2, true)

/-- The end of `request`: all parts went out. -/
def awaitProof (r : Resource) : Resource :=
  if r.sentParts = r.packets.length then
    { r with status := .awaitingProof, retriesLeft := 3 }
  else r

/-- The start of `request`. -/
def beginRequest (r : Resource) : Resource :=
  { r with rttKnown := true, status := .transferring, retriesLeft := r.maxRetries }

/-- Where the requested hashes of a request start. -/
def hashesOffset (requestData : Bytes) : Nat :=
  (if requestData.head? = some hashmapIsExhausted then 1 + 4 else 1) + 32

/-- The hashes a request asks for. -/
def requestedHashes (requestData : Bytes) : List MapHash :=
  Bytes.blocks4 (requestData.drop (hashesOffset requestData))

/-- The last hash of its map that the receiver of a flagged request knows. -/
def lastMapHash (requestData : Bytes) : MapHash :=
  (Bytes.blocks4 (requestData.drop 1)).headD zeroHash

def request (r : Resource) (requestData : Bytes) (env : Readings) :
    Option (Resource × List Effect) :=
  if r.status = .failed then some (r, [])
  else if requestData.length < hashesOffset requestData then none
  else
    let (r, parts) := r.beginRequest.sendParts (requestedHashes requestData) env
    if requestData.head? = some hashmapIsExhausted then
      let (r, effects, goesOn) := r.answerHashmap (lastMapHash requestData) env
      some (if goesOn then r.awaitProof else r, parts ++ effects)
    else some (r.awaitProof, parts)

/-! ## The watchdog -/

/-- A receiver whose parts did not come in time: the window shrinks and the
parts are asked for again. -/
def shrinkWindow (r : Resource) : Resource :=
  if r.window > r.windowMin then
    let r := { r with window := r.window - 1 }
    if r.windowMax > r.windowMin then
      let r := { r with windowMax := r.windowMax - 1 }
      if usizeSub r.windowMax r.window > usizeSub r.windowFlexibility 1 then
        { r with windowMax := r.windowMax - 1 }
      else r
    else r
  else r

/-- One pass of the loop of `start_watchdog`, with the send that follows it. -/
def watchdog (r : Resource) (env : Readings) : Resource × List Effect :=
  if r.status.code ≥ ResourceStatus.assembling.code then (r, [])
  else if env.linkDown then r.cancel env
  else if ¬ env.timedOut then (r, [])
  else
    match r.status with
    | .advertised =>
        if r.retriesLeft = 0 then r.cancel env
        else
          let r := { r with retriesLeft := r.retriesLeft - 1 }
          if env.sendOk then (r.recordRequestSent, [.adv]) else r.cancel env
    | .transferring =>
        if r.initiator then r.cancel env
        else if r.retriesLeft > 0 then
          { r.shrinkWindow with
            retriesLeft := r.retriesLeft - 1, waitingForHmu := false }.requestNext env
        else r.cancel env
    | .awaitingProof =>
        if r.retriesLeft = 0 then r.cancel env
        else ({ r with retriesLeft := r.retriesLeft - 1 }, [.cacheRequest])
    | _ => (r, [])

end Reticulum.Resource
