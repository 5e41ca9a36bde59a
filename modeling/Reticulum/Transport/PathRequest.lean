import Reticulum.Transport.Instance

/-!
# Path requests

`Transport::path_request_handler`, `path_request`, `request_path` and
`request_path_recursive` (`src/transport.rs`): a request is decoded, passed on
once for its destination and tag, and answered from what the node knows.

## Implementation notes

What a call sends is its `Answer`. A request that `request_path` sends without a
tag gets a random one when it is built. The announce of a destination of this
node is made by `src/destination.rs` and is named in the answer.
-/

namespace Reticulum.Transport

/-- A call of `request_path`. -/
structure Request where
  destinationHash : Bytes
  tag : Option Bytes
  attachedInterface : Option String
  deriving DecidableEq

/-- An announce of a destination of this node that answers a request. -/
structure OwnAnswer where
  destinationHash : Bytes
  attachedInterface : Option String
  tag : Option Bytes
  deriving DecidableEq

/-- What a call sends: frames, path requests, and announces of this node. -/
structure Answer where
  frames : List (String × Bytes)
  requests : List Request
  announces : List OwnAnswer

/-- Nothing is sent. -/
def Answer.none : Answer := { frames := [], requests := [], announces := [] }

section

variable (n : Instance)

/-- `Transport::request_path`: the time of the request is noted. -/
def requestPath (r : Reading) (request : Request) : Instance × List Request :=
  ({ n with pathRequests := n.pathRequests.insert request.destinationHash r.now }, [request])

/-- The data of a path request. -/
def pathRequestData (destinationHash requestTag : Bytes) : Bytes :=
  destinationHash ++ (if n.transportEnabled then n.identityHash.getD [] else []) ++ requestTag

/-- The interfaces that a path request leaves on: those that are online and send packets,
or the one of them that it is attached to. -/
def requestInterfaces (attachedInterface : Option String) : List String :=
  (n.interfaces.filter fun i =>
    i.online && n.interfaceOut i.name &&
      (attachedInterface == none || attachedInterface == some i.name)).map (·.name)

def headerMinSize : Nat := 19

/-- The time until which a request of this length uses up the announce cap. -/
def capUntil (i : InterfaceStub) (cap : AnnounceCap) (now : ℚ) (dataLen : Nat) : ℚ :=
  match i.bitrate.filter (0 < ·) with
  | none => cap.allowedAt
  | some bitrate =>
      now + ((dataLen + headerMinSize) * 8 : Nat) / bitrate /
        (if 0 < cap.cap then cap.cap else 2 / 100)

/-- `Transport::request_path_recursive`: a request on behalf of another node keeps to the
announce cap of the interface. -/
def requestPathRecursive (r : Reading) (destinationHash : Bytes) (onInterface : String)
    (tag : Option Bytes) : Instance × List Request :=
  let request := { destinationHash := destinationHash, tag := tag
                   attachedInterface := some onInterface : Request }
  match findInterface n.interfaces onInterface with
  | none => requestPath n r request
  | some i =>
      let cap := n.announceCaps onInterface
      if cap.queue ≠ [] ∨ r.now < cap.allowedAt then (n, [])
      else
        let dataLen := destinationHash.length + (if n.transportEnabled then Wire.dstLen else 0) +
          (tag.map List.length).getD Wire.dstLen
        let cap := { cap with allowedAt := capUntil i cap r.now dataLen }
        requestPath { n with announceCaps := Function.update n.announceCaps onInterface cap } r
          request

/-- `request_path` on each of these interfaces. -/
def requestOnEach (r : Reading) (destinationHash : Bytes) (tag : Option Bytes) :
    Instance → List String → Instance × List Request
  | n, [] => (n, [])
  | n, name :: names =>
      let (n, first) := requestPath n r
        { destinationHash := destinationHash, tag := tag, attachedInterface := some name }
      let (n, rest) := requestOnEach r destinationHash tag n names
      (n, first ++ rest)

/-- `request_path_recursive` on each of these interfaces. -/
def discoverOnEach (r : Reading) (destinationHash : Bytes) (tag : Option Bytes) :
    Instance → List String → Instance × List Request
  | n, [] => (n, [])
  | n, name :: names =>
      let (n, first) := requestPathRecursive n r destinationHash name tag
      let (n, rest) := discoverOnEach r destinationHash tag n names
      (n, first ++ rest)

/-- Whether an interface is one that a node discovers paths for. -/
def searchesFor (attachedInterface : Option String) : Bool :=
  n.transportEnabled && (attachedInterface.bind (findInterface n.interfaces)).any fun i =>
    i.mode = modeAccessPoint || i.mode = modeGateway || i.mode = modeRoaming

/-- A request for a destination behind a local client is noted for its interface. -/
def noteLocalRequest (r : Reading) (destinationHash : Bytes)
    (attachedInterface : Option String) : Instance :=
  let best := (selectPath n.pathTable n.interfaces destinationHash r.now).bind
    (·.receivingInterface)
  match best, attachedInterface.bind (findInterface n.interfaces) with
  | some name, some i =>
      if n.localClientInterfaces.any fun j => j.name == name then
        { n with
          pendingLocalPathRequests := n.pendingLocalPathRequests.insert destinationHash i }
      else n
  | _, _ => n

/-- `get_cached_packet` of an announce. -/
def cachedAnnounce (c : Crypto) (n : Instance) (packetHash : Bytes) : Option Wire.Packet :=
  (n.announceCache packetHash).bind fun entry =>
    (Wire.Packet.holding entry.raw entry.interfaceName).unpack c

/-- When the answer to a path request is due: at once for local clients, after a grace
time otherwise. -/
def answerTimeout (r : Reading) (best : PathEntry) (isFromLocalClient : Bool)
    (attachedInterface : Option String) : ℚ :=
  if isFromLocalClient ||
      best.receivingInterface.any fun name =>
        n.localClientInterfaces.any fun j => j.name == name then r.now
  else
    r.now + pathRequestGrace +
      if (attachedInterface.bind (findInterface n.interfaces)).any fun i => i.mode = modeRoaming
      then pathRequestRg else 0

/-- The entry of `announce_table` that answers a path request. -/
def answerEntry (r : Reading) (best : PathEntry) (packet : Wire.Packet)
    (isFromLocalClient : Bool) (attachedInterface : Option String) : AnnounceEntry :=
  { timestamp := r.now
    retransmitTimeout := answerTimeout n r best isFromLocalClient attachedInterface
    retries := pathfinderR
    receivedFrom := best.nextHop
    hops := best.hops
    packet := packet
    localRebroadcasts := 0
    blockRebroadcasts := true
    attachedInterface := attachedInterface }

/-- The entry that an answer displaces is put aside in `held_announces`. -/
def holdAnnounce (packet : Wire.Packet) : Table AnnounceEntry :=
  match packet.destinationHash with
  | none => n.heldAnnounces
  | some hash =>
      match n.announceTable hash with
      | none => n.heldAnnounces
      | some entry => n.heldAnnounces.insert hash entry

/-- Why a known path is not told: the next hop is the one that asks, or the path leads
back over the same roaming interface. -/
def withholds (best : PathEntry) (attachedInterface : Option String)
    (requestorTransportId : Option Bytes) : Bool :=
  requestorTransportId == some best.nextHop ||
    attachedInterface.any fun name =>
      best.receivingInterface == some name &&
        (findInterface n.interfaces name).any fun i => i.mode = modeRoaming

/-- A request for a path that is known is answered with the cached announce. -/
def answerFromCache (c : Crypto) (n : Instance) (r : Reading) (destinationHash : Bytes)
    (best : PathEntry) (isFromLocalClient : Bool) (attachedInterface : Option String)
    (requestorTransportId : Option Bytes) : Instance × Answer :=
  if withholds n best attachedInterface requestorTransportId then (n, .none)
  else
    match cachedAnnounce c n best.packetHash with
    | none => (n, .none)
    | some packet =>
        let packet := { packet with hops := best.hops }
        let entry := answerEntry n r best packet isFromLocalClient attachedInterface
        let n := { n with
          heldAnnounces := holdAnnounce n packet
          announceTable := n.announceTable.insert destinationHash entry }
        match attachedInterface with
        | none => (n, .none)
        | some name =>
            if isFromLocalClient then
              let raw := announceRaw n.toTransportState packet destinationHash pathResponse
              let (s, frames) := paceLocalClient r raw (n.toTransportState, []) name
              ({ n with toTransportState := s }, { Answer.none with frames := frames })
            else (n, .none)

/-- The interfaces other than the one a request came from. -/
def otherInterfaces (attachedInterface : Option String) : List String :=
  (n.interfaces.map (·.name)).filter fun name => attachedInterface != some name

/-- A request for a path that is not known: passed on for a local client, discovered for
the interfaces that this node searches for, handed to the local clients, or ignored. -/
def requestUnknown (r : Reading) (randomHash destinationHash : Bytes)
    (isFromLocalClient searches : Bool) (attachedInterface : Option String)
    (tag : Option Bytes) : Instance × Answer :=
  if isFromLocalClient then
    let (n, requests) := requestOnEach r destinationHash (some randomHash) n
      (otherInterfaces n attachedInterface)
    (n, { Answer.none with requests := requests })
  else if searches then
    if n.discoveryPathRequests.contains destinationHash then (n, .none)
    else
      let n := { n with
        discoveryPathRequests := n.discoveryPathRequests.insert destinationHash
          { destinationHash := destinationHash
            timeout := r.now + pathRequestTimeout
            requestingInterface := attachedInterface } }
      let (n, requests) := discoverOnEach r destinationHash tag n
        (otherInterfaces n attachedInterface)
      (n, { Answer.none with requests := requests })
  else
    let (n, requests) := requestOnEach r destinationHash none n
      (n.localClientInterfaces.map (·.name))
    (n, { Answer.none with requests := requests })

end

def pathRequest (c : Crypto) (n : Instance) (call : Call) (destinationHash : Bytes)
    (isFromLocalClient : Bool) (attachedInterface : Option String)
    (requestorTransportId tag : Option Bytes) : Instance × Answer :=
  let r := call.reading
  let searches := searchesFor n attachedInterface
  let n := if n.localClientInterfaces.isEmpty then n
    else noteLocalRequest n r destinationHash attachedInterface
  if n.destinations.contains destinationHash then
    (n, { Answer.none with
      announces := [{ destinationHash := destinationHash
                      attachedInterface := attachedInterface, tag := tag }] })
  else
    match if n.transportEnabled || isFromLocalClient then
        selectPath n.pathTable n.interfaces destinationHash r.now else none with
    | some best => answerFromCache c n r destinationHash best isFromLocalClient attachedInterface
        requestorTransportId
    | none => requestUnknown n r call.randomHash destinationHash isFromLocalClient searches
        attachedInterface tag

/-- What a path request says: the destination, the transport instance that asks, and the
tag. -/
structure ParsedRequest where
  destinationHash : Bytes
  requestingTransportInstance : Option Bytes
  tag : Option Bytes
  deriving DecidableEq

/-- The fields of a path request. With more than two hashes of data the second one is the
transport instance, and the tag follows; otherwise the tag follows the destination. -/
def parseRequest (data : Bytes) : ParsedRequest :=
  if Wire.dstLen * 2 < data.length then
    { destinationHash := data.take Wire.dstLen
      requestingTransportInstance := some (slice data Wire.dstLen Wire.dstLen)
      tag := some ((data.drop (Wire.dstLen * 2)).take Wire.dstLen) }
  else
    { destinationHash := data.take Wire.dstLen
      requestingTransportInstance := none
      tag := if Wire.dstLen < data.length then some ((data.drop Wire.dstLen).take Wire.dstLen)
        else none }

/-- What a request is recognised by: the destination and the tag. -/
def uniqueTag (destinationHash tag : Bytes) : Bytes := destinationHash ++ tag

/-- Whether a request with this tag was handled before, in this generation of tags or in
the previous one. -/
def tagSeen (n : Instance) (unique : Bytes) : Bool :=
  n.discoveryPrTagsPrev.contains unique || n.discoveryPrTagsSet.contains unique

/-- The tag of a request that is dealt with. -/
def recordTag (n : Instance) (unique : Bytes) : Instance :=
  { n with
    discoveryPrTagsSet := n.discoveryPrTagsSet.insert unique
    discoveryPrTags := n.discoveryPrTags ++ [unique] }

def pathRequestHandler (c : Crypto) (n : Instance) (call : Call) (p : Wire.Packet) : Instance × Answer :=
  if p.data.length < Wire.dstLen then (n, .none)
  else
    let request := parseRequest p.data
    match request.tag with
    | none => (n, .none)
    | some tag =>
        let unique := uniqueTag request.destinationHash tag
        if tagSeen n unique then (n, .none)
        else
          pathRequest c (recordTag n unique) call request.destinationHash
            (fromLocalClient n.toTransportState p) p.receivingInterface
            request.requestingTransportInstance (some tag)

/-! ## What a path request changes -/

/-- A path request was dealt with: the routes, the hash lists and the tags are as before, and
what is new in the announce table is a path response. -/
structure Asked (n n' : Instance) : Prop where
  state : ∃ announceTable discovery pacing pending held requests localRequests caps,
    n' = { n with
      announceTable := announceTable, discoveryPathRequests := discovery
      clientAnnouncePacing := pacing, pendingLocalAnnounces := pending
      heldAnnounces := held, pathRequests := requests
      pendingLocalPathRequests := localRequests, announceCaps := caps }
  responses : ∀ hash, n'.announceTable hash = n.announceTable hash ∨
    ∃ e, n'.announceTable hash = some e ∧ e.blockRebroadcasts = true

namespace Asked

variable {c : Crypto} {n n' n'' : Instance} {r : Reading} {destinationHash : Bytes}
  {tag : Option Bytes} {attachedInterface : Option String}

theorem refl : Asked n n := ⟨⟨_, _, _, _, _, _, _, _, rfl⟩, fun _ => .inl rfl⟩

theorem trans (h : Asked n n') (h' : Asked n' n'') : Asked n n'' := by
  refine ⟨?_, ?_⟩
  · obtain ⟨_, _, _, _, _, _, _, _, rfl⟩ := h.state
    obtain ⟨_, _, _, _, _, _, _, _, rfl⟩ := h'.state
    exact ⟨_, _, _, _, _, _, _, _, rfl⟩
  · intro hash
    obtain hsame | hresponse := h'.responses hash
    · rw [hsame]
      exact h.responses hash
    · exact .inr hresponse

theorem requestPathRecursive (name : String) :
    Asked n (requestPathRecursive n r destinationHash name tag).1 := by
  unfold Transport.requestPathRecursive
  dsimp only
  split
  · exact ⟨⟨_, _, _, _, _, _, _, _, rfl⟩, fun _ => .inl rfl⟩
  · split
    · exact refl
    · exact ⟨⟨_, _, _, _, _, _, _, _, rfl⟩, fun _ => .inl rfl⟩

theorem requestOnEach (names : List String) :
    Asked n (requestOnEach r destinationHash tag n names).1 := by
  induction names generalizing n with
  | nil => exact refl
  | cons name names ih =>
      refine trans ?_ ih
      exact ⟨⟨_, _, _, _, _, _, _, _, rfl⟩, fun _ => .inl rfl⟩

theorem discoverOnEach (names : List String) :
    Asked n (discoverOnEach r destinationHash tag n names).1 := by
  induction names generalizing n with
  | nil => exact refl
  | cons name names ih => exact (requestPathRecursive name).trans ih

theorem noteLocalRequest : Asked n (noteLocalRequest n r destinationHash attachedInterface) := by
  unfold Transport.noteLocalRequest
  dsimp only
  split
  · split
    · exact ⟨⟨_, _, _, _, _, _, _, _, rfl⟩, fun _ => .inl rfl⟩
    · exact refl
  · exact refl

theorem answerFromCache (best : PathEntry) (isFromLocalClient : Bool)
    (requestorTransportId : Option Bytes) :
    Asked n (answerFromCache c n r destinationHash best isFromLocalClient attachedInterface
      requestorTransportId).1 := by
  unfold Transport.answerFromCache
  split
  · exact refl
  split
  · exact refl
  rename_i packet _
  have hinsert : ∀ hash,
      n.announceTable.insert destinationHash (answerEntry n r best { packet with hops := best.hops }
        isFromLocalClient attachedInterface) hash = n.announceTable hash ∨
      ∃ e, n.announceTable.insert destinationHash (answerEntry n r best
        { packet with hops := best.hops } isFromLocalClient attachedInterface) hash = some e ∧
          e.blockRebroadcasts = true := by
    intro hash
    by_cases heq : hash = destinationHash
    · subst heq
      exact .inr ⟨_, Table.insert_self _ _ _, rfl⟩
    · exact .inl (Table.insert_of_ne _ heq _)
  dsimp only
  split
  · exact ⟨⟨_, _, _, _, _, _, _, _, rfl⟩, hinsert⟩
  split
  · unfold paceLocalClient
    dsimp only
    split <;> exact ⟨⟨_, _, _, _, _, _, _, _, rfl⟩, hinsert⟩
  · exact ⟨⟨_, _, _, _, _, _, _, _, rfl⟩, hinsert⟩

theorem requestUnknown (randomHash : Bytes) (isFromLocalClient searches : Bool) :
    Asked n (requestUnknown n r randomHash destinationHash isFromLocalClient searches
      attachedInterface tag).1 := by
  unfold Transport.requestUnknown
  split
  · exact requestOnEach _
  split
  · split
    · exact refl
    · refine trans ?_ (discoverOnEach _)
      exact ⟨⟨_, _, _, _, _, _, _, _, rfl⟩, fun _ => .inl rfl⟩
  · exact requestOnEach _

theorem pathRequest (call : Call) (isFromLocalClient : Bool) (requestorTransportId : Option Bytes) :
    Asked n (pathRequest c n call destinationHash isFromLocalClient attachedInterface
      requestorTransportId tag).1 := by
  unfold Transport.pathRequest
  dsimp only
  split
  · split
    · exact refl
    · split
      · exact answerFromCache _ _ _
      · exact requestUnknown _ _ _
  · split
    · exact noteLocalRequest
    · split
      · exact noteLocalRequest.trans (answerFromCache _ _ _)
      · exact noteLocalRequest.trans (requestUnknown _ _ _)

end Asked

/-- A path request is ignored, or its tag is new: then it is noted, and the request is
dealt with. -/
theorem pathRequestHandler_cases (c : Crypto) (n : Instance) (call : Call) (p : Wire.Packet) :
    pathRequestHandler c n call p = (n, .none) ∨
    ∃ tag, (parseRequest p.data).tag = some tag ∧ Wire.dstLen ≤ p.data.length ∧
      tagSeen n (uniqueTag (parseRequest p.data).destinationHash tag) = false ∧
      pathRequestHandler c n call p =
        pathRequest c (recordTag n (uniqueTag (parseRequest p.data).destinationHash tag)) call
          (parseRequest p.data).destinationHash (fromLocalClient n.toTransportState p)
          p.receivingInterface (parseRequest p.data).requestingTransportInstance (some tag) := by
  unfold pathRequestHandler
  split
  · exact .inl rfl
  rename_i hlength
  dsimp only
  split
  · exact .inl rfl
  rename_i tag htag
  split
  · exact .inl rfl
  · rename_i hseen
    exact .inr ⟨tag, htag, Nat.not_lt.mp hlength, by simpa using hseen, rfl⟩

/-- What a path request frame changes. -/
theorem pathRequestHandler_state (c : Crypto) (n : Instance) (call : Call) (p : Wire.Packet) :
    ∃ n' : Instance, (pathRequestHandler c n call p).1 = { n with
      announceTable := n'.announceTable, discoveryPathRequests := n'.discoveryPathRequests
      clientAnnouncePacing := n'.clientAnnouncePacing
      pendingLocalAnnounces := n'.pendingLocalAnnounces, heldAnnounces := n'.heldAnnounces
      pathRequests := n'.pathRequests, pendingLocalPathRequests := n'.pendingLocalPathRequests
      announceCaps := n'.announceCaps, discoveryPrTags := n'.discoveryPrTags
      discoveryPrTagsSet := n'.discoveryPrTagsSet } := by
  refine ⟨(pathRequestHandler c n call p).1, ?_⟩
  obtain heq | ⟨tag, -, -, -, heq⟩ := pathRequestHandler_cases c n call p
  · rw [heq]
  · rw [heq]
    obtain ⟨_, _, _, _, _, _, _, _, hasked⟩ := (Asked.pathRequest (c := c)
      (n := recordTag n (uniqueTag (parseRequest p.data).destinationHash tag)) call
      (fromLocalClient n.toTransportState p)
      (parseRequest p.data).requestingTransportInstance).state
    rw [hasked]
    rfl

end Reticulum.Transport
