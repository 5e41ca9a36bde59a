import Reticulum.Lib.Generations
import Reticulum.Packet.RoundTrip
import Reticulum.Transport.HeldAnnounces
import Reticulum.Transport.Replay

/-!
# Path requests do not loop

A path request is told by its destination and its tag. `path_request_handler`
(`src/transport.rs`) runs `path_request` for a tag that is in neither of two
generations, `jobs` rotates them, and a node that discovers a path for others passes
the tag on. So a request comes to the next node as what it was, whoever sent it,
and a node that has handled it lets it go (`loopFree_run`).

## Implementation notes

A network is a family of nodes. Any frame may come to any node at any time, so that
a frame on its way needs no place of its own: what was sent is recorded, with the
request it was sent for.
-/

namespace Reticulum.Transport

/-- What a path request is told by: its destination and its tag, as far as it is read. -/
structure RequestKey where
  destinationHash : Bytes
  tag : Bytes
  deriving DecidableEq

/-- The entry of a request in the table of tags. -/
def RequestKey.unique (key : RequestKey) : Bytes := uniqueTag key.destinationHash key.tag

/-- The request that the data of a packet is read as, if it has a tag. -/
def requestKey (data : Bytes) : Option RequestKey :=
  if data.length < Wire.dstLen then none
  else (parseRequest data).tag.map fun tag =>
    { destinationHash := (parseRequest data).destinationHash, tag := tag }

/-- The request that `path_request_handler` runs `path_request` for. -/
def acceptedRequest (n : Instance) (p : Wire.Packet) : Option RequestKey :=
  (requestKey p.data).filter fun key => !tagSeen n key.unique

/-- The requests of an answer that the discovery branch of `path_request` makes. -/
def discoveryRequests (n : Instance) (p : Wire.Packet) (answer : Answer) : List Request :=
  if !fromLocalClient n.toTransportState p && searchesFor n p.receivingInterface then
    answer.requests
  else []

/-- The frame that `request_path` sends: a broadcast to the control destination. -/
def requestFrame (c : Crypto) (requestHash : Bytes) (n : Instance) (randomHash : Bytes)
    (request : Request) : Option Bytes :=
  let destination : Wire.Destination :=
    { hash := requestHash, destType := .plain, mtu := none, encrypt := .ok }
  let data := pathRequestData n request.destinationHash (request.tag.getD randomHash)
  ((Wire.Packet.new destination data Wire.data 0 broadcast Wire.header1 none 0).pack c).toOption.map
    (·.raw)

/-- The request that a handler runs `path_request` for, and the frames that it passes the
request on with. -/
def handledRequest (c : Crypto) (requestHash : Bytes) (n : Instance) (call : Call)
    (p : Wire.Packet) : Option (RequestKey × List (Option Bytes)) :=
  (acceptedRequest n p).map fun key =>
    (key, (discoveryRequests n p (pathRequestHandler c n call p).2).map
      (requestFrame c requestHash n call.randomHash))

/-- The path request that a frame is. -/
def requestPacket (c : Crypto) (n : Instance) (frame : Incoming) : Option Wire.Packet :=
  match (inbound c n.toTransportState frame.call.reading frame.raw frame.receivingInterface).1 with
  | .control aspects p => if aspects = ["path", "request"] then some p else none
  | _ => none

/-- A node that has taken in a frame, before a handler runs. -/
def Instance.taken (c : Crypto) (n : Instance) (frame : Incoming) : Instance :=
  { n with
    toTransportState := (inbound c n.toTransportState frame.call.reading frame.raw
      frame.receivingInterface).2 }

/-- A frame, a path request handed to the handler, or a pass. -/
inductive RequestEvent
  | receive (frame : Incoming)
  | handle (call : Call) (p : Wire.Packet)
  | jobs (pass : Pass)

/-- A node after an event, and the request that it handled. -/
def requestStep (c : Crypto) (requestHash : Bytes) (n : Instance) :
    RequestEvent → Instance × Option (RequestKey × List (Option Bytes))
  | .receive frame =>
      ((receive c n frame.call frame.raw frame.receivingInterface).1,
        (requestPacket c n frame).bind (handledRequest c requestHash (n.taken c frame) frame.call))
  | .handle call p => ((pathRequestHandler c n call p).1, handledRequest c requestHash n call p)
  | .jobs pass => ((jobs n pass).1, none)

/-- Nodes, the requests that each has handled, and what was sent to discover paths, the
latest first. -/
structure Network (ι : Type*) where
  nodes : ι → Instance
  handled : ι → List RequestKey
  sent : List (RequestKey × Option Bytes)

/-- Nodes that have handled nothing yet. -/
def Network.start {ι : Type*} (nodes : ι → Instance) : Network ι :=
  { nodes := nodes, handled := fun _ => [], sent := [] }

/-- A network after an event at one of its nodes. -/
def networkStep {ι : Type*} [DecidableEq ι] (c : Crypto) (requestHash : Bytes) (net : Network ι)
    (e : ι × RequestEvent) : Option (Network ι) :=
  let (n, handled) := requestStep c requestHash (net.nodes e.1) e.2
  some
    { nodes := Function.update net.nodes e.1 n
      handled := Function.update net.handled e.1
        ((handled.map Prod.fst).toList ++ net.handled e.1)
      sent := (handled.toList.flatMap fun h => h.2.map (h.1, ·)) ++ net.sent }

/-- A frame that a node takes in is no request to it, or one that it lets go. -/
def LetsGo (c : Crypto) (n : Instance) (frame : Incoming) : Prop :=
  ∀ p, requestPacket c n frame = some p →
    receive c n frame.call frame.raw frame.receivingInterface =
      (n.taken c frame, .control ["path", "request"] p, .none)

/-- A frame was sent, and is read as this request wherever it comes. -/
def ReadAs (c : Crypto) (frame : Option Bytes) (key : RequestKey) : Prop :=
  ∃ raw, frame = some raw ∧ ∀ receivingInterface, ∃ p,
    readFrame c raw receivingInterface = some p ∧ requestKey p.data = some key

/-- Path requests do not loop. `path_request` runs twice for a request only with more than
`max_pr_tags` others in between; what is sent to discover a path was handled by a node, and
is read as the same request wherever it comes; and a node that has handled it lets it go. -/
structure LoopFree {ι : Type*} (c : Crypto) (net : Network ι) : Prop where
  spaced : ∀ i, Generations.Spaced (net.nodes i).maxPrTags (net.handled i)
  origin : ∀ key frame, (key, frame) ∈ net.sent → ∃ i, key ∈ net.handled i
  decoded : ∀ key frame, (key, frame) ∈ net.sent → ReadAs c frame key
  dropped : ∀ key raw i later older, (key, some raw) ∈ net.sent →
    net.handled i = later ++ key :: older →
    Generations.others key later ≤ (net.nodes i).maxPrTags →
    ∀ frame : Incoming, frame.raw = raw → LetsGo c (net.nodes i) frame

/-- The hash of an identity is a truncated hash. -/
def HashTruncated (n : Instance) : Prop :=
  ∀ hash, n.identityHash = some hash → hash.length = Wire.dstLen

/-! ## A request is read as it was -/

section Reading

variable {c : Crypto} {n : Instance} {call : Call} {p : Wire.Packet} {key : RequestKey}
  {data : Bytes}

/-- A request that is read has a destination and a tag of at most one hash. -/
theorem length_of_requestKey (h : requestKey data = some key) :
    key.destinationHash.length = Wire.dstLen ∧ 0 < key.tag.length ∧
      key.tag.length ≤ Wire.dstLen := by
  unfold requestKey at h
  split at h
  · cases h
  rename_i hlength
  obtain ⟨tag, htag, rfl⟩ := Option.map_eq_some_iff.mp h
  unfold parseRequest at htag ⊢
  split at htag
  · rename_i hlong
    obtain rfl := Option.some.inj htag
    rw [if_pos hlong]
    simp only [List.length_take, List.length_drop, Wire.dstLen] at hlong ⊢
    omega
  · rename_i hshort
    rw [if_neg hshort]
    dsimp only at htag
    split at htag
    · rename_i hlong
      obtain rfl := Option.some.inj htag
      simp only [List.length_take, List.length_drop, Wire.dstLen] at hlong ⊢
      omega
    · cases htag

theorem length_identity (hn : HashTruncated n) :
    (if n.transportEnabled then n.identityHash.getD [] else []).length ≤ Wire.dstLen := by
  split
  · cases hhash : n.identityHash with
    | none => exact Nat.zero_le _
    | some hash => exact (hn hash hhash).le
  · exact Nat.zero_le _

/-- The place of the tag depends on whether the sender puts its identity before it. The
length tells, as the tag is not empty and no longer than a hash. -/
theorem requestKey_pathRequestData (hn : HashTruncated n)
    (hdest : key.destinationHash.length = Wire.dstLen) (hpos : 0 < key.tag.length)
    (htag : key.tag.length ≤ Wire.dstLen) :
    requestKey (pathRequestData n key.destinationHash key.tag) = some key := by
  obtain ⟨identity, hidentity, hlength⟩ : ∃ identity,
      (if n.transportEnabled then n.identityHash.getD [] else []) = identity ∧
        (identity.length = Wire.dstLen ∨ identity = []) := by
    refine ⟨_, rfl, ?_⟩
    split
    · cases hhash : n.identityHash with
      | none => exact .inr rfl
      | some hash => exact .inl (hn hash hhash)
    · exact .inr rfl
  unfold requestKey parseRequest pathRequestData
  rw [hidentity]
  have hdrop : (key.destinationHash ++ identity ++ key.tag).drop Wire.dstLen = identity ++ key.tag := by
    rw [List.append_assoc, List.drop_append, hdest, Nat.sub_self, List.drop_zero,
      List.drop_eq_nil_of_le hdest.le, List.nil_append]
  have htake : (key.destinationHash ++ identity ++ key.tag).take Wire.dstLen = key.destinationHash := by
    rw [List.append_assoc, List.take_append, hdest, Nat.sub_self, List.take_zero,
      List.take_of_length_le hdest.le, List.append_nil]
  rw [if_neg (by simp only [List.length_append]; omega)]
  rcases hlength with hlength | rfl
  · rw [if_pos (by simp only [List.length_append]; omega), htake]
    have hrest : (key.destinationHash ++ identity ++ key.tag).drop (Wire.dstLen * 2) = key.tag := by
      rw [Nat.mul_two, ← List.drop_drop, hdrop, List.drop_append, hlength, Nat.sub_self,
        List.drop_zero, List.drop_eq_nil_of_le hlength.le, List.nil_append]
    simp only [hrest, List.take_of_length_le htag, Option.map_some]
  · rw [if_neg (by simp only [List.length_append, List.length_nil]; omega), htake, hdrop,
      if_pos (by simp only [List.length_append, List.length_nil]; omega)]
    simp only [List.nil_append, List.take_of_length_le htag, Option.map_some]

theorem requestKey_of_accepted (h : acceptedRequest n p = some key) :
    requestKey p.data = some key ∧ tagSeen n key.unique = false := by
  obtain ⟨hkey, hseen⟩ := Option.filter_eq_some_iff.mp h
  exact ⟨hkey, by simpa using hseen⟩

/-- `path_request_handler` by the request it accepts. -/
theorem pathRequestHandler_eq (c : Crypto) (n : Instance) (call : Call) (p : Wire.Packet) :
    pathRequestHandler c n call p =
      match acceptedRequest n p with
      | none => (n, .none)
      | some key => pathRequest c (recordTag n key.unique) call key.destinationHash
          (fromLocalClient n.toTransportState p) p.receivingInterface
          (parseRequest p.data).requestingTransportInstance (some key.tag) := by
  unfold pathRequestHandler acceptedRequest requestKey
  by_cases hlength : p.data.length < Wire.dstLen
  · rw [if_pos hlength, if_pos hlength]
    rfl
  · rw [if_neg hlength, if_neg hlength]
    dsimp only
    cases htag : (parseRequest p.data).tag with
    | none => rfl
    | some tag =>
        dsimp only [Option.map_some, RequestKey.unique]
        cases hseen : tagSeen n (uniqueTag (parseRequest p.data).destinationHash tag) with
        | true => simp [Option.filter_some, hseen]
        | false => simp [Option.filter_some, hseen]

theorem requests_requestPathRecursive (r : Reading) (destinationHash : Bytes)
    (tag : Option Bytes) (n : Instance) (name : String) :
    ∀ request ∈ (requestPathRecursive n r destinationHash name tag).2,
      request.destinationHash = destinationHash ∧ request.tag = tag := by
  intro request hmem
  unfold requestPathRecursive requestPath at hmem
  dsimp only at hmem
  split at hmem
  · obtain rfl := List.mem_singleton.mp hmem
    exact ⟨rfl, rfl⟩
  split at hmem
  · cases hmem
  · obtain rfl := List.mem_singleton.mp hmem
    exact ⟨rfl, rfl⟩

theorem requests_discoverOnEach (r : Reading) (destinationHash : Bytes) (tag : Option Bytes)
    (n : Instance) (names : List String) :
    ∀ request ∈ (discoverOnEach r destinationHash tag n names).2,
      request.destinationHash = destinationHash ∧ request.tag = tag := by
  induction names generalizing n with
  | nil =>
      intro request hmem
      cases hmem
  | cons name names ih =>
      intro request hmem
      rcases List.mem_append.mp hmem with hmem | hmem
      · exact requests_requestPathRecursive r destinationHash tag n name request hmem
      · exact ih _ request hmem

theorem requests_answerFromCache (r : Reading) (destinationHash : Bytes) (best : PathEntry)
    (isFromLocalClient : Bool) (attachedInterface : Option String)
    (requestorTransportId : Option Bytes) :
    (answerFromCache c n r destinationHash best isFromLocalClient attachedInterface
      requestorTransportId).2.requests = [] := by
  unfold answerFromCache
  split
  · rfl
  split
  · rfl
  dsimp only
  split
  · rfl
  split <;> rfl

/-- The discovery branch asks for the destination of the request with its tag. -/
theorem requests_pathRequest {destinationHash : Bytes} {attachedInterface : Option String}
    {requestorTransportId tag : Option Bytes} (hsearches : searchesFor n attachedInterface = true) :
    ∀ request ∈ (pathRequest c n call destinationHash false attachedInterface requestorTransportId
        tag).2.requests,
      request.destinationHash = destinationHash ∧ request.tag = tag := by
  intro request hmem
  unfold pathRequest at hmem
  dsimp only at hmem
  generalize (if n.localClientInterfaces.isEmpty then n
    else noteLocalRequest n call.reading destinationHash attachedInterface) = m at hmem
  split at hmem
  · cases hmem
  split at hmem
  · rw [requests_answerFromCache] at hmem
    cases hmem
  · unfold requestUnknown at hmem
    rw [if_neg Bool.false_ne_true, if_pos hsearches] at hmem
    split at hmem
    · cases hmem
    · exact requests_discoverOnEach _ _ _ _ _ request hmem

/-- What `request_path` makes a packet of. -/
def requestDraft (requestHash data : Bytes) : Wire.Draft :=
  { destination := { hash := requestHash, destType := .plain, mtu := none, encrypt := .ok }
    data := data, packetType := Wire.data, context := 0, transportType := broadcast
    headerType := Wire.header1, transportId := none, contextFlag := 0, hops := 0 }

theorem wellFormed_requestDraft (requestHash : Bytes.Block Wire.dstLen) (data : Bytes) :
    (requestDraft requestHash.1 data).WellFormed where
  hash := requestHash.2
  packetType := (by decide : Wire.data ≤ 3)
  headerType := (by decide : Wire.header1 ≤ 1)
  transportType := (by decide : broadcast ≤ 1)
  contextFlag := (by decide : (0 : UInt8) ≤ 1)
  hops := (by decide : (0 : UInt8) < Wire.pathfinderM)
  transportId := fun htype => absurd htype (by decide : Wire.header1 ≠ Wire.header2)
  lrproof := fun hcontext => absurd hcontext (by decide : (0 : UInt8) ≠ Wire.lrproof)

/-- A request is far shorter than a packet may be. -/
theorem pack_requestDraft (requestHash : Bytes.Block Wire.dstLen)
    (hshort : data.length ≤ 3 * Wire.dstLen) :
    ∃ q, (requestDraft requestHash.1 data).packet.pack c = .ok q ∧ q.ciphertext = some data := by
  have hraw : ¬ Link.defaultMtu < ([(requestDraft requestHash.1 data).packet.flags, 0] ++
      requestHash.1 ++ [0] ++ data).length := by
    simp only [List.length_append, List.length_cons, List.length_nil, requestHash.2]
    simp only [Wire.dstLen, Link.defaultMtu] at hshort ⊢
    omega
  have hpack : ∃ e q, (requestDraft requestHash.1 data).packet.pack c =
      (if Link.defaultMtu < ([(requestDraft requestHash.1 data).packet.flags, 0] ++
        requestHash.1 ++ [0] ++ data).length then .error e else .ok q) ∧
      q.ciphertext = some data := ⟨_, _, rfl, rfl⟩
  obtain ⟨e, q, hpack, hciphertext⟩ := hpack
  rw [if_neg hraw] at hpack
  exact ⟨q, hpack, hciphertext⟩

/-- The frame of a request is read, wherever it comes, as the data it was made of. -/
theorem readFrame_requestFrame (requestHash : Bytes.Block Wire.dstLen) (randomHash : Bytes)
    (request : Request)
    (hdata : pathRequestData n request.destinationHash (request.tag.getD randomHash) = data)
    (hshort : data.length ≤ 3 * Wire.dstLen) (hne : data ≠ []) :
    ∃ raw, requestFrame c requestHash.1 n randomHash request = some raw ∧
      ∀ receivingInterface, ∃ p, readFrame c raw receivingInterface = some p ∧ p.data = data := by
  have hd := wellFormed_requestDraft requestHash data
  obtain ⟨q, hok, hciphertext⟩ := pack_requestDraft (c := c) requestHash hshort
  obtain ⟨hraw, -, -⟩ := Wire.raw_of_pack hd hok
  refine ⟨q.raw, ?_, ?_⟩
  · unfold requestFrame
    rw [hdata]
    change ((requestDraft requestHash.1 data).packet.pack c).toOption.map (·.raw) = some q.raw
    rw [hok]
    rfl
  · intro receivingInterface
    obtain ⟨u, hu, hread⟩ := Wire.readAs_of_pack hd hok hciphertext hne
      (p := Wire.Packet.holding q.raw receivingInterface) rfl
    refine ⟨u, ?_, hread.data⟩
    have hflags : (requestDraft requestHash.1 data).packet.flags = 8 := by
      rw [Wire.Draft.flags_packet]
      exact (by decide : Wire.Packet.packFlags Wire.header1 0 broadcast .plain Wire.data = 8)
    unfold readFrame
    rw [if_neg, hu]
    rw [hraw, hflags]
    simp
    decide

end Reading

/-! ## Requests at one node -/

section Node

variable {c : Crypto} {n : Instance} {call : Call} {p : Wire.Packet} {key : RequestKey}
  {requestHash : Bytes.Block Wire.dstLen}

/-- What a node passes on is read, by whichever node it comes to, as the request that it has
handled. -/
theorem decoded_of_handled (hn : HashTruncated n) {frames : List (Option Bytes)}
    (h : handledRequest c requestHash.1 n call p = some (key, frames)) :
    ∀ frame ∈ frames, ReadAs c frame key := by
  intro frame hframe
  obtain ⟨key', haccepted, heq⟩ := Option.map_eq_some_iff.mp h
  obtain ⟨rfl, rfl⟩ := Prod.mk.inj heq
  obtain ⟨request, hrequest, rfl⟩ := List.mem_map.mp hframe
  obtain ⟨hkey, -⟩ := requestKey_of_accepted haccepted
  obtain ⟨hdest, hpos, htag⟩ := length_of_requestKey hkey
  have hsame : request.destinationHash = key'.destinationHash ∧ request.tag = some key'.tag := by
    unfold discoveryRequests at hrequest
    split at hrequest
    · rename_i hdiscovers
      rw [Bool.and_eq_true, Bool.not_eq_true'] at hdiscovers
      rw [pathRequestHandler_eq, haccepted] at hrequest
      dsimp only at hrequest
      rw [hdiscovers.1] at hrequest
      exact requests_pathRequest (n := recordTag n key'.unique) hdiscovers.2 request hrequest
    · cases hrequest
  obtain ⟨hrequestDest, hrequestTag⟩ := hsame
  have hdata : pathRequestData n request.destinationHash (request.tag.getD call.randomHash) =
      pathRequestData n key'.destinationHash key'.tag := by
    rw [hrequestDest, hrequestTag]
    rfl
  have hread := requestKey_pathRequestData hn hdest hpos htag
  have hshort : (pathRequestData n key'.destinationHash key'.tag).length ≤ 3 * Wire.dstLen := by
    have hidentity := length_identity hn
    unfold pathRequestData
    simp only [List.length_append]
    omega
  have hne : pathRequestData n key'.destinationHash key'.tag ≠ [] := by
    intro hnil
    rw [hnil] at hread
    cases hread
  obtain ⟨raw, hraw, hreads⟩ :=
    readFrame_requestFrame (c := c) requestHash call.randomHash request hdata hshort hne
  refine ⟨raw, hraw, ?_⟩
  intro receivingInterface
  obtain ⟨q, hq, hqdata⟩ := hreads receivingInterface
  exact ⟨q, hq, hqdata ▸ hread⟩

/-- The tags of a node as a set of two generations. -/
def tagGenerations (n : Instance) : Generations Bytes :=
  { entries := n.discoveryPrTags, current := n.discoveryPrTagsSet, previous := n.discoveryPrTagsPrev }

theorem tagSeen_iff {unique : Bytes} :
    tagSeen n unique = true ↔ (tagGenerations n).Seen unique := by
  simp [tagSeen, Generations.Seen, tagGenerations]

theorem tagGenerations_rotateTags :
    tagGenerations (rotateTags n) = (tagGenerations n).rotate n.maxPrTags := by
  unfold rotateTags Generations.rotate
  change tagGenerations (if _ then _ else _) = if n.maxPrTags < n.discoveryPrTags.length then _ else _
  split <;> rfl

theorem tagGenerations_recordTag (unique : Bytes) :
    tagGenerations (recordTag n unique) = (tagGenerations n).note unique := by
  have hinsert : (recordTag n unique).discoveryPrTagsSet =
      ((tagGenerations n).note unique).current := by
    rw [Generations.current_note]
    split
    · exact List.insert_of_mem ‹_›
    · exact List.insert_of_not_mem ‹_›
  change Generations.mk (n.discoveryPrTags ++ [unique]) _ _ = _
  rw [hinsert]
  rfl

/-- What an event makes of the tags of a node: the size of a generation and the identity
stay; without a request the tags may be rotated; a request that is handled was new. -/
structure TagsNoted (c : Crypto) (n n' : Instance)
    (handled : Option (RequestKey × List (Option Bytes))) : Prop where
  maxPrTags : n'.maxPrTags = n.maxPrTags
  identityHash : n'.identityHash = n.identityHash
  ignored : handled = none → tagGenerations n' = tagGenerations n ∨
    tagGenerations n' = (tagGenerations n).rotate n.maxPrTags
  noted : ∀ key frames, handled = some (key, frames) → ¬ (tagGenerations n).Seen key.unique ∧
    tagGenerations n' = (tagGenerations n).note key.unique ∧
    (HashTruncated n → ∀ frame ∈ frames, ReadAs c frame key)

/-- The handler ignores a request, or the request is new: then its tag is noted. -/
theorem tagsNoted_handler (c : Crypto) (requestHash : Bytes.Block Wire.dstLen) (n : Instance)
    (call : Call) (p : Wire.Packet) :
    TagsNoted c n (pathRequestHandler c n call p).1
      (handledRequest c requestHash.1 n call p) := by
  cases haccepted : acceptedRequest n p with
  | none =>
      have hnone : handledRequest c requestHash.1 n call p = none :=
        Option.map_eq_none_iff.mpr haccepted
      have heq := pathRequestHandler_eq c n call p
      rw [haccepted] at heq
      rw [heq, hnone]
      exact ⟨rfl, rfl, fun _ => .inl rfl, fun _ _ hsome => by cases hsome⟩
  | some key =>
      obtain ⟨-, hseen⟩ := requestKey_of_accepted haccepted
      have heq := pathRequestHandler_eq c n call p
      rw [haccepted] at heq
      have hasked : Asked (recordTag n key.unique) (pathRequestHandler c n call p).1 := by
        rw [heq]
        exact .pathRequest _ _ _
      obtain ⟨_, _, _, _, _, _, _, _, hstate⟩ := hasked.state
      have hhandled : handledRequest c requestHash.1 n call p = some (key, _) :=
        Option.map_eq_some_iff.mpr ⟨key, haccepted, rfl⟩
      rw [hstate]
      refine ⟨rfl, rfl, ?_, ?_⟩
      · intro hnone
        rw [hhandled] at hnone
        cases hnone
      · intro key' frames hsome
        obtain ⟨rfl, -⟩ := Prod.mk.inj (Option.some.inj (hhandled.symm.trans hsome))
        refine ⟨?_, tagGenerations_recordTag key.unique, fun hn => decoded_of_handled hn hsome⟩
        rw [← tagSeen_iff, hseen]
        exact Bool.false_ne_true

theorem control_of_requestPacket {frame : Incoming} (h : requestPacket c n frame = some p) :
    (inbound c n.toTransportState frame.call.reading frame.raw frame.receivingInterface).1 =
      .control ["path", "request"] p := by
  unfold requestPacket at h
  split at h
  · rename_i aspects q hcontrol
    split at h
    · rename_i haspects
      obtain rfl := Option.some.inj h
      rw [hcontrol, haspects]
    · cases h
  · cases h

/-- A path request that comes as a frame is handed to the handler. -/
theorem receive_of_requestPacket {frame : Incoming} (h : requestPacket c n frame = some p) :
    receive c n frame.call frame.raw frame.receivingInterface =
      ((pathRequestHandler c (n.taken c frame) frame.call p).1, .control ["path", "request"] p,
        (pathRequestHandler c (n.taken c frame) frame.call p).2) := by
  unfold receive
  dsimp only
  rw [control_of_requestPacket h]
  rfl

/-- A frame that is no path request leaves the tags alone. -/
theorem receive_of_not_requestPacket {frame : Incoming} (h : requestPacket c n frame = none) :
    ∃ s, (receive c n frame.call frame.raw frame.receivingInterface).1 =
      { n with toTransportState := s } := by
  obtain ⟨-, heq | ⟨p, hcontrol, -⟩ | ⟨p, -, heq⟩⟩ :=
    receive_cases c n frame.call frame.raw frame.receivingInterface
  · exact ⟨_, heq⟩
  · unfold requestPacket at h
    rw [hcontrol] at h
    simp at h
  · rw [heq]
    unfold tunnelSynthesizeHandler
    split <;> exact ⟨_, rfl⟩

/-- What one event makes of the tags of a node. -/
theorem tagsNoted_requestStep (c : Crypto) (requestHash : Bytes.Block Wire.dstLen) (n : Instance)
    (event : RequestEvent) :
    TagsNoted c n (requestStep c requestHash.1 n event).1
      (requestStep c requestHash.1 n event).2 := by
  cases event with
  | receive frame =>
      have hidentity := (Remembers.receive (c := c) n frame.call frame.raw
        frame.receivingInterface).identity
      change TagsNoted c n (receive c n frame.call frame.raw frame.receivingInterface).1
        ((requestPacket c n frame).bind
          (handledRequest c requestHash.1 (n.taken c frame) frame.call))
      cases hpacket : requestPacket c n frame with
      | none =>
          obtain ⟨s, heq⟩ := receive_of_not_requestPacket hpacket
          refine ⟨?_, hidentity, ?_, ?_⟩
          · rw [heq]
          · intro _
            rw [heq]
            exact .inl rfl
          · intro _ _ hsome
            cases hsome
      | some p =>
          have htaken := (Remembers.inbound (c := c) (s := n.toTransportState)
            (r := frame.call.reading) frame.raw frame.receivingInterface).identity
          have hnoted := tagsNoted_handler c requestHash (n.taken c frame) frame.call p
          rw [receive_of_requestPacket hpacket] at hidentity ⊢
          refine ⟨hnoted.maxPrTags, hidentity, hnoted.ignored, ?_⟩
          intro key frames hsome
          obtain ⟨hnew, htags, hdecoded⟩ := hnoted.noted key frames hsome
          refine ⟨hnew, htags, fun hn => hdecoded ?_⟩
          intro hash hhash
          exact hn hash (htaken.symm.trans hhash)
  | handle call p => exact tagsNoted_handler c requestHash n call p
  | jobs pass =>
      have hpassed := jobs_passed n pass
      refine ⟨hpassed.maxPrTags, hpassed.identityHash, fun _ => .inr ?_, ?_⟩
      · rw [← tagGenerations_rotateTags]
        change Generations.mk (jobs n pass).1.discoveryPrTags (jobs n pass).1.discoveryPrTagsSet
          (jobs n pass).1.discoveryPrTagsPrev = _
        rw [hpassed.discoveryPrTags, hpassed.discoveryPrTagsSet, hpassed.discoveryPrTagsPrev]
        rfl
      · intro _ _ hsome
        cases hsome

end Node

/-! ## Requests in a network -/

section Network

variable {ι : Type*} {c : Crypto} {requestHash : Bytes.Block Wire.dstLen} {net : Network ι}

/-- What a run keeps: each node remembers what it has handled, and what was sent is read as
what it was sent for. -/
structure Tracked (c : Crypto) (net : Network ι) : Prop where
  truncated : ∀ i, HashTruncated (net.nodes i)
  retained : ∀ i, Generations.Retained (net.nodes i).maxPrTags (tagGenerations (net.nodes i))
    ((net.handled i).map RequestKey.unique)
  spaced : ∀ i, Generations.Spaced (net.nodes i).maxPrTags
    ((net.handled i).map RequestKey.unique)
  origin : ∀ key frame, (key, frame) ∈ net.sent → ∃ i, key ∈ net.handled i
  decoded : ∀ key frame, (key, frame) ∈ net.sent → ReadAs c frame key

theorem tracked_start {nodes : ι → Instance} (h : ∀ i, HashTruncated (nodes i)) :
    Tracked c (Network.start nodes) where
  truncated := h
  retained := fun _ => Generations.retained_nil
  spaced := by
    intro i newer key between older heq
    cases newer <;> cases heq
  origin := by
    intro key frame hmem
    cases hmem
  decoded := by
    intro key frame hmem
    cases hmem

/-- The tags of one node after an event. -/
theorem retained_of_tagsNoted {n n' : Instance} {history : List RequestKey}
    {handled : Option (RequestKey × List (Option Bytes))} (h : TagsNoted c n n' handled)
    (hretained : Generations.Retained n.maxPrTags (tagGenerations n)
      (history.map RequestKey.unique))
    (hspaced : Generations.Spaced n.maxPrTags (history.map RequestKey.unique)) :
    Generations.Retained n'.maxPrTags (tagGenerations n')
        (((handled.map Prod.fst).toList ++ history).map RequestKey.unique) ∧
      Generations.Spaced n'.maxPrTags
        (((handled.map Prod.fst).toList ++ history).map RequestKey.unique) := by
  rw [h.maxPrTags]
  cases hhandled : handled with
  | none =>
      refine ⟨?_, hspaced⟩
      obtain hsame | hrotated := h.ignored hhandled
      · rw [hsame]
        exact hretained
      · rw [hrotated]
        exact Generations.retained_rotate hretained
  | some result =>
      obtain ⟨key, frames⟩ := result
      obtain ⟨hnew, htags, -⟩ := h.noted key frames hhandled
      rw [htags]
      exact ⟨Generations.retained_note hretained hnew,
        Generations.spaced_note hspaced hretained hnew⟩

theorem tracked_step [DecidableEq ι] (net : Network ι) (e : ι × RequestEvent) (net' : Network ι)
    (h : Tracked c net) (hstep : networkStep c requestHash.1 net e = some net') :
    Tracked c net' := by
  obtain ⟨i, event⟩ := e
  have hnoted := tagsNoted_requestStep c requestHash (net.nodes i) event
  unfold networkStep at hstep
  dsimp only at hstep
  generalize requestStep c requestHash.1 (net.nodes i) event = result at hnoted hstep
  obtain ⟨n, handled⟩ := result
  obtain rfl := Option.some.inj hstep
  obtain ⟨hretained, hspaced⟩ := retained_of_tagsNoted hnoted (h.retained i) (h.spaced i)
  constructor
  · intro j
    by_cases hj : j = i
    · subst hj
      intro hash hhash
      simp only [Function.update_self] at hhash
      exact h.truncated j hash (hnoted.identityHash.symm.trans hhash)
    · simpa [hj] using h.truncated j
  · intro j
    by_cases hj : j = i
    · subst hj
      simpa only [Function.update_self] using hretained
    · simpa [hj] using h.retained j
  · intro j
    by_cases hj : j = i
    · subst hj
      simpa only [Function.update_self] using hspaced
    · simpa [hj] using h.spaced j
  · intro key frame hmem
    rcases List.mem_append.mp hmem with hnew | hold
    · obtain ⟨⟨key', frames⟩, hhandled, hframe⟩ := List.mem_flatMap.mp hnew
      obtain ⟨frame', -, heq⟩ := List.mem_map.mp hframe
      obtain ⟨rfl, rfl⟩ := Prod.mk.inj heq
      refine ⟨i, ?_⟩
      obtain rfl : handled = some (key', frames) := Option.mem_toList.mp hhandled
      simp
    · obtain ⟨j, hj⟩ := h.origin key frame hold
      refine ⟨j, ?_⟩
      by_cases hji : j = i
      · subst hji
        simp [hj]
      · simpa [hji] using hj
  · intro key frame hmem
    rcases List.mem_append.mp hmem with hnew | hold
    · obtain ⟨⟨key', frames⟩, hhandled, hframe⟩ := List.mem_flatMap.mp hnew
      obtain ⟨frame', hframe', heq⟩ := List.mem_map.mp hframe
      obtain ⟨rfl, rfl⟩ := Prod.mk.inj heq
      obtain ⟨-, -, hdecoded⟩ := hnoted.noted key' frames (Option.mem_toList.mp hhandled)
      exact hdecoded (h.truncated i) frame' hframe'
    · exact h.decoded key frame hold

/-- A request that comes back to a node that remembers it is let go. -/
theorem letsGo_of_seen {n : Instance} {frame : Incoming} {key : RequestKey}
    (hread : ReadAs c (some frame.raw) key) (hseen : (tagGenerations n).Seen key.unique) :
    LetsGo c n frame := by
  intro p hpacket
  rw [receive_of_requestPacket hpacket]
  suffices hnone : acceptedRequest (n.taken c frame) p = none by
    rw [pathRequestHandler_eq, hnone]
  obtain ⟨raw, hraw, hreads⟩ := hread
  obtain rfl := Option.some.inj hraw
  obtain ⟨q, hq, hkey⟩ := hreads frame.receivingInterface
  obtain ⟨q', hq', -, -, -, rfl⟩ := exists_of_control (control_of_requestPacket hpacket)
  obtain rfl := Option.some.inj (hq.symm.trans hq')
  unfold acceptedRequest
  change (requestKey q.data).filter _ = none
  rw [hkey, Option.filter_some, if_neg]
  rw [show tagSeen (n.taken c frame) key.unique = true from tagSeen_iff.mpr hseen]
  exact Bool.false_ne_true

theorem loopFree_of_tracked (h : Tracked c net) : LoopFree c net where
  spaced := fun i => Generations.spaced_of_map _ (h.spaced i)
  origin := h.origin
  decoded := h.decoded
  dropped := by
    intro key raw i later older hsent hhandled hfew frame hraw
    subst hraw
    refine letsGo_of_seen (h.decoded key _ hsent) ?_
    have hhistory : (net.handled i).map RequestKey.unique =
        later.map RequestKey.unique ++ key.unique :: older.map RequestKey.unique := by
      rw [hhandled, List.map_append, List.map_cons]
    refine Generations.seen_of_retained (h.retained i) hhistory ?_
    exact (Generations.others_map_le _ _ _).trans hfew

/-- Path requests do not loop, in any network and whatever comes to its nodes. -/
theorem loopFree_run [DecidableEq ι] (c : Crypto) (requestHash : Bytes.Block Wire.dstLen)
    (nodes : ι → Instance) (hnodes : ∀ i, HashTruncated (nodes i)) (events : List (ι × RequestEvent)) :
    Runs.Always (networkStep c requestHash.1) (LoopFree c) (Network.start nodes) events := by
  intro done net _ hrun
  exact loopFree_of_tracked (Runs.invariant_of_step tracked_step (tracked_start hnodes) hrun)

end Network

/-! ## A request that comes back -/

/-- A relay that discovers paths for its left side. -/
def gatewayRelay : Instance :=
  { idleRelay with
    toTransportState := { idleRelay.toTransportState with
      interfaces := idleRelay.interfaces.map fun i => { i with mode := modeGateway }
      controlHashes := [List.replicate 16 2]
      controlDestinations :=
        [{ hash := List.replicate 16 2, appName := appName, aspects := ["path", "request"] }] } }

/-- A request for the destination of ones, from a node that is no relay. -/
def requestIncoming (identity : Bytes) (name : String) : Incoming :=
  { call := { reading := .zero, randomHash := [], tunnelPaths := [] }
    raw := [8, 0] ++ List.replicate 16 2 ++ [0] ++ List.replicate 16 1 ++ identity ++ [5]
    receivingInterface := some name }

section Samples

set_option maxRecDepth 4000

/-- A relay passes a request on, another passes that on, and it comes back to the first. -/
theorem loopFree_run_back :
    ((Runs.exec (networkStep zeroCrypto (List.replicate 16 2)) (Network.start fun _ : Bool =>
        gatewayRelay)
      [(true, .receive (requestIncoming [] "left")),
        (false, .receive (requestIncoming (List.replicate 16 9) "left")),
        (true, .receive (requestIncoming (List.replicate 16 9) "right"))]).map fun net =>
          (net.sent.length, (net.handled true).length)) = some (2, 1) ∧
    Runs.Always (networkStep zeroCrypto (List.replicate 16 2)) (LoopFree zeroCrypto)
      (Network.start fun _ : Bool => gatewayRelay)
      [(true, .receive (requestIncoming [] "left")),
        (false, .receive (requestIncoming (List.replicate 16 9) "left")),
        (true, .receive (requestIncoming (List.replicate 16 9) "right"))] := by
  refine ⟨by decide +kernel, ?_⟩
  refine loopFree_run zeroCrypto ⟨List.replicate 16 2, rfl⟩ _ ?_ _
  intro i hash hhash
  obtain rfl := Option.some.inj hhash
  rfl

end Samples

end Reticulum.Transport
