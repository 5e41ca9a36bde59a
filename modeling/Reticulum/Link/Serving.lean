import Reticulum.Link.Silence

/-!
# Requests are served to those who may ask

A destination registers handlers for paths. A request that comes over one of its links,
in a packet or as an assembled resource, is handed to the handler of its path when the
policy of the handler permits it: to everyone, or to the identities on a list. The peer
of a link is identified by a LINKIDENTIFY packet, once (`src/link.rs`,
`src/destination.rs`).

## Implementation notes

`servingOps` puts the handlers of the destination and the calls that were started beside
the link, so that the steps of the actor are those of `actorStep`. The application
changes the handlers at any time. What a callback answers is sent by a message of its
own, which is one of the other messages here.
-/

namespace Reticulum.Link

open Runs

/-! ## Handlers -/

def allowNone : UInt8 := 0x00

def allowAll : UInt8 := 0x01

def allowList : UInt8 := 0x02

/-- `RequestHandler`: of the callbacks, whether they are there. -/
structure RequestHandler where
  path : Bytes
  allowPolicy : UInt8
  allowedList : Option (List Bytes)
  autoCompress : Bool
  callback : Bool
  provenCallback : Bool
  deriving DecidableEq

/-- What a destination knows about requests. -/
structure Handlers where
  requestHandlers : Bytes → Option RequestHandler
  maxRequestSize : Option Nat

/-- A handler is registered under the hash of its path, unless its policy is unknown. -/
def Handlers.register (c : Crypto) (h : Handlers) (handler : RequestHandler) :
    Except String Handlers :=
  if handler.allowPolicy = allowNone ∨ handler.allowPolicy = allowAll ∨
      handler.allowPolicy = allowList then
    .ok { h with requestHandlers :=
      Function.update h.requestHandlers (c.truncatedHash handler.path).1 (some handler) }
  else .error ("Invalid allow policy: " ++ toString handler.allowPolicy.toNat)

/-- `Destination::register_request_handler`. -/
def registerRequestHandler (c : Crypto) (h : Handlers) (path : Bytes) (callback : Bool)
    (allow : UInt8) (allowedList : Option (List Bytes)) (autoCompress : Bool) :
    Except String Handlers :=
  h.register c
    { path := path, allowPolicy := allow, allowedList := allowedList, autoCompress := autoCompress
      callback := callback, provenCallback := false }

/-- `Destination::register_proven_request_handler`. -/
def registerProvenRequestHandler (c : Crypto) (h : Handlers) (path : Bytes) (allow : UInt8)
    (allowedList : Option (List Bytes)) (autoCompress : Bool) : Except String Handlers :=
  h.register c
    { path := path, allowPolicy := allow, allowedList := allowedList, autoCompress := autoCompress
      callback := false, provenCallback := true }

/-- `Destination::deregister_request_handler`. -/
def deregisterRequestHandler (c : Crypto) (h : Handlers) (path : Bytes) : Handlers :=
  { h with requestHandlers := Function.update h.requestHandlers (c.truncatedHash path).1 none }

/-- The policy of a handler permits the identity of the peer. -/
def RequestHandler.allowed (c : Crypto) (handler : RequestHandler) (remoteIdentity : Option Bytes) :
    Bool :=
  if handler.allowPolicy = allowNone then false
  else if handler.allowPolicy = allowAll then true
  else if handler.allowPolicy = allowList then
    match remoteIdentity, handler.allowedList with
    | some publicKey, some list => list.contains (c.truncatedHash publicKey).1
    | _, _ => false
  else false

/-! ## Requests -/

/-- `rmpv::Value`. -/
inductive Value
  | nil
  | boolean (value : Bool)
  | integer (value : Int)
  | f32 (bits : UInt32)
  | f64 (bits : UInt64)
  | string (bytes : Bytes)
  | binary (bytes : Bytes)
  | array (items : List Value)
  | map (entries : List (Value × Value))
  | ext (kind : Int) (bytes : Bytes)

/-- The crates `rmpv` and `rmp_serde`, and the conversions to `f64`. -/
structure ValueCodec where
  readValue : Bytes → Option Value
  writeValue : Value → Bytes
  ofF32 : UInt32 → UInt64
  ofInteger : Int → Option UInt64
  isFloat : Bytes → Bool
  isAdvertisement : Bytes → Bool

/-- The time of a request, as the bits of an `f64`. -/
def ValueCodec.timestamp (codec : ValueCodec) : Value → UInt64
  | .f64 bits => bits
  | .f32 bits => codec.ofF32 bits
  | .integer value => (codec.ofInteger value).getD 0
  | _ => 0

/-- The data of a request, as the handler gets it. -/
def ValueCodec.requestData (codec : ValueCodec) : Value → Bytes
  | .binary bytes => bytes
  | .nil => []
  | value => codec.writeValue value

/-- The fields of a packed request: its time, the hash of its path, and its data. -/
structure PackedRequest where
  timestamp : UInt64
  pathHash : Bytes
  data : Bytes

/-- A request is an array of three values or more, and the hash of its path is a binary. -/
def ValueCodec.unpackRequest (codec : ValueCodec) (plaintext : Bytes) : Option PackedRequest :=
  match codec.readValue plaintext with
  | some (.array (time :: .binary pathHash :: data :: _)) =>
      some { timestamp := codec.timestamp time, pathHash := pathHash
             data := codec.requestData data }
  | _ => none

/-- What the link reads of the packets of requests. -/
def ValueCodec.msgpack (codec : ValueCodec) : Msgpack where
  isFloat := codec.isFloat
  isRequest plaintext := (codec.unpackRequest plaintext).isSome
  isResponse plaintext :=
    match codec.readValue plaintext with
    | some (.array (.binary _ :: _ :: _)) => true
    | _ => false
  isAdvertisement := codec.isAdvertisement

/-- A call of a handler's callback, on a thread of its own. -/
structure HandlerCall where
  handler : RequestHandler
  data : Bytes
  requestId : Bytes
  remoteIdentity : Option Bytes
  timestamp : UInt64
  deriving DecidableEq

/-- What `handle_request_packet` starts: nothing without a handler, without its permission, or
without a callback. -/
def startCall (c : Crypto) (codec : ValueCodec) (h : Handlers) (remoteIdentity : Option Bytes)
    (requestId plaintext : Bytes) : Option HandlerCall :=
  (codec.unpackRequest plaintext).bind fun request =>
    (h.requestHandlers request.pathHash).bind fun handler =>
      if handler.allowed c remoteIdentity = false then none
      else if handler.provenCallback || handler.callback then
        some { handler := handler, data := request.data, requestId := requestId
               remoteIdentity := remoteIdentity, timestamp := request.timestamp }
      else none

/-- The requests of a link: the handlers, every one that was ever registered, the packets that
the link has taken in, and the calls that were started. -/
structure Serving where
  handlers : Handlers
  registered : List RequestHandler
  heard : List Packet
  calls : List HandlerCall

/-- `handle_request_packet`, on a link whose destination can be locked. -/
def Serving.handleRequest (c : Crypto) (codec : ValueCodec) (s : Serving) (l : Link)
    (requestId plaintext : Bytes) : Serving :=
  if l.destination = .poisoned then s
  else { s with
    calls := s.calls ++ (startCall c codec s.handlers l.remoteIdentity requestId plaintext).toList }

/-- The plaintext of a REQUEST packet. -/
def requestPlaintext (c : Crypto) (l : Link) (packet : Packet) : Option Bytes :=
  if packet.packetType = .data ∧ packet.context = Packet.request then
    match decrypt c l packet.data with
    | some (.ok plaintext) => some plaintext
    | _ => none
  else none

/-- A packet on an open link. A request that is larger than the destination takes is ignored. -/
def Serving.receive (c : Crypto) (codec : ValueCodec) (s : Serving) (l : Link) (packet : Packet) :
    Serving :=
  if l.state = .closed then s
  else
    let s := { s with heard := s.heard ++ [packet] }
    match requestPlaintext c l packet with
    | none => s
    | some plaintext =>
        if s.handlers.maxRequestSize.any (· < plaintext.length) then s
        else s.handleRequest c codec l (c.truncatedHash packet.getHashablePart).1 plaintext

/-- A message of the actor that leaves alone whose link it is. -/
structure SideUpdate extends LinkUpdate where
  linkId : ∀ l, (apply l).linkId = l.linkId
  initiator : ∀ l, (apply l).initiator = l.initiator
  derivedKey : ∀ l, (apply l).derivedKey = l.derivedKey
  remoteIdentity : ∀ l, (apply l).remoteIdentity = l.remoteIdentity

/-- The messages that are no packets: an assembled request, or any other. -/
inductive ServingMsg
  | handleRequestPacket (requestId plaintext : Bytes)
  | other (update : SideUpdate)

/-- A link and its requests, as the actor uses them. -/
def servingOps (c : Crypto) (codec : ValueCodec) :
    LinkOps (Link × Serving) (Packet × Readings) ServingMsg Readings where
  receive s packet := ((linkOps c codec.msgpack).receive s.1 packet).map fun link =>
    (link, s.2.receive c codec s.1 packet.1)
  teardown s r := (teardown s.1 r.now, s.2)
  handle s message :=
    match message with
    | .handleRequestPacket requestId plaintext =>
        some (s.1, s.2.handleRequest c codec s.1 requestId plaintext)
    | .other update => some (update.apply s.1, s.2)
  state s := s.1.state
  watchdog s r := (watchdog s.1 r, s.2)

/-- The actor of a link that serves requests. -/
abbrev ServingActor := Actor (Link × Serving) (Packet × Readings) ServingMsg

/-- A step of the actor or of its senders, or the application changes the handlers. -/
inductive ServingEvent
  | actor (e : ActorEvent (Packet × Readings) ServingMsg Readings)
  | register (handler : RequestHandler)
  | deregister (path : Bytes)
  | setMaxRequestSize (limit : Option Nat)

/-- The application changes what the destination knows. -/
def Serving.withHandlers (s : Serving) (handlers : Handlers) (registered : List RequestHandler) :
    Serving :=
  { s with handlers := handlers, registered := s.registered ++ registered }

/-- One step. -/
def servingStep (c : Crypto) (codec : ValueCodec) (a : ServingActor) :
    ServingEvent → Option ServingActor
  | .actor e => actorStep (servingOps c codec) a e
  | .register handler =>
      match a.link.2.handlers.register c handler with
      | .ok handlers => some { a with
          link := (a.link.1, a.link.2.withHandlers handlers [handler]) }
      | .error _ => some a
  | .deregister path => some { a with
      link := (a.link.1,
        a.link.2.withHandlers (deregisterRequestHandler c a.link.2.handlers path) []) }
  | .setMaxRequestSize limit => some { a with
      link := (a.link.1,
        a.link.2.withHandlers { a.link.2.handlers with maxRequestSize := limit } []) }

/-! ## What is promised -/

/-- A packet that was encrypted with the key of the link holds the public key, and its signature
of the link id and the key. -/
def Identified (c : Crypto) (key linkId : Bytes) (heard : List Packet) (publicKey : Bytes) : Prop :=
  ∃ packet ∈ heard, packet.packetType = .data ∧ packet.context = Packet.linkIdentify ∧
    ∃ token plaintext, Token.new key = .ok token ∧
      token.decrypt c packet.data = some (.ok plaintext) ∧ plaintext.take 64 = publicKey ∧
      validate c publicKey (plaintext.drop 64) (linkId ++ publicKey) = true

/-- A handler that was registered permits the call, and the identity that it is called with was
proved. -/
structure Permitted (c : Crypto) (key linkId : Bytes) (s : Serving) (call : HandlerCall) :
    Prop where
  registered : call.handler ∈ s.registered
  policy : call.handler.allowPolicy = allowAll ∨ call.handler.allowPolicy = allowList ∧
    ∃ publicKey list, call.remoteIdentity = some publicKey ∧ call.handler.allowedList = some list ∧
      (c.truncatedHash publicKey).1 ∈ list
  callback : call.handler.callback = true ∨ call.handler.provenCallback = true
  identified : ∀ publicKey, call.remoteIdentity = some publicKey →
    Identified c key linkId s.heard publicKey

/-- Every call is permitted, and all calls of identified peers are of one identity. -/
structure RequestsPermitted (c : Crypto) (key linkId : Bytes) (s : Serving) : Prop where
  permitted : ∀ call ∈ s.calls, Permitted c key linkId s call
  one : ∀ call ∈ s.calls, ∀ call' ∈ s.calls, ∀ publicKey publicKey',
    call.remoteIdentity = some publicKey → call'.remoteIdentity = some publicKey' →
      publicKey = publicKey'

/-! ## The peer of a link -/

section Party

variable {c : Crypto} {m : Msgpack} {l l' l'' : Link} {r : Readings} {packet : Packet}

/-- The link is with the same peer, and its key is the same or dropped. -/
structure SameParty (l l' : Link) : Prop where
  linkId : l'.linkId = l.linkId
  initiator : l'.initiator = l.initiator
  remoteIdentity : l'.remoteIdentity = l.remoteIdentity
  derivedKey : l'.derivedKey = l.derivedKey ∨ l'.derivedKey = none

theorem SameParty.refl (l : Link) : SameParty l l := ⟨rfl, rfl, rfl, .inl rfl⟩

theorem SameParty.trans (h : SameParty l l') (h' : SameParty l' l'') : SameParty l l'' where
  linkId := h'.linkId.trans h.linkId
  initiator := h'.initiator.trans h.initiator
  remoteIdentity := h'.remoteIdentity.trans h.remoteIdentity
  derivedKey := by
    obtain hsame | hnone := h'.derivedKey
    · rw [hsame]
      exact h.derivedKey
    · exact .inr hnone

theorem party_teardown (h : SameParty l l') (now : Nat) : SameParty l (teardown l' now) := by
  apply h.trans
  unfold teardown
  split <;> exact ⟨rfl, rfl, rfl, .inr rfl⟩

theorem party_updateKeepalive (h : SameParty l l') : SameParty l (updateKeepalive l' r) := by
  apply h.trans
  unfold updateKeepalive
  split <;> exact ⟨rfl, rfl, rfl, .inl rfl⟩

theorem party_heard (now : Nat) : SameParty l (heard l now) := by
  unfold heard revive
  split <;> exact ⟨rfl, rfl, rfl, .inl rfl⟩

theorem party_watchdog : SameParty l (watchdog l r) := by
  have hkeepalive : ∀ now, SameParty l (sendKeepalive l now) := by
    intro now
    unfold sendKeepalive
    split <;> exact ⟨rfl, rfl, rfl, .inl rfl⟩
  have hlate : ∀ l', SameParty l l' → SameParty l (timeOut l' r.now) := by
    intro l' h
    have hreason : SameParty l { l' with teardownReason := .timeout } :=
      ⟨h.linkId, h.initiator, h.remoteIdentity, h.derivedKey⟩
    exact party_teardown hreason r.now
  unfold watchdog
  split
  · exact .refl l
  unfold actorWatchdogTick
  repeat' split
  all_goals first
    | exact .refl l
    | exact hlate l (.refl l)
    | exact hkeepalive _
    | exact (hkeepalive _).trans ⟨rfl, rfl, rfl, .inl rfl⟩

/-- A LINKIDENTIFY packet tells an open link its peer, for the first time. -/
structure Identifies (c : Crypto) (l : Link) (packet : Packet) (l' : Link) : Prop where
  linkId : l'.linkId = l.linkId
  initiator : l'.initiator = l.initiator
  derivedKey : l'.derivedKey = l.derivedKey
  unknown : l.remoteIdentity = none
  packetType : packet.packetType = .data
  context : packet.context = Packet.linkIdentify
  plaintext : ∃ plaintext, decrypt c l packet.data = some (.ok plaintext) ∧
    identifies c l.linkId plaintext = true ∧ l'.remoteIdentity = some (plaintext.take 64)

/-- The handler of a plaintext leaves the peer alone, unless it learns who that is. -/
theorem party_handlePlaintext {plaintext : Bytes} (htype : packet.packetType = .data)
    (hplaintext : decrypt c l packet.data = some (.ok plaintext)) :
    SameParty l (handlePlaintext c m l packet.context plaintext r).2 ∨
      Identifies c l packet (handlePlaintext c m l packet.context plaintext r).2 := by
  unfold handlePlaintext
  split
  · left
    dsimp only
    split
    · exact .refl l
    · exact party_teardown (.refl l) r.now
  split
  · left
    unfold handleLrrttPacket
    split
    · exact .refl l
    split
    · exact .refl l
    · have hactive : SameParty l { l with
          rttKnown := true, status := .active, state := .active, activatedAt := some r.now } :=
        ⟨rfl, rfl, rfl, .inl rfl⟩
      exact party_updateKeepalive hactive
  split
  · left
    unfold handleRequestPacket
    split <;> exact .refl l
  split
  · left
    unfold handleResponsePacket
    split <;> exact .refl l
  split
  · rename_i hcontext
    unfold handleLinkidentifyPacket
    split
    · exact .inl (.refl l)
    rename_i hlength
    split
    · exact .inl (.refl l)
    rename_i hkey
    split
    · rename_i hvalid
      dsimp only
      split
      · exact .inl (.refl l)
      · rename_i hunknown
        right
        refine ⟨rfl, rfl, rfl, by simpa using hunknown, htype, hcontext, plaintext, hplaintext,
          ?_, rfl⟩
        simp only [identifies, decide_eq_true_eq]
        exact ⟨not_not.mp hlength, by simpa using hkey, hvalid⟩
    · exact .inl (.refl l)
  split
  · left
    unfold teardownPacket
    repeat' split
    all_goals first
      | exact .refl l
      | exact ⟨rfl, rfl, rfl, .inr rfl⟩
  · exact .inl (.refl l)

/-- A packet that a responder receives leaves its peer alone, unless it learns who that is. -/
theorem party_receive {result : LinkResult} (hinitiator : l.initiator = false)
    (h : receive c m l packet r = some result) :
    SameParty l result.2 ∨ l.state ≠ .closed ∧ Identifies c l packet result.2 := by
  have hrelease : ∀ result : LinkResult, (release result).2.linkId = result.2.linkId ∧
      (release result).2.initiator = result.2.initiator ∧
      (release result).2.remoteIdentity = result.2.remoteIdentity ∧
      (release result).2.derivedKey = result.2.derivedKey := by
    rintro ⟨_ | _, _⟩ <;> exact ⟨rfl, rfl, rfl, rfl⟩
  unfold receive at h
  split at h
  · obtain rfl := Option.some.inj h
    exact .inl ⟨rfl, rfl, rfl, .inl rfl⟩
  rename_i hopen
  obtain ⟨handled, hhandled, rfl⟩ := Option.map_eq_some_iff.mp h
  obtain ⟨hid, hrole, hremote, hkey⟩ := hrelease handled
  have hheard := party_heard (l := l) r.now
  have hsame : SameParty (heard l r.now) handled.2 → SameParty l (release handled).2 :=
    fun hparty => (hheard.trans hparty).trans ⟨hid, hrole, hremote, .inl hkey⟩
  unfold dispatch at hhandled
  split at hhandled
  · rename_i htype
    unfold handleDataPacket at hhandled
    split at hhandled
    · obtain rfl := Option.some.inj hhandled
      exact .inl (hsame (.refl _))
    split at hhandled
    · obtain rfl := Option.some.inj hhandled
      left
      apply hsame
      unfold pong
      split <;> exact ⟨rfl, rfl, rfl, .inl rfl⟩
    split at hhandled
    · cases hhandled
    · obtain rfl := Option.some.inj hhandled
      exact .inl (hsame (.refl _))
    · rename_i plaintext hplaintext
      obtain rfl := Option.some.inj hhandled
      obtain hparty | hidentifies := party_handlePlaintext (m := m) (r := r) htype hplaintext
      · exact .inl (hsame hparty)
      · have hkeyKept : (heard l r.now).derivedKey = l.derivedKey := by
          unfold heard revive
          split <;> rfl
        refine .inr ⟨hopen, ?_⟩
        obtain ⟨plaintext', hdecrypted, hvalid, hknown⟩ := hidentifies.plaintext
        refine ⟨hid.trans (hidentifies.linkId.trans hheard.linkId),
          hrole.trans (hidentifies.initiator.trans hheard.initiator),
          hkey.trans (hidentifies.derivedKey.trans hkeyKept),
          hheard.remoteIdentity.symm.trans hidentifies.unknown, htype, hidentifies.context,
          plaintext', ?_, hheard.linkId ▸ hvalid, hremote.trans hknown⟩
        unfold decrypt at hdecrypted ⊢
        rw [← hkeyKept]
        exact hdecrypted
  · obtain rfl := Option.some.inj hhandled
    left
    apply hsame
    have hrespond : (heard l r.now).initiator = false := hheard.initiator.trans hinitiator
    unfold handleProofPacket
    split
    · exact .refl _
    · rw [if_pos (.inl (by simp [hrespond]))]
      exact .refl _
  · obtain rfl := Option.some.inj hhandled
    exact .inl (hsame (.refl _))

end Party

/-! ## Runs -/

section Runs

variable {c : Crypto} {codec : ValueCodec} {key id : Bytes} {s s' : Link × Serving}
  {t : Serving} {l : Link} {packet : Packet} {a a' : ServingActor}

/-- What every step keeps. -/
structure Guards (c : Crypto) (key id : Bytes) (s : Link × Serving) : Prop where
  linkId : s.1.linkId = id
  initiator : s.1.initiator = false
  derivedKey : s.1.derivedKey = some key ∨ s.1.derivedKey = none
  remote : ∀ publicKey, s.1.remoteIdentity = some publicKey →
    Identified c key id s.2.heard publicKey
  handlers : ∀ hash handler, s.2.handlers.requestHandlers hash = some handler →
    handler ∈ s.2.registered
  permitted : ∀ call ∈ s.2.calls, Permitted c key id s.2 call
  known : ∀ call ∈ s.2.calls, call.remoteIdentity = none ∨
    call.remoteIdentity = s.1.remoteIdentity

theorem Identified.mono {heard heard' : List Packet} {publicKey : Bytes}
    (h : Identified c key id heard publicKey) (hsub : heard ⊆ heard') :
    Identified c key id heard' publicKey := by
  obtain ⟨packet, hpacket, hrest⟩ := h
  exact ⟨packet, hsub hpacket, hrest⟩

theorem Permitted.mono {call : HandlerCall} {t' : Serving} (h : Permitted c key id t call)
    (hregistered : t.registered ⊆ t'.registered) (hheard : t.heard ⊆ t'.heard) :
    Permitted c key id t' call where
  registered := hregistered h.registered
  policy := h.policy
  callback := h.callback
  identified publicKey hknown := (h.identified publicKey hknown).mono hheard

/-- A handler that permits a call says so by its policy. -/
theorem policy_of_allowed {handler : RequestHandler} {remoteIdentity : Option Bytes}
    (h : handler.allowed c remoteIdentity = true) :
    handler.allowPolicy = allowAll ∨ handler.allowPolicy = allowList ∧
      ∃ publicKey list, remoteIdentity = some publicKey ∧ handler.allowedList = some list ∧
        (c.truncatedHash publicKey).1 ∈ list := by
  unfold RequestHandler.allowed at h
  split at h
  · cases h
  split at h
  · rename_i hall
    exact .inl hall
  split at h
  · rename_i hlist
    split at h
    · rename_i publicKey list hallowed
      exact .inr ⟨hlist, publicKey, list, rfl, hallowed, List.contains_iff_mem.mp h⟩
    · cases h
  · cases h

section

variable (h : Guards c key id s)

include h

/-- The call that a request starts is one of a registered handler that permits it. -/
theorem Guards.of_startCall {requestId plaintext : Bytes}
    {call : HandlerCall}
    (hcall : startCall c codec s.2.handlers s.1.remoteIdentity requestId plaintext = some call) :
    Permitted c key id s.2 call ∧ call.remoteIdentity = s.1.remoteIdentity := by
  unfold Link.startCall at hcall
  obtain ⟨request, -, hcall⟩ := Option.bind_eq_some_iff.mp hcall
  obtain ⟨handler, hhandler, hcall⟩ := Option.bind_eq_some_iff.mp hcall
  split at hcall
  · cases hcall
  rename_i hallowed
  split at hcall
  · rename_i hcallback
    obtain rfl := Option.some.inj hcall
    refine ⟨⟨h.handlers _ _ hhandler, policy_of_allowed (by simpa using hallowed), ?_, h.remote⟩,
      rfl⟩
    simpa [or_comm] using hcallback
  · cases hcall

/-- A request is handled, in a packet or as a resource. -/
theorem Guards.handleRequest (requestId plaintext : Bytes) :
    Guards c key id (s.1, s.2.handleRequest c codec s.1 requestId plaintext) := by
  unfold Serving.handleRequest
  split
  · exact h
  have hnew : ∀ call ∈ (startCall c codec s.2.handlers s.1.remoteIdentity requestId
      plaintext).toList, Permitted c key id s.2 call ∧
        call.remoteIdentity = s.1.remoteIdentity :=
    fun call hcall => h.of_startCall (Option.mem_toList.mp hcall)
  refine ⟨h.linkId, h.initiator, h.derivedKey, h.remote, h.handlers, ?_, ?_⟩
  · intro call hcall
    obtain hcall | hcall := List.mem_append.mp hcall
    · exact (h.permitted call hcall).mono (List.Subset.refl _) (List.Subset.refl _)
    · exact (hnew call hcall).1.mono (List.Subset.refl _) (List.Subset.refl _)
  · intro call hcall
    obtain hcall | hcall := List.mem_append.mp hcall
    · exact h.known call hcall
    · exact .inr (hnew call hcall).2

/-- More is registered or heard, and no call is started. -/
theorem Guards.grow (hregistered : s.2.registered ⊆ t.registered)
    (hheard : s.2.heard ⊆ t.heard) (hcalls : t.calls = s.2.calls)
    (hhandlers : ∀ hash handler, t.handlers.requestHandlers hash = some handler →
      handler ∈ t.registered) : Guards c key id (s.1, t) where
  linkId := h.linkId
  initiator := h.initiator
  derivedKey := h.derivedKey
  remote publicKey hknown := (h.remote publicKey hknown).mono hheard
  handlers := hhandlers
  permitted call hcall := (h.permitted call (hcalls ▸ hcall)).mono hregistered hheard
  known call hcall := h.known call (hcalls ▸ hcall)

/-- One more packet was heard. -/
theorem Guards.hear (packet : Packet) :
    Guards c key id (s.1, { s.2 with heard := s.2.heard ++ [packet] }) :=
  h.grow (List.Subset.refl _) (List.subset_append_left _ _) rfl h.handlers

end

theorem Guards.receiveServing (codec : ValueCodec) (h : Guards c key id s) (packet : Packet) :
    Guards c key id (s.1, s.2.receive c codec s.1 packet) := by
  unfold Serving.receive
  split
  · exact h
  dsimp only
  split
  · exact h.hear packet
  split
  · exact h.hear packet
  · exact (h.hear packet).handleRequest _ _

section

variable (h : Guards c key id s)

include h

/-- The link goes on with the same peer. -/
theorem Guards.of_party (hparty : SameParty s.1 l) :
    Guards c key id (l, s.2) where
  linkId := hparty.linkId.trans h.linkId
  initiator := hparty.initiator.trans h.initiator
  derivedKey := by
    obtain hsame | hnone := hparty.derivedKey
    · exact hsame ▸ h.derivedKey
    · exact .inr hnone
  remote publicKey hknown := h.remote publicKey (hparty.remoteIdentity ▸ hknown)
  handlers := h.handlers
  permitted := h.permitted
  known call hcall := (h.known call hcall).imp_right fun hsame =>
    hsame.trans hparty.remoteIdentity.symm

/-- The link learns who its peer is. -/
theorem Guards.of_identifies (hmem : packet ∈ s.2.heard)
    (hidentifies : Identifies c s.1 packet l) : Guards c key id (l, s.2) where
  linkId := hidentifies.linkId.trans h.linkId
  initiator := hidentifies.initiator.trans h.initiator
  derivedKey := hidentifies.derivedKey ▸ h.derivedKey
  remote := by
    intro publicKey hknown
    obtain ⟨plaintext, hdecrypt, hvalid, hremote⟩ := hidentifies.plaintext
    obtain rfl := Option.some.inj (hremote.symm.trans hknown)
    unfold decrypt at hdecrypt
    obtain hkey | hkey := h.derivedKey
    · rw [hkey] at hdecrypt
      dsimp only at hdecrypt
      split at hdecrypt
      · cases hdecrypt
      · rename_i token htoken
        unfold identifies at hvalid
        rw [decide_eq_true_eq, h.linkId] at hvalid
        exact ⟨packet, hmem, hidentifies.packetType, hidentifies.context, token, plaintext, htoken,
          hdecrypt, rfl, hvalid.2.2⟩
    · rw [hkey] at hdecrypt
      cases hdecrypt
  handlers := h.handlers
  permitted := h.permitted
  known call hcall := by
    obtain hnone | hsame := h.known call hcall
    · exact .inl hnone
    · exact .inl (hsame.trans hidentifies.unknown)

/-- A packet comes in. -/
theorem Guards.receive {packet : Packet × Readings}
    (hstep : (servingOps c codec).receive s packet = some s') : Guards c key id s' := by
  obtain ⟨l, hl, rfl⟩ := Option.map_eq_some_iff.mp hstep
  obtain ⟨result, hresult, rfl⟩ := Option.map_eq_some_iff.mp hl
  have hserved := h.receiveServing codec packet.1
  obtain hparty | ⟨hopen, hidentifies⟩ := party_receive h.initiator hresult
  · exact hserved.of_party hparty
  · refine hserved.of_identifies ?_ hidentifies
    have hheard : packet.1 ∈ s.2.heard ++ [packet.1] :=
      List.mem_append_right _ (List.mem_singleton_self _)
    dsimp only
    unfold Serving.receive
    rw [if_neg hopen]
    dsimp only
    split
    · exact hheard
    split
    · exact hheard
    · unfold Serving.handleRequest
      split <;> exact hheard

theorem Guards.withHandlers {handlers : Handlers}
    {registered : List RequestHandler}
    (hhandlers : ∀ hash handler, handlers.requestHandlers hash = some handler →
      handler ∈ s.2.registered ++ registered) :
    Guards c key id (s.1, s.2.withHandlers handlers registered) :=
  h.grow (List.subset_append_left _ _) (List.Subset.refl _) rfl hhandlers

end

/-- One step. -/
theorem Guards.step {event : ServingEvent} (h : Guards c key id a.link)
    (hstep : servingStep c codec a event = some a') : Guards c key id a'.link := by
  cases event with
  | actor e =>
      refine link_step (Guards c key id) (fun _ _ => True) ?_ ?_ ?_ ?_ h
        (fun _ _ => True.intro) hstep
      · exact fun _ _ _ hs _ hreceive => hs.receive hreceive
      · exact fun _ r hs _ => hs.of_party (party_teardown (.refl _) r.now)
      · intro s s' message hs _ hhandle
        cases message with
        | handleRequestPacket requestId plaintext =>
            obtain rfl := Option.some.inj hhandle
            exact hs.handleRequest requestId plaintext
        | other update =>
            obtain rfl := Option.some.inj hhandle
            exact hs.of_party ⟨update.linkId s.1, update.initiator s.1, update.remoteIdentity s.1,
              .inl (update.derivedKey s.1)⟩
      · exact fun _ _ hs _ => hs.of_party party_watchdog
  | register handler =>
      simp only [servingStep] at hstep
      split at hstep
      · rename_i handlers hregister
        obtain rfl := Option.some.inj hstep
        apply h.withHandlers
        intro hash other hother
        unfold Handlers.register at hregister
        split at hregister
        · obtain rfl := Except.ok.inj hregister
          dsimp only at hother
          rw [Function.update_apply] at hother
          split at hother
          · obtain rfl := Option.some.inj hother
            exact List.mem_append_right _ (List.mem_singleton_self _)
          · exact List.mem_append_left _ (h.handlers hash other hother)
        · cases hregister
      · obtain rfl := Option.some.inj hstep
        exact h
  | deregister path =>
      obtain rfl := Option.some.inj hstep
      apply h.withHandlers
      intro hash other hother
      unfold deregisterRequestHandler at hother
      dsimp only at hother
      rw [Function.update_apply] at hother
      split at hother
      · cases hother
      · exact List.mem_append_left _ (h.handlers hash other hother)
  | setMaxRequestSize limit =>
      obtain rfl := Option.some.inj hstep
      apply h.withHandlers
      exact fun hash other hother => List.mem_append_left _ (h.handlers hash other hother)

/-- In every run of a link of a destination that has not identified its peer yet, whatever comes
in, and whatever handlers the application registers: every call of a handler is permitted by its
policy, the identity that it is called with has signed the link id in a packet that was
encrypted for the link, and no link ever serves two identities. -/
theorem requests_permitted (c : Crypto) (codec : ValueCodec) {l : Link} {handlers : Handlers}
    {key : Bytes} (linkEstablished : Bool) (hinitiator : l.initiator = false)
    (hkey : l.derivedKey = some key) (hunknown : l.remoteIdentity = none)
    (hempty : ∀ hash, handlers.requestHandlers hash = none) (events : List ServingEvent) :
    Always (servingStep c codec) (fun a => RequestsPermitted c key l.linkId a.link.2)
      (Actor.start (l, { handlers := handlers, registered := [], heard := [], calls := [] })
        linkEstablished) events := by
  have hstart : Guards c key l.linkId
      (l, { handlers := handlers, registered := [], heard := [], calls := [] }) := by
    refine ⟨rfl, hinitiator, .inl hkey, ?_, ?_, ?_, ?_⟩
    · intro publicKey hknown
      rw [hunknown] at hknown
      cases hknown
    · intro hash handler hhandler
      rw [hempty] at hhandler
      cases hhandler
    · exact fun _ hcall => absurd hcall List.not_mem_nil
    · exact fun _ hcall => absurd hcall List.not_mem_nil
  intro done a _ hrun
  have h : Guards c key l.linkId a.link := invariant_of_step
    (P := fun a : ServingActor => Guards c key l.linkId a.link)
    (fun _ _ _ hguards hstep => hguards.step hstep) hstart hrun
  refine ⟨h.permitted, ?_⟩
  intro call hcall call' hcall' publicKey publicKey' hpublic hpublic'
  have hsame : ∀ call ∈ a.link.2.calls, ∀ publicKey, call.remoteIdentity = some publicKey →
      a.link.1.remoteIdentity = some publicKey := by
    intro call hcall publicKey hpublic
    obtain hnone | hsame := h.known call hcall
    · rw [hnone] at hpublic
      cases hpublic
    · exact hsame.symm.trans hpublic
  exact Option.some.inj ((hsame call hcall publicKey hpublic).symm.trans
    (hsame call' hcall' publicKey' hpublic'))

end Runs

section Samples

set_option maxRecDepth 4000

/-- A public key. -/
def sampleAsker : Bytes := List.replicate 64 9

/-- Its signature of the link id of the sample responder is valid. -/
def servingCrypto : Crypto := sampleCrypto [sampleResponder.linkId ++ sampleAsker]

/-- Every plaintext is a request for the path of one byte. -/
def servingCodec : ValueCodec where
  readValue _ := some (.array [.f64 0, .binary (servingCrypto.truncatedHash [1]).1, .nil])
  writeValue _ := []
  ofF32 _ := 0
  ofInteger _ := none
  isFloat _ := false
  isAdvertisement _ := false

/-- A handler for the path of one byte, for one identity. -/
def servingHandler : RequestHandler where
  path := [1]
  allowPolicy := allowList
  allowedList := some [(servingCrypto.truncatedHash sampleAsker).1]
  autoCompress := false
  callback := true
  provenCallback := false

/-- A packet that was encrypted with the key of the sample responder. -/
def servingPacket (context : UInt8) (plaintext : Bytes) : Packet × Readings :=
  ({ raw := [], header2 := false, packetType := .data, context := context
     data := List.replicate 16 0 ++ plaintext ++ List.replicate 32 0 }, sampleReadings)

/-- The same request before the peer is identified, and after. -/
def servingEvents : List ServingEvent :=
  [.register servingHandler,
    .actor (.send (.receive (servingPacket Packet.request [1]))), .actor (.recv sampleReadings),
    .actor (.send (.receive (servingPacket Packet.linkIdentify
      (sampleAsker ++ List.replicate 64 1)))), .actor (.recv sampleReadings),
    .actor (.send (.receive (servingPacket Packet.request [1]))), .actor (.recv sampleReadings)]

/-- The link of the sample responder, which serves nothing yet. -/
def servingActor : ServingActor :=
  .start (sampleResponder,
    { handlers := { requestHandlers := fun _ => none, maxRequestSize := none }
      registered := [], heard := [], calls := [] }) false

/-- The second request is served. -/
theorem requests_permitted_identified :
    ((exec (servingStep servingCrypto servingCodec) servingActor servingEvents).map fun a =>
      a.link.2.calls.map (·.remoteIdentity)) = some [some sampleAsker] ∧
    Always (servingStep servingCrypto servingCodec)
      (fun a =>
        RequestsPermitted servingCrypto (List.replicate 64 0) sampleResponder.linkId a.link.2)
      servingActor servingEvents :=
  ⟨by decide +kernel, requests_permitted servingCrypto servingCodec false rfl rfl rfl
    (fun _ => rfl) servingEvents⟩

end Samples

end Reticulum.Link
