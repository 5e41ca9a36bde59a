import Mathlib.Algebra.GroupWithZero.Nat
import Mathlib.Data.List.Basic

/-!
# PostInterface: registration, exchange and the outbound queue

The fields of a `PostInterface` and the functions that change them: `process_outgoing`,
`register_with_remote` with what the node answers, and `exchange`.

## Implementation notes

Durations are in nanoseconds. `exchange` is in two halves, the request it sends and what it
does with the reply, so that a node can stand between them. A packet in a request is the
packet itself, since base64 loses nothing; one in a delivery may fail to decode. The hop
count that `process_incoming` fills in is a matter of Transport's tables and left out, like
the log and the state that Transport keeps of the interface. Serializing a request of
strings and numbers cannot fail.
-/

namespace Reticulum.Interfaces.Post

/-! ## Durations -/

def fromMillis (n : Nat) : Nat := n * 1000000

def fromSecs (n : Nat) : Nat := n * 1000000000

/-- After the n-th failed registration in a row the next one is made this much later. -/
def registrationBackoff : Nat → Nat
  | 0 => 0
  | n + 1 => fromSecs (min (2 * 2 ^ min n 8) 300)

example : (List.range 12).map registrationBackoff =
    [0, 2, 4, 8, 16, 32, 64, 128, 256, 300, 300, 300].map fromSecs := by decide

/-! ## The interface -/

/-- An outbound packet. `number` counts the packets accepted before it; the code only has
`raw`. -/
structure Packet where
  raw : List UInt8
  number : Nat
  deriving DecidableEq

/-- The fields that registration, exchange and the queue work on. `exchangeSignal` is the flag
of the condition variable. -/
structure PostInterface where
  online : Bool
  detached : Bool
  interfaceId : Option String
  sessionToken : Option String
  maxBatchPackets : Nat
  maxPacketBytes : Nat
  outboundQueue : List Packet
  batchSeq : Nat
  ackBatchIds : List String
  isWakeMode : Bool
  pollInterval : Nat
  configuredPollInterval : Option Nat
  running : Bool
  exchangeSignal : Bool

def defaultMaxBatchPackets : Nat := 64

def defaultMaxPacketBytes : Nat := 512

def minPollInterval : Nat := fromSecs 1

def defaultPollInterval : Nat := fromSecs 1

def maxQueueLen : Nat := 1024

namespace PostInterface

/-- `new`, with `wake_url` present or not and the poll interval of the configuration. -/
def new (isWakeMode : Bool) (configuredPollInterval : Option Nat) : PostInterface where
  online := false
  detached := false
  interfaceId := none
  sessionToken := none
  maxBatchPackets := defaultMaxBatchPackets
  maxPacketBytes := defaultMaxPacketBytes
  outboundQueue := []
  batchSeq := 0
  ackBatchIds := []
  isWakeMode := isWakeMode
  pollInterval := max (configuredPollInterval.getD defaultPollInterval) minPollInterval
  configuredPollInterval := configuredPollInterval
  running := false
  exchangeSignal := false

/-- Set the flag of the condition variable. -/
def signal (iface : PostInterface) : PostInterface := { iface with exchangeSignal := true }

/-- A full queue loses its oldest packet. -/
def makeRoom (iface : PostInterface) : PostInterface :=
  if maxQueueLen ≤ iface.outboundQueue.length then
    { iface with outboundQueue := iface.outboundQueue.tail }
  else iface

/-- The queue takes a packet. -/
def enqueue (iface : PostInterface) (packet : Packet) : PostInterface :=
  { iface.makeRoom with outboundQueue := iface.makeRoom.outboundQueue ++ [packet] }

def processOutgoing (iface : PostInterface) (packet : Packet) :
    PostInterface × Except String Unit :=
  if !iface.online || iface.detached then
    (iface, .error "PostInterface offline or detached")
  else ((iface.enqueue packet).signal, .ok ())

end PostInterface

/-! ## Registration -/

/-- What the node tells of the session it grants. -/
structure RegisterResponse where
  status : String
  interfaceId : String
  identityHash : Option String
  sessionTokenEncrypted : Option String
  idleExchangeIntervalMs : Option Nat
  maxBatchPackets : Option Nat
  maxPacketBytes : Option Nat

/-- An answer to a registration: its status, the error its text names, the text, and what the
text parses to. -/
structure RegisterAnswer where
  status : Nat
  errorCode : Option String
  text : String
  parsed : Except String RegisterResponse

def isSuccess (status : Nat) : Bool := 200 ≤ status && status < 300

/-- One call of `register_with_remote`: the identity that signs, how it opens a sealed token,
and the answers to a first and to a second registration. The error of a round is one of the
identity, of the challenge or of the request. -/
structure Registration where
  ownHash : String
  decryptSessionToken : String → Except String String
  first : Except String RegisterAnswer
  second : Except String RegisterAnswer

namespace Registration

/-- A 409 `stale_challenge` earns one more registration, and only one. -/
def answer (call : Registration) : Except String RegisterAnswer := do
  let answer ← call.first
  if answer.status == 409 && answer.errorCode == some "stale_challenge" then call.second
  else pure answer

/-- The checks on the answer: the session that the node grants and its token. -/
def granted (call : Registration) : Except String (RegisterResponse × String) := do
  let answer ← call.answer
  let status := answer.status
  let text := answer.text
  if !isSuccess status then throw s!"Registration failed (HTTP {status}): {text}"
  match answer.parsed with
  | .error e => throw s!"Failed to parse registration response: {e} (body: {text})"
  | .ok response =>
      let named := response.status
      if named != "registered" then throw s!"Registration returned unexpected status: {named}"
      if response.identityHash != some call.ownHash then
        let hash := repr response.identityHash
        let own := call.ownHash
        throw s!"Registration answer names identity_hash {hash}, not this gateway's {own}"
      match response.sessionTokenEncrypted with
      | none => throw "Registration answer has no session_token_encrypted"
      | some sealed' => do
          let token ← call.decryptSessionToken sealed'
          pure (response, token)

end Registration

namespace PostInterface

/-- The node's interval holds unless the configuration names one. -/
def intervalFrom (iface : PostInterface) (idleExchangeIntervalMs : Option Nat) : Nat :=
  match idleExchangeIntervalMs with
  | some ms =>
      if 0 < ms && iface.configuredPollInterval.isNone then max (fromMillis ms) minPollInterval
      else iface.pollInterval
  | none => iface.pollInterval

/-- The interface takes over the session and the limits of the node. -/
def registered (iface : PostInterface) (response : RegisterResponse) (token : String) :
    PostInterface :=
  { iface with
    interfaceId := some response.interfaceId
    sessionToken := some token
    maxBatchPackets := response.maxBatchPackets.getD defaultMaxBatchPackets
    maxPacketBytes := response.maxPacketBytes.getD defaultMaxPacketBytes
    pollInterval := iface.intervalFrom response.idleExchangeIntervalMs
    online := true }

def registerWithRemote (iface : PostInterface) (call : Registration) :
    PostInterface × Except String Unit :=
  match call.granted with
  | .error e => (iface, .error e)
  | .ok (response, token) => (iface.registered response token, .ok ())

end PostInterface

/-- A registration that the node grants. -/
def grantedCall : Registration where
  ownHash := "a1"
  decryptSessionToken := .ok
  first := .ok
    { status := 200, errorCode := none, text := ""
      parsed := .ok
        { status := "registered", interfaceId := "p1", identityHash := some "a1"
          sessionTokenEncrypted := some "t1", idleExchangeIntervalMs := none
          maxBatchPackets := none, maxPacketBytes := none } }
  second := .error ""

/-! ## The request of an exchange -/

structure ExchangeRequest where
  interfaceId : String
  sessionToken : String
  ackBatchIds : List String
  maxPackets : Nat
  packets : List Packet
  batchId : Option String

/-- Packets of the queue for one batch: at most so many are popped, and those within
`maxBytes` are taken. -/
def collect (maxBytes : Nat) : Nat → List Packet → List Packet × List Packet
  | 0, queue => ([], queue)
  | _ + 1, [] => ([], [])
  | maxBatch + 1, packet :: queue =>
      let popped := collect maxBytes maxBatch queue
      if packet.raw.length ≤ maxBytes then (packet :: popped.1, popped.2) else popped

/-- A packet that an exchange takes along. -/
def Packet.fits (maxBytes : Nat) (packet : Packet) : Bool := packet.raw.length ≤ maxBytes

theorem collect_eq (maxBytes maxBatch : Nat) (queue : List Packet) :
    collect maxBytes maxBatch queue =
      ((queue.take maxBatch).filter (Packet.fits maxBytes), queue.drop maxBatch) := by
  induction maxBatch generalizing queue with
  | zero => simp [collect]
  | succ maxBatch ih =>
      cases queue with
      | nil => simp [collect]
      | cons packet queue =>
          by_cases hfits : packet.raw.length ≤ maxBytes
          · simp [collect, ih, Packet.fits, hfits]
          · simp [collect, ih, Packet.fits, hfits]

/-- The name of the batch with this number. -/
def batchIdText (ms seq : Nat) : String := s!"rns-post-{ms}-{seq}"

theorem dash_notMem_toDigits (n : Nat) : '-' ∉ Nat.toDigits 10 n := by
  intro h
  exact absurd (Nat.isDigit_of_mem_toDigits (by decide) (by decide) h) (by decide)

/-- What stands before the first separator, and what after it. -/
theorem eq_of_append_cons {A : Type} {c : A} {front front' back back' : List A}
    (h : front ++ c :: back = front' ++ c :: back') (hfront : c ∉ front) (hfront' : c ∉ front') :
    front = front' ∧ back = back' := by
  induction front generalizing front' with
  | nil =>
      cases front' with
      | nil => exact ⟨rfl, (List.cons.inj h).2⟩
      | cons a front' => exact absurd (by simp [(List.cons.inj h).1]) hfront'
  | cons a front ih =>
      cases front' with
      | nil => exact absurd (by simp [(List.cons.inj h).1]) hfront
      | cons a' front' =>
          obtain ⟨rfl, htail⟩ := List.cons.inj h
          obtain ⟨rfl, rfl⟩ := ih htail (fun hc => hfront (List.mem_cons_of_mem _ hc))
            (fun hc => hfront' (List.mem_cons_of_mem _ hc))
          exact ⟨rfl, rfl⟩

/-- Batches with other numbers have other names, whenever they are named. -/
theorem batchIdText_inj {ms ms' seq seq' : Nat} (h : batchIdText ms seq = batchIdText ms' seq') :
    seq = seq' := by
  have hlist : Nat.toDigits 10 ms ++ '-' :: Nat.toDigits 10 seq =
      Nat.toDigits 10 ms' ++ '-' :: Nat.toDigits 10 seq' := by
    simpa [batchIdText, toString, String.append_assoc] using congrArg String.toList h
  have hdigits := (eq_of_append_cons hlist (dash_notMem_toDigits ms) (dash_notMem_toDigits ms')).2
  calc seq = Nat.ofDigitChars 10 (Nat.toDigits 10 seq) 0 := Nat.ofDigitChars_ten_toDigits.symm
    _ = Nat.ofDigitChars 10 (Nat.toDigits 10 seq') 0 := by rw [hdigits]
    _ = seq' := Nat.ofDigitChars_ten_toDigits

/-- The first half of an exchange: the interface without what it sends, the packets taken
along, and the request. -/
structure Sent where
  iface : PostInterface
  taken : List Packet
  request : ExchangeRequest

namespace PostInterface

/-- `exchange` up to the request: packets are popped, a batch with packets is named anew, and
the acknowledgements are taken out. -/
def request (iface : PostInterface) (ms : Nat) : Except String Sent :=
  match iface.interfaceId, iface.sessionToken with
  | some interfaceId, some sessionToken =>
      let popped := collect iface.maxPacketBytes iface.maxBatchPackets iface.outboundQueue
      let batchSeq := if popped.1.isEmpty then iface.batchSeq else iface.batchSeq + 1
      let batchId := if popped.1.isEmpty then none else some (batchIdText ms batchSeq)
      .ok
        { iface :=
            { iface with outboundQueue := popped.2, batchSeq := batchSeq, ackBatchIds := [] }
          taken := popped.1
          request :=
            { interfaceId := interfaceId
              sessionToken := sessionToken
              ackBatchIds := iface.ackBatchIds
              maxPackets := iface.maxBatchPackets
              packets := popped.1
              batchId := batchId } }
  | _, _ => .error "PostInterface not registered"

/-- `requeue_packets`: the packets go back to the front, in their order. -/
def requeuePackets (iface : PostInterface) (packets : List Packet) : PostInterface :=
  { iface with outboundQueue := packets ++ iface.outboundQueue }

/-- After a 401 or 403 the session is gone. -/
def expired (iface : PostInterface) : PostInterface :=
  { iface with online := false, interfaceId := none, sessionToken := none }

end PostInterface

/-! ## The reply to an exchange -/

/-- The fields of an answer that `exchange` reads. A delivered packet that is not base64 is
`none`. -/
structure ExchangeResponse where
  deliveryBatchId : Option String
  deliveryPackets : Option (List (Option (List UInt8)))
  deliveryMore : Option Bool
  error : Option String

/-- What becomes of a request: it fails, the text of the answer cannot be read, or there is a
text and what it parses to. -/
inductive Reply
  | failed (e : String)
  | unreadable (status : Nat) (e : String)
  | text (status : Nat) (text : String) (parsed : Except String ExchangeResponse)

structure ExchangeResult where
  sentCount : Nat
  recvCount : Nat
  hasMore : Bool
  batchId : Option String
  deriving DecidableEq

def isRefused (status : Nat) : Bool := status == 401 || status == 403

/-- The answer in a reply, or how the exchange fails. -/
def Reply.answer : Reply → Except String ExchangeResponse
  | .failed e => .error s!"Exchange HTTP request failed: {e}"
  | .unreadable status e =>
      if isRefused status then .error "Session expired"
      else .error s!"Failed to read exchange response: {e}"
  | .text status body parsed =>
      if isRefused status then .error "Session expired"
      else if !isSuccess status then .error s!"Exchange failed (HTTP {status}): {body}"
      else
        match parsed with
        | .error e => .error s!"Failed to parse exchange response: {e} (body: {body})"
        | .ok response =>
            match response.error with
            | some e => .error s!"Exchange returned error: {e}"
            | none => .ok response

/-- The reply refuses the session. -/
def Reply.refuses : Reply → Bool
  | .failed _ => false
  | .unreadable status _ => isRefused status
  | .text status _ _ => isRefused status

/-- An exchange: the interface after it, the packets handed to Transport, and the result. -/
structure Exchanged where
  iface : PostInterface
  delivered : List (List UInt8)
  result : Except String ExchangeResult

namespace PostInterface

/-- `process_incoming` hands a packet on while the interface is online and not detached. -/
def processIncoming (iface : PostInterface) (packets : List (List UInt8)) :
    List (List UInt8) :=
  if iface.online && !iface.detached then packets else []

/-- The batch that came is to be acknowledged. -/
def acknowledge (iface : PostInterface) (deliveryBatchId : Option String) : PostInterface :=
  match deliveryBatchId with
  | some batch =>
      if batch.isEmpty then iface
      else { iface with ackBatchIds := iface.ackBatchIds ++ [batch] }
  | none => iface

/-- `exchange` from the reply on. -/
def conclude (sent : Sent) (reply : Reply) : Exchanged :=
  match reply.answer with
  | .error e =>
      let iface := sent.iface.requeuePackets sent.taken
      { iface := if reply.refuses then iface.expired else iface, delivered := []
        result := .error e }
  | .ok response =>
      let packets := (response.deliveryPackets.getD []).filterMap id
      { iface := sent.iface.acknowledge response.deliveryBatchId
        delivered := sent.iface.processIncoming packets
        result := .ok
          { sentCount := sent.taken.length
            recvCount := packets.length
            hasMore := response.deliveryMore.getD false
            batchId := sent.request.batchId } }

/-- An exchange whose request gets this reply. -/
def exchange (iface : PostInterface) (ms : Nat) (reply : ExchangeRequest → Reply) : Exchanged :=
  match iface.request ms with
  | .error e => { iface := iface, delivered := [], result := .error e }
  | .ok sent => conclude sent (reply sent.request)

/-! ## What an exchange changes -/

/-- Packets that an exchange pops and drops. -/
def oversized (iface : PostInterface) : List Packet :=
  (iface.outboundQueue.take iface.maxBatchPackets).filter fun packet =>
    !packet.fits iface.maxPacketBytes

/-- Packets that an exchange takes along. -/
def takes (iface : PostInterface) : List Packet :=
  (iface.outboundQueue.take iface.maxBatchPackets).filter (Packet.fits iface.maxPacketBytes)

/-- Packets that an exchange does not reach. -/
def rest (iface : PostInterface) : List Packet :=
  iface.outboundQueue.drop iface.maxBatchPackets

/-- The interface holds a session. -/
def holdsSession (iface : PostInterface) : Bool :=
  iface.interfaceId.isSome && iface.sessionToken.isSome

theorem request_eq_error {iface : PostInterface} (ms : Nat) (h : iface.holdsSession = false) :
    iface.request ms = .error "PostInterface not registered" := by
  unfold holdsSession at h
  unfold request
  cases hid : iface.interfaceId with
  | none => rfl
  | some interfaceId =>
      cases htoken : iface.sessionToken with
      | none => rfl
      | some sessionToken => simp [hid, htoken] at h

/-- What is sent is what the queue gives, with every acknowledgement. -/
theorem request_spec {iface : PostInterface} {ms : Nat} {sent : Sent}
    (h : iface.request ms = .ok sent) :
    iface.holdsSession = true ∧ sent.taken = iface.takes ∧
      sent.request.packets = iface.takes ∧ sent.request.ackBatchIds = iface.ackBatchIds ∧
      sent.iface = { iface with
        outboundQueue := iface.rest
        batchSeq := if iface.takes.isEmpty then iface.batchSeq else iface.batchSeq + 1
        ackBatchIds := [] } ∧
      sent.request.batchId =
        if iface.takes.isEmpty then none else some (batchIdText ms (iface.batchSeq + 1)) := by
  unfold request at h
  cases hid : iface.interfaceId with
  | none => simp [hid] at h
  | some interfaceId =>
      cases htoken : iface.sessionToken with
      | none => simp [hid, htoken] at h
      | some sessionToken =>
          rw [hid, htoken] at h
          obtain rfl := Except.ok.inj h
          have htakes : (collect iface.maxPacketBytes iface.maxBatchPackets
              iface.outboundQueue).1 = iface.takes := by rw [collect_eq]; rfl
          have hrest : (collect iface.maxPacketBytes iface.maxBatchPackets
              iface.outboundQueue).2 = iface.rest := by rw [collect_eq]; rfl
          refine ⟨by simp [holdsSession, hid, htoken], ?_⟩
          by_cases hempty : iface.takes.isEmpty = true
          · simp [htakes, hrest, hempty]
          · simp [htakes, hrest, hempty]

theorem request_of_holdsSession {iface : PostInterface} (ms : Nat)
    (h : iface.holdsSession = true) : ∃ sent, iface.request ms = .ok sent := by
  obtain ⟨hid, htoken⟩ := Bool.and_eq_true_iff.mp h
  obtain ⟨interfaceId, hid⟩ := Option.isSome_iff_exists.mp hid
  obtain ⟨sessionToken, htoken⟩ := Option.isSome_iff_exists.mp htoken
  exact ⟨_, by rw [request, hid, htoken]⟩

theorem conclude_of_error {sent : Sent} {reply : Reply} {e : String} (h : reply.answer = .error e) :
    conclude sent reply =
      { iface :=
          if reply.refuses then (sent.iface.requeuePackets sent.taken).expired
          else sent.iface.requeuePackets sent.taken
        delivered := [], result := .error e } := by
  simp only [conclude, h]

theorem conclude_of_ok {sent : Sent} {reply : Reply} {response : ExchangeResponse}
    (h : reply.answer = .ok response) :
    conclude sent reply =
      { iface := sent.iface.acknowledge response.deliveryBatchId
        delivered :=
          sent.iface.processIncoming ((response.deliveryPackets.getD []).filterMap id)
        result := .ok
          { sentCount := sent.taken.length
            recvCount := ((response.deliveryPackets.getD []).filterMap id).length
            hasMore := response.deliveryMore.getD false
            batchId := sent.request.batchId } } := by
  simp only [conclude, h]

end PostInterface

end Reticulum.Interfaces.Post
