import Reticulum.Lib.MessagePack
import Reticulum.Link.Requests

/-!
# Request ids

A request that fits a packet is named by the hash of its packet, and one that goes as a resource
by the hash of what was packed (`Link::request`, `request_as_resource`). The packed request holds
the time in whole seconds, its path and its data, so that a request as a resource has the id of
one that was made in the same second with the same path and data. Ids in the list are distinct
exactly as long as no request is repeated so (`requestIds_distinct_iff`).

## Implementation notes

The link of a `Requester` may change between the calls, but not its id. `made` and `vectors` are
a history: what the ids are hashes of, and the vectors that were drawn. Failures to send a packet
are readings of the call.
-/

namespace Reticulum.Link

open Runs

/-- The crate `rmpv`. -/
structure Rmpv (V : Type*) where
  /-- `Value::Nil` -/
  nil : V
  /-- `read_value`: the first value, and the bytes after it -/
  readValue : Bytes → Except String (V × Bytes)
  /-- `write_value` -/
  writeValue : V → Bytes

variable {V : Type*} (c : Crypto) (rmpv : Rmpv V)

/-- The bits of `n as f64`: rounded to the nearest, ties to even. -/
def asF64 (n : Nat) : Nat :=
  let exponent := n.log2
  if n = 0 then 0
  else if exponent ≤ 52 then
    (1023 + exponent) * 2 ^ 52 + (n - 2 ^ exponent) * 2 ^ (52 - exponent)
  else
    let unit := 2 ^ (exponent - 52)
    let quotient := n / unit
    let up := n % unit * 2 > unit ∨ n % unit * 2 = unit ∧ quotient % 2 = 1
    (1023 + exponent) * 2 ^ 52 + ((if up then quotient + 1 else quotient) - 2 ^ 52)

def oneMsgpackValue (bytes : Bytes) (what : String) : Except String V :=
  if bytes = [] then .ok rmpv.nil
  else
    match rmpv.readValue bytes with
    | .error e =>
        .error (what ++ " is not a msgpack value (" ++ e ++ "): raw bytes go as a msgpack bin")
    | .ok (value, rest) =>
        if rest = [] then .ok value
        else
          .error (what ++ " has " ++ toString rest.length ++
            " bytes after its first msgpack value (" ++ toString (bytes.length - rest.length) ++
            " of " ++ toString bytes.length ++ "): raw bytes go as a msgpack bin")

/-- `pack_request`, with the timestamp in seconds. -/
def packRequest (timestamp : Nat) (path data : Bytes) : Except String Bytes :=
  (oneMsgpackValue rmpv data "request data").map fun value =>
    0x93 :: 0xcb :: (Fields.bigEndian 8 (asF64 timestamp) ++
      MessagePack.bin (c.truncatedHash path).1 ++ rmpv.writeValue value)

/-- The packet of a request: a DATA packet to the link, with its ciphertext. -/
def requestPacket (linkId token : Bytes) : Packet where
  raw := 0x0c :: 0 :: (linkId ++ Packet.request :: token)
  header2 := false
  packetType := .data
  context := Packet.request
  data := token

/-- What a call of `Link::request` is given and reads. -/
structure RequestCall where
  /-- `current_time()` -/
  timestamp : Nat
  path : Bytes
  data : Bytes
  maxResponseSize : Option Nat
  vector : Bytes.Block 16
  /-- `packet.send()` returns `Ok` -/
  sent : Bool
  /-- `self_handle.is_some()` -/
  hasHandle : Bool

/-- The requests of a link from elsewhere: their responses, uploads and timeouts. -/
inductive LedgerOp
  | uploadConcluded (requestId : Bytes) (delivered : Bool)
  | response (response : Option (Bytes × Bytes))
  | advertisement (adv : AdvertisementHeader) (accepts : Bool) (locked : Nat → Bool)
  | accepted (adv : AdvertisementHeader) (locked : Nat → Bool)
  | cancelled (hash : Resource.Digest)
  | settled (unpack : Bytes → Option (Bytes × Bytes)) (i : Nat) (requestId : Bytes)
      (effects : List Resource.Effect)
  | timeouts (timeUp : Nat → Bool)
  | closed

/-- What it does to the list. -/
def Ledger.apply (ledger : Ledger) : LedgerOp → Ledger
  | .uploadConcluded requestId delivered => ledger.requestResourceConcluded requestId delivered
  | .response response => ledger.handleResponsePacket response
  | .advertisement adv accepts locked => ledger.handleAdvertisement adv accepts locked
  | .accepted adv locked => ledger.acceptAdvertisedResource adv none locked
  | .cancelled hash => ledger.cancelIncomingResource hash
  | .settled unpack i requestId effects => ledger.settle unpack i requestId effects
  | .timeouts timeUp => ledger.checkRequestTimeouts timeUp
  | .closed => ledger.linkClosed

/-- What the id of a request is the hash of. -/
structure Made where
  uid : Nat
  input : Bytes
  /-- it went as a resource -/
  uploaded : Bool
  deriving DecidableEq, Repr

/-- A link and its requests. -/
structure Requester where
  link : Link
  ledger : Ledger
  made : List Made
  vectors : List (Bytes.Block 16)

/-- A request joins the list under the hash of its input. -/
def Requester.push (s : Requester) (input : Bytes) (uploaded : Bool)
    (maxResponseSize : Option Nat) : Requester :=
  { s with
    ledger := s.ledger.push (c.truncatedHash input).1 maxResponseSize (!uploaded)
    made := s.made ++ [{ uid := s.ledger.nextUid, input := input, uploaded := uploaded }] }

/-- The packet of a request is sent. -/
def Requester.sendPacket (s : Requester) (call : RequestCall) (token : Bytes) : Requester :=
  let s := { s with vectors := s.vectors ++ [call.vector] }
  if call.sent then
    s.push c (requestPacket s.link.linkId token).getHashablePart false call.maxResponseSize
  else { s with ledger := s.ledger.failUnsent }

def Requester.request (s : Requester) (call : RequestCall) : Requester :=
  match packRequest c rmpv call.timestamp call.path call.data with
  | .error _ => s
  | .ok packed =>
      if packed.length > s.link.mdu then
        if call.hasHandle then s.push c packed true call.maxResponseSize else s
      else
        match s.link.encrypt c call.vector packed with
        | .error _ => s
        | .ok token => s.sendPacket c call token

variable {adv : AdvertisementHeader} {packed : Bytes} {locked : Nat → Bool} {call : RequestCall}

/-- A request that is larger than the MDU goes as a resource. -/
theorem request_upload {s : Requester}
    (hpacked : packRequest c rmpv call.timestamp call.path call.data = .ok packed)
    (hlarge : packed.length > s.link.mdu) (hhandle : call.hasHandle = true) :
    s.request c rmpv call = s.push c packed true call.maxResponseSize := by
  unfold Requester.request
  rw [hpacked]
  dsimp only
  rw [if_pos hlarge, if_pos hhandle]

/-- To the list, a call of a link with a handle is a request of the ledger. -/
theorem ledger_request {s : Requester}
    (hpacked : packRequest c rmpv call.timestamp call.path call.data = .ok packed)
    (hhandle : call.hasHandle = true) : ∃ r : Ledger.RequestReadings,
      (s.request c rmpv call).ledger = s.ledger.request (fun input => (c.truncatedHash input).1)
        false s.link.mdu packed call.maxResponseSize r ∧
      ∀ token, s.link.encrypt c call.vector packed = .ok token → r.packetId =
        (c.truncatedHash (requestPacket s.link.linkId token).getHashablePart).1 := by
  unfold Ledger.request
  by_cases hlarge : packed.length > s.link.mdu
  · rw [request_upload c rmpv hpacked hlarge hhandle]
    refine ⟨⟨(c.truncatedHash (requestPacket s.link.linkId
      ((s.link.encrypt c call.vector packed).toOption.getD [])).getHashablePart).1, true, true⟩, ?_, ?_⟩
    · rw [if_pos hlarge]
      rfl
    · intro token htoken
      rw [htoken]
      rfl
  · unfold Requester.request
    rw [hpacked]
    dsimp only
    rw [if_neg hlarge]
    cases htoken : s.link.encrypt c call.vector packed with
    | error e =>
        refine ⟨⟨[], false, false⟩, ?_, fun token h => by cases h⟩
        rw [if_neg hlarge, if_pos (by simp)]
    | ok token =>
        refine ⟨⟨(c.truncatedHash (requestPacket s.link.linkId token).getHashablePart).1, true,
          call.sent⟩, ?_, ?_⟩
        · rw [if_neg hlarge, if_neg (by simp)]
          unfold Requester.sendPacket
          dsimp only
          split <;> rfl
        · intro token' htoken'
          obtain rfl := Except.ok.inj htoken'
          rfl

/-- What happens on the link. -/
inductive RequesterEvent
  | request (call : RequestCall)
  | ledger (op : LedgerOp)
  /-- the link changes otherwise -/
  | link (link : Link)

/-- One event. -/
def Requester.step (s : Requester) : RequesterEvent → Option Requester
  | .request call => some (s.request c rmpv call)
  | .ledger op => some { s with ledger := s.ledger.apply op }
  | .link link => if link.linkId = s.link.linkId then some { s with link := link } else none

/-- A link without requests. -/
def Requester.start (link : Link) : Requester :=
  { link := link, ledger := .empty, made := [], vectors := [] }

/-! ## What is promised, and when -/

/-- No two requests in the list have one id, and the first one with the id of a request is that
request. -/
structure Matched (s : Requester) : Prop where
  distinct : (s.ledger.pending.map PendingRequest.requestId).Nodup
  first : ∀ p ∈ s.ledger.pending, s.ledger.pending.find? (Ledger.hasId p.requestId) = some p

/-- What the id of a call is the hash of. -/
def Requester.hashedInput (s : Requester) (call : RequestCall) : Option Bytes :=
  match packRequest c rmpv call.timestamp call.path call.data with
  | .error _ => none
  | .ok packed =>
      if packed.length > s.link.mdu then some packed
      else
        match s.link.encrypt c call.vector packed with
        | .error _ => none
        | .ok token => some (requestPacket s.link.linkId token).getHashablePart

theorem hashedInput_upload {s : Requester}
    (hpacked : packRequest c rmpv call.timestamp call.path call.data = .ok packed)
    (hlarge : packed.length > s.link.mdu) : s.hashedInput c rmpv call = some packed := by
  unfold Requester.hashedInput
  rw [hpacked]
  exact if_pos hlarge

/-- Vectors are fresh, and the hash does not collide. -/
def Assumed (s : Requester) : RequesterEvent → Prop
  | .request call => call.vector ∉ s.vectors ∧
      ∀ input, s.hashedInput c rmpv call = some input →
        ∀ m ∈ s.made, c.truncatedHash m.input = c.truncatedHash input → m.input = input
  | _ => True

/-- The condition: a request that goes as a resource is not packed to what one in the list that
went as a resource was packed to. -/
def Unrepeated (s : Requester) : RequesterEvent → Prop
  | .request call => ∀ packed, packRequest c rmpv call.timestamp call.path call.data = .ok packed →
      packed.length > s.link.mdu → call.hasHandle = true →
        ∀ m ∈ s.made, m.uploaded = true →
          m.uid ∈ s.ledger.pending.map PendingRequest.uid → m.input ≠ packed
  | _ => True

/-! ## The list between the calls -/

/-- The requests in the list, with their ids. -/
def Ledger.keys (ledger : Ledger) : List (Nat × Bytes) :=
  ledger.pending.map fun p => (p.uid, p.requestId)

namespace Ledger

variable {ledger : Ledger}

theorem keys_snd (ledger : Ledger) :
    ledger.keys.map Prod.snd = ledger.pending.map PendingRequest.requestId := List.map_map

theorem keys_fst (ledger : Ledger) :
    ledger.keys.map Prod.fst = ledger.pending.map PendingRequest.uid := List.map_map

theorem keys_conclude (requestId : Bytes) (callback : PendingRequest → Callback) :
    (ledger.conclude requestId callback).keys.Sublist ledger.keys := by
  unfold keys
  rw [pending_conclude]
  exact List.eraseP_sublist.map _

theorem keys_update {requestId : Bytes} {f : PendingRequest → PendingRequest}
    (hf : ∀ p, (f p).uid = p.uid ∧ (f p).requestId = p.requestId) :
    (FirstMatch.update (hasId requestId) f ledger.pending).map (fun p => (p.uid, p.requestId)) =
      ledger.keys := by
  apply FirstMatch.map_update
  intro p
  rw [(hf p).1, (hf p).2]

theorem keys_acceptAdvertisedResource {response : Option Bytes} :
    (ledger.acceptAdvertisedResource adv response locked).keys = ledger.keys := by
  unfold keys
  rw [pending_acceptAdvertisedResource]

theorem keys_responseAdvertised {requestId : Bytes} :
    (ledger.responseAdvertised adv requestId locked).keys.Sublist ledger.keys := by
  unfold responseAdvertised
  split
  · exact List.Sublist.refl _
  · split
    · rw [keys_acceptAdvertisedResource]
      have hsame : (ledger.startReceiving requestId).keys = ledger.keys :=
        keys_update fun _ => ⟨rfl, rfl⟩
      rw [hsame]
    · exact keys_conclude _ _

theorem keys_handleAdvertisement {accepts : Bool} :
    (ledger.handleAdvertisement adv accepts locked).keys.Sublist ledger.keys := by
  have haccept : ∀ response, (ledger.acceptAdvertisedResource adv response locked).keys.Sublist
      ledger.keys := by
    intro response
    rw [keys_acceptAdvertisedResource]
  unfold handleAdvertisement
  split
  · split
    · split
      · exact haccept none
      · exact List.Sublist.refl _
    · split
      · exact keys_responseAdvertised
      · split
        · exact haccept none
        · exact List.Sublist.refl _
  · split
    · exact haccept none
    · exact List.Sublist.refl _

theorem keys_settle (unpack : Bytes → Option (Bytes × Bytes)) (i : Nat) (requestId : Bytes)
    (effects : List Resource.Effect) :
    (ledger.settle unpack i requestId effects).keys.Sublist ledger.keys := by
  induction effects generalizing ledger with
  | nil => exact List.Sublist.refl _
  | cons effect effects ih =>
      have hrest : (ledger.settle unpack i requestId (effect :: effects)).keys.Sublist
          (settleOne unpack i requestId ledger effect).keys := ih
      apply hrest.trans
      cases effect with
      | callback r => exact (pending_responseConcluded ledger unpack requestId r).1.map _
      | _ => exact List.Sublist.refl _

/-- Nothing but a request joins the list. -/
theorem keys_apply (op : LedgerOp) : (ledger.apply op).keys.Sublist ledger.keys := by
  cases op with
  | uploadConcluded requestId delivered =>
      show (ledger.requestResourceConcluded requestId delivered).keys.Sublist _
      unfold requestResourceConcluded
      split
      · have hsame : (FirstMatch.update (hasId requestId)
            (fun p => { p with responseClockStarted := true }) ledger.pending).map
              (fun p => (p.uid, p.requestId)) = ledger.keys := keys_update fun _ => ⟨rfl, rfl⟩
        exact hsame ▸ List.Sublist.refl _
      · exact keys_conclude _ _
  | response response =>
      show (ledger.handleResponsePacket response).keys.Sublist _
      unfold handleResponsePacket
      split
      · exact List.Sublist.refl _
      · exact keys_conclude _ _
  | advertisement adv accepts locked => exact keys_handleAdvertisement
  | accepted adv locked =>
      show (ledger.acceptAdvertisedResource adv none locked).keys.Sublist _
      rw [keys_acceptAdvertisedResource]
  | cancelled hash => exact List.Sublist.refl _
  | settled unpack i requestId effects => exact keys_settle _ _ _ _
  | timeouts timeUp => exact List.filter_sublist.map _
  | closed => exact List.nil_sublist _

theorem Accounts.apply (h : ledger.Accounts) (op : LedgerOp) : (ledger.apply op).Accounts := by
  cases op with
  | uploadConcluded requestId delivered => exact h.requestResourceConcluded _
  | response response => exact h.handleResponsePacket _
  | advertisement adv accepts locked => exact h.handleAdvertisement
  | accepted adv locked => exact h.acceptAdvertisedResource
  | cancelled hash => exact h.of_same rfl rfl rfl rfl
  | settled unpack i requestId effects => exact h.settle _
  | timeouts timeUp => exact h.checkRequestTimeouts _
  | closed => exact h.linkClosed

theorem nextUid_conclude (requestId : Bytes) (callback : PendingRequest → Callback) :
    (ledger.conclude requestId callback).nextUid = ledger.nextUid := by
  unfold conclude
  split <;> rfl

theorem nextUid_acceptAdvertisedResource {response : Option Bytes} :
    (ledger.acceptAdvertisedResource adv response locked).nextUid = ledger.nextUid := by
  unfold acceptAdvertisedResource
  split <;> rfl

theorem nextUid_handleAdvertisement {accepts : Bool} :
    (ledger.handleAdvertisement adv accepts locked).nextUid = ledger.nextUid := by
  have hresponse : ∀ requestId,
      (ledger.responseAdvertised adv requestId locked).nextUid = ledger.nextUid := by
    intro requestId
    unfold responseAdvertised
    split
    · rfl
    · split
      · exact nextUid_acceptAdvertisedResource
      · exact nextUid_conclude _ _
  unfold handleAdvertisement
  split
  · split
    · split
      · exact nextUid_acceptAdvertisedResource
      · rfl
    · split
      · exact hresponse _
      · split
        · exact nextUid_acceptAdvertisedResource
        · rfl
  · split
    · exact nextUid_acceptAdvertisedResource
    · rfl

theorem nextUid_settle (unpack : Bytes → Option (Bytes × Bytes)) (i : Nat) (requestId : Bytes)
    (effects : List Resource.Effect) :
    (ledger.settle unpack i requestId effects).nextUid = ledger.nextUid := by
  induction effects generalizing ledger with
  | nil => rfl
  | cons effect effects ih =>
      have hrest : (ledger.settle unpack i requestId (effect :: effects)).nextUid =
          (settleOne unpack i requestId ledger effect).nextUid := ih
      rw [hrest]
      cases effect with
      | callback r =>
          show (ledger.responseConcluded unpack requestId r).nextUid = _
          unfold responseConcluded
          split
          · exact nextUid_conclude _ _
          · split
            · rfl
            · exact nextUid_conclude _ _
      | _ => rfl

/-- Nothing but a request is numbered. -/
theorem nextUid_apply (op : LedgerOp) : (ledger.apply op).nextUid = ledger.nextUid := by
  cases op with
  | uploadConcluded requestId delivered =>
      show (ledger.requestResourceConcluded requestId delivered).nextUid = _
      unfold requestResourceConcluded
      split
      · rfl
      · exact nextUid_conclude _ _
  | response response =>
      show (ledger.handleResponsePacket response).nextUid = _
      unfold handleResponsePacket
      split
      · rfl
      · exact nextUid_conclude _ _
  | advertisement adv accepts locked => exact nextUid_handleAdvertisement
  | accepted adv locked => exact nextUid_acceptAdvertisedResource
  | cancelled hash => rfl
  | settled unpack i requestId effects => exact nextUid_settle _ _ _ _
  | timeouts timeUp => rfl
  | closed => rfl

end Ledger

/-! ## What ids are hashes of -/

/-- The hashed part of the packet of a request: the flags of a DATA packet to a link, the link, the
context, and a ciphertext that starts with its vector. -/
def PacketInput (linkId : Bytes) (vector : Bytes.Block 16) (input : Bytes) : Prop :=
  ∃ rest, input = 0x0c :: (linkId ++ Packet.request :: (vector.1 ++ rest))

/-- The ciphertext starts with its vector. -/
theorem encrypt_vector {l : Link} {vector : Bytes.Block 16} {plaintext token : Bytes}
    (h : l.encrypt c vector plaintext = .ok token) : ∃ rest, token = vector.1 ++ rest := by
  obtain ⟨keys, rfl⟩ := token_of_encrypt h
  exact ⟨_, List.append_assoc _ _ _⟩

theorem packetInput_token {l : Link} {vector : Bytes.Block 16} {plaintext token : Bytes}
    (h : l.encrypt c vector plaintext = .ok token) (linkId : Bytes) :
    PacketInput linkId vector (requestPacket linkId token).getHashablePart := by
  obtain ⟨rest, rfl⟩ := encrypt_vector c h
  exact ⟨rest, rfl⟩

/-- Packets with different vectors have different hashed parts. -/
theorem PacketInput.vector_inj {linkId input : Bytes} {v v' : Bytes.Block 16}
    (h : PacketInput linkId v input) (h' : PacketInput linkId v' input) : v = v' := by
  obtain ⟨rest, rfl⟩ := h
  obtain ⟨rest', heq⟩ := h'
  have htail := List.append_cancel_left (List.cons.inj heq).2
  have hvectors := (List.cons.inj htail).2
  apply Subtype.ext
  exact (List.append_inj hvectors (v.2.trans v'.2.symm)).1

/-- A packed request is a msgpack array of three. -/
theorem head?_packRequest {timestamp : Nat} {path data packed : Bytes}
    (h : packRequest c rmpv timestamp path data = .ok packed) : packed.head? = some 0x93 := by
  unfold packRequest at h
  cases hvalue : oneMsgpackValue rmpv data "request data" with
  | error e =>
      rw [hvalue] at h
      cases h
  | ok value =>
      rw [hvalue] at h
      obtain rfl := Except.ok.inj h
      rfl

/-! ## The invariant -/

/-- The ids in the list are the hashes of what was made, uploads are packed requests, packets have
the vectors that were drawn, and no id is there twice. -/
structure Tracked (s : Requester) : Prop where
  accounts : s.ledger.Accounts
  known : ∀ k ∈ s.ledger.keys, ∃ m ∈ s.made, m.uid = k.1 ∧ (c.truncatedHash m.input).1 = k.2
  once : (s.made.map Made.uid).Nodup
  fresh : ∀ m ∈ s.made, m.uid < s.ledger.nextUid
  uploads : ∀ m ∈ s.made, m.uploaded = true → m.input.head? = some 0x93
  packets : ∀ m ∈ s.made, m.uploaded = false →
    ∃ v ∈ s.vectors, PacketInput s.link.linkId v m.input
  distinct : (s.ledger.keys.map Prod.snd).Nodup

theorem tracked_start (link : Link) : Tracked c (.start link) where
  accounts := Ledger.accounts_empty
  known := fun _ h => absurd h List.not_mem_nil
  once := List.nodup_nil
  fresh := fun _ h => absurd h List.not_mem_nil
  uploads := fun _ h => absurd h List.not_mem_nil
  packets := fun _ h => absurd h List.not_mem_nil
  distinct := List.nodup_nil

variable {c rmpv} {s : Requester}

theorem Tracked.matched (h : Tracked c s) : Matched s := by
  have hdistinct : (s.ledger.pending.map PendingRequest.requestId).Nodup :=
    s.ledger.keys_snd ▸ h.distinct
  refine ⟨hdistinct, ?_⟩
  intro p hp
  obtain ⟨q, hq⟩ : ∃ q, s.ledger.pending.find? (Ledger.hasId p.requestId) = some q := by
    apply Option.isSome_iff_exists.mp
    rw [List.find?_isSome]
    exact ⟨p, hp, decide_eq_true rfl⟩
  have hmatch : Ledger.hasId p.requestId q = true := List.find?_some hq
  have hid : q.requestId = p.requestId := of_decide_eq_true hmatch
  have hsame := List.inj_on_of_nodup_map hdistinct (List.mem_of_find?_eq_some hq) hp hid
  rw [hq, hsame]

theorem Tracked.apply (h : Tracked c s) (op : LedgerOp) :
    Tracked c { s with ledger := s.ledger.apply op } where
  accounts := h.accounts.apply op
  known := fun k hk => h.known k ((Ledger.keys_apply op).subset hk)
  once := h.once
  fresh := by
    intro m hm
    show m.uid < (s.ledger.apply op).nextUid
    rw [Ledger.nextUid_apply]
    exact h.fresh m hm
  uploads := h.uploads
  packets := h.packets
  distinct := h.distinct.sublist ((Ledger.keys_apply op).map Prod.snd)

theorem Tracked.link (h : Tracked c s) {link : Link} (hlink : link.linkId = s.link.linkId) :
    Tracked c { s with link := link } where
  accounts := h.accounts
  known := h.known
  once := h.once
  fresh := h.fresh
  uploads := h.uploads
  packets := by
    intro m hm hpacket
    rw [hlink]
    exact h.packets m hm hpacket
  distinct := h.distinct

/-! ## One call -/

theorem keys_push (ledger : Ledger) (requestId : Bytes) (maxResponseSize : Option Nat)
    (started : Bool) :
    (ledger.push requestId maxResponseSize started).keys =
      ledger.keys ++ [(ledger.nextUid, requestId)] := by
  unfold Ledger.keys Ledger.push
  rw [List.map_append]
  rfl

section

variable (h : Tracked c s)

include h

/-- A request whose id no other request in the list has joins it. -/
theorem Tracked.push {input : Bytes} {uploaded : Bool} (max : Option Nat)
    (hnew : ∀ k ∈ s.ledger.keys, k.2 ≠ (c.truncatedHash input).1)
    (hupload : uploaded = true → input.head? = some 0x93)
    (hpacket : uploaded = false → ∃ v ∈ s.vectors, PacketInput s.link.linkId v input) :
    Tracked c (s.push c input uploaded max) where
  accounts := h.accounts.push _ _
  known := by
    intro k hk
    have hkeys : k ∈ (s.ledger.push (c.truncatedHash input).1 max (!uploaded)).keys := hk
    rw [keys_push] at hkeys
    rcases List.mem_append.mp hkeys with hold | hself
    · obtain ⟨m, hm, huid, hid⟩ := h.known k hold
      exact ⟨m, List.mem_append_left _ hm, huid, hid⟩
    · obtain rfl := List.mem_singleton.mp hself
      exact ⟨_, List.mem_append_right _ (List.mem_singleton_self _), rfl, rfl⟩
  once := by
    show ((s.made ++ [_]).map Made.uid).Nodup
    rw [List.map_append, List.map_singleton]
    refine List.nodup_append.mpr ⟨h.once, List.nodup_singleton _, ?_⟩
    intro uid huid uid' huid'
    obtain ⟨m, hm, rfl⟩ := List.mem_map.mp huid
    obtain rfl := List.mem_singleton.mp huid'
    exact Nat.ne_of_lt (h.fresh m hm)
  fresh := by
    intro m hm
    show m.uid < s.ledger.nextUid + 1
    rcases List.mem_append.mp hm with hold | hself
    · exact Nat.lt_succ_of_lt (h.fresh m hold)
    · obtain rfl := List.mem_singleton.mp hself
      exact Nat.lt_succ_self _
  uploads := by
    intro m hm huploaded
    rcases List.mem_append.mp hm with hold | hself
    · exact h.uploads m hold huploaded
    · obtain rfl := List.mem_singleton.mp hself
      exact hupload huploaded
  packets := by
    intro m hm huploaded
    rcases List.mem_append.mp hm with hold | hself
    · exact h.packets m hold huploaded
    · obtain rfl := List.mem_singleton.mp hself
      exact hpacket huploaded
  distinct := by
    show ((s.ledger.push (c.truncatedHash input).1 max (!uploaded)).keys.map Prod.snd).Nodup
    rw [keys_push, List.map_append, List.map_singleton]
    refine List.nodup_append.mpr ⟨h.distinct, List.nodup_singleton _, ?_⟩
    intro id hid id' hid'
    obtain ⟨k, hk, rfl⟩ := List.mem_map.mp hid
    obtain rfl := List.mem_singleton.mp hid'
    exact hnew k hk

/-- A vector is drawn. -/
theorem Tracked.draw (vector : Bytes.Block 16) :
    Tracked c { s with vectors := s.vectors ++ [vector] } where
  accounts := h.accounts
  known := h.known
  once := h.once
  fresh := h.fresh
  uploads := h.uploads
  packets := by
    intro m hm hpacket
    obtain ⟨v, hv, hinput⟩ := h.packets m hm hpacket
    exact ⟨v, List.mem_append_left _ hv, hinput⟩
  distinct := h.distinct

/-- A request that was not sent is numbered only. -/
theorem Tracked.failUnsent :
    Tracked c { s with ledger := s.ledger.failUnsent } where
  accounts := h.accounts.failUnsent
  known := h.known
  once := h.once
  fresh := fun m hm => Nat.lt_succ_of_lt (h.fresh m hm)
  uploads := h.uploads
  packets := h.packets
  distinct := h.distinct

/-- The request in the list with an id is the one whose input has that hash, if hashes do not
collide. -/
theorem Tracked.made_of_key {input : Bytes}
    (hhash : ∀ m ∈ s.made, c.truncatedHash m.input = c.truncatedHash input → m.input = input)
    {k : Nat × Bytes} (hk : k ∈ s.ledger.keys) (hid : k.2 = (c.truncatedHash input).1) :
    ∃ m ∈ s.made, m.uid ∈ s.ledger.pending.map PendingRequest.uid ∧ m.input = input := by
  obtain ⟨m, hm, huid, hmade⟩ := h.known k hk
  refine ⟨m, hm, ?_, hhash m hm (Subtype.ext (hmade.trans hid))⟩
  rw [huid, ← Ledger.keys_fst]
  exact List.mem_map_of_mem hk

/-- A request as a resource, when none in the list was packed to the same bytes. -/
theorem Tracked.upload (max : Option Nat)
    (hpacked : packed.head? = some 0x93)
    (hhash : ∀ m ∈ s.made, c.truncatedHash m.input = c.truncatedHash packed → m.input = packed)
    (hok : ∀ m ∈ s.made, m.uploaded = true →
      m.uid ∈ s.ledger.pending.map PendingRequest.uid → m.input ≠ packed) :
    Tracked c (s.push c packed true max) := by
  refine h.push max ?_ (fun _ => hpacked) (fun hfalse => by cases hfalse)
  intro k hk hid
  obtain ⟨m, hm, huid, hinput⟩ := h.made_of_key hhash hk hid
  cases hm' : m.uploaded with
  | true => exact hok m hm hm' huid hinput
  | false =>
      obtain ⟨v, -, rest, hpacket⟩ := h.packets m hm hm'
      rw [← hinput, hpacket, List.head?_cons] at hpacked
      exact absurd (Option.some.inj hpacked) (by decide)

/-- A request as a packet, whose vector is fresh. -/
theorem Tracked.sendPacket {token plaintext : Bytes}
    (htoken : s.link.encrypt c call.vector plaintext = .ok token)
    (hfresh : call.vector ∉ s.vectors)
    (hhash : ∀ m ∈ s.made, c.truncatedHash m.input =
      c.truncatedHash (requestPacket s.link.linkId token).getHashablePart →
        m.input = (requestPacket s.link.linkId token).getHashablePart) :
    Tracked c (s.sendPacket c call token) := by
  have hinput := packetInput_token c htoken s.link.linkId
  have hdrawn := h.draw call.vector
  unfold Requester.sendPacket
  dsimp only
  split
  · refine hdrawn.push call.maxResponseSize ?_ (fun hfalse => by cases hfalse) fun _ =>
      ⟨call.vector, List.mem_append_right _ (List.mem_singleton_self _), hinput⟩
    intro k hk hid
    obtain ⟨m, hm, -, hsame⟩ := h.made_of_key hhash hk hid
    cases hm' : m.uploaded with
    | true =>
        obtain ⟨rest, hpacket⟩ := hinput
        have hhead := h.uploads m hm hm'
        rw [hsame, hpacket, List.head?_cons] at hhead
        exact absurd (Option.some.inj hhead) (by decide)
    | false =>
        obtain ⟨v, hv, hpacket⟩ := h.packets m hm hm'
        rw [hsame] at hpacket
        exact hfresh (hpacket.vector_inj hinput ▸ hv)
  · exact hdrawn.failUnsent

theorem Tracked.request (hassumed : Assumed c rmpv s (.request call))
    (hok : Unrepeated c rmpv s (.request call)) : Tracked c (s.request c rmpv call) := by
  obtain ⟨hfresh, hhash⟩ := hassumed
  unfold Requester.hashedInput at hhash
  unfold Requester.request
  cases hpacked : packRequest c rmpv call.timestamp call.path call.data with
  | error e => exact h
  | ok packed =>
      rw [hpacked] at hhash
      dsimp only at hhash ⊢
      by_cases hlarge : packed.length > s.link.mdu
      · rw [if_pos hlarge] at hhash ⊢
        split
        · rename_i hhandle
          exact h.upload call.maxResponseSize (head?_packRequest c rmpv hpacked) (hhash packed rfl)
            (hok packed hpacked hlarge hhandle)
        · exact h
      · rw [if_neg hlarge] at hhash ⊢
        cases htoken : s.link.encrypt c call.vector packed with
        | error e => exact h
        | ok token =>
            rw [htoken] at hhash
            exact h.sendPacket htoken hfresh (hhash _ rfl)

theorem Tracked.step {e : RequesterEvent} {s' : Requester} (hassumed : Assumed c rmpv s e)
    (hok : Unrepeated c rmpv s e) (hstep : s.step c rmpv e = some s') : Tracked c s' := by
  cases e with
  | request call =>
      obtain rfl := Option.some.inj hstep
      exact h.request hassumed hok
  | ledger op =>
      obtain rfl := Option.some.inj hstep
      exact h.apply op
  | link link =>
      obtain ⟨hlink, hsome⟩ := Option.ite_none_right_eq_some.mp hstep
      obtain rfl := Option.some.inj hsome
      exact h.link hlink

/-- A request that is repeated has the id of the one in the list. -/
theorem Tracked.not_matched {e : RequesterEvent} {s' : Requester}
    (hrepeated : ¬Unrepeated c rmpv s e) (hstep : s.step c rmpv e = some s') : ¬Matched s' := by
  cases e with
  | request call =>
      obtain rfl := Option.some.inj hstep
      unfold Unrepeated at hrepeated
      push Not at hrepeated
      obtain ⟨packed, hpacked, hlarge, hhandle, m, hm, -, huid, rfl⟩ := hrepeated
      have hpush := request_upload c rmpv hpacked hlarge hhandle
      rw [← Ledger.keys_fst] at huid
      obtain ⟨k, hk, hkey⟩ := List.mem_map.mp huid
      obtain ⟨m', hm', huid', hid⟩ := h.known k hk
      obtain rfl : m' = m := List.inj_on_of_nodup_map h.once hm' hm (huid'.trans hkey)
      intro hmatched
      have hdistinct := hmatched.distinct
      rw [hpush, ← Ledger.keys_snd] at hdistinct
      change ((s.ledger.push (c.truncatedHash m'.input).1 call.maxResponseSize _).keys.map
        Prod.snd).Nodup at hdistinct
      rw [keys_push, List.map_append, List.map_singleton] at hdistinct
      obtain ⟨-, -, hnew⟩ := List.nodup_append.mp hdistinct
      exact hnew k.2 (List.mem_map_of_mem hk) _ (List.mem_singleton_self _) hid.symm
  | ledger op => exact absurd True.intro hrepeated
  | link link => exact absurd True.intro hrepeated

end

/-- In every run in which vectors are fresh and the hash does not collide, the requests in the
list have distinct ids, and are found by them, in every state if and only if no request that goes
as a resource repeats one in the list. -/
theorem requestIds_distinct_iff (c : Crypto) (rmpv : Rmpv V) (link : Link)
    {es : List RequesterEvent}
    (hassumed : Meets (Requester.step c rmpv) (Assumed c rmpv) (.start link) es) :
    Always (Requester.step c rmpv) Matched (.start link) es ↔
      Meets (Requester.step c rmpv) (Unrepeated c rmpv) (.start link) es :=
  always_iff_meets_given (fun _ h => h.matched)
    (fun _ _ _ h hassumed hok hstep => h.step hassumed hok hstep)
    (fun _ _ _ h _ hrepeated hstep => h.not_matched hrepeated hstep) (tracked_start c link) hassumed

/-! ## Two uploads -/

/-- Data that is one value, read and written as it is. -/
def plainRmpv : Rmpv Bytes where
  nil := [0xc0]
  readValue bytes := .ok (bytes, [])
  writeValue bytes := bytes

/-- A request of 432 bytes of data. -/
def uploadCall (timestamp : Nat) : RequestCall where
  timestamp := timestamp
  path := [0x2f]
  data := MessagePack.bin (List.replicate 432 0)
  maxResponseSize := none
  vector := pad 16 []
  sent := true
  hasHandle := true

/-- What it is packed to. -/
def uploadPacked (timestamp : Nat) : Bytes :=
  0x93 :: 0xcb :: (Fields.bigEndian 8 (asF64 timestamp) ++
    MessagePack.bin ((sampleCrypto []).truncatedHash [0x2f]).1 ++
    MessagePack.bin (List.replicate 432 0))

theorem packRequest_plainRmpv {data : Bytes} (h : data ≠ []) (c : Crypto) (timestamp : Nat)
    (path : Bytes) : packRequest c plainRmpv timestamp path data =
      .ok (0x93 :: 0xcb :: (Fields.bigEndian 8 (asF64 timestamp) ++
        MessagePack.bin (c.truncatedHash path).1 ++ data)) := by
  unfold packRequest oneMsgpackValue
  rw [if_neg h]
  rfl

theorem packRequest_uploadCall (timestamp : Nat) :
    packRequest (sampleCrypto []) plainRmpv timestamp [0x2f]
      (MessagePack.bin (List.replicate 432 0)) = .ok (uploadPacked timestamp) := by
  apply packRequest_plainRmpv
  intro hnone
  have hlength := congrArg List.length hnone
  rw [MessagePack.length_bin, List.length_replicate, List.length_nil] at hlength
  omega

theorem length_uploadPacked (timestamp : Nat) : 431 < (uploadPacked timestamp).length := by
  simp only [uploadPacked, List.length_cons, List.length_append, MessagePack.length_bin,
    List.length_replicate]
  omega

theorem uploadPacked_ne : uploadPacked 1 ≠ uploadPacked 2 := by
  intro h
  have hfields := (List.cons.inj (List.cons.inj h).2).2
  rw [List.append_assoc, List.append_assoc] at hfields
  have htimes := (List.append_inj hfields
    ((Fields.length_bigEndian 8 _).trans (Fields.length_bigEndian 8 _).symm)).1
  exact absurd htimes (by decide)

theorem step_uploadCall {s : Requester} (hmdu : s.link.mdu = 431) (timestamp : Nat) :
    s.step (sampleCrypto []) plainRmpv (.request (uploadCall timestamp)) =
      some (s.push (sampleCrypto []) (uploadPacked timestamp) true none) := by
  have hpacked := packRequest_uploadCall timestamp
  have hlarge : (uploadPacked timestamp).length > s.link.mdu := by
    rw [hmdu]
    exact length_uploadPacked timestamp
  have hrequest : s.request (sampleCrypto []) plainRmpv (uploadCall timestamp) =
      s.push (sampleCrypto []) (uploadPacked timestamp) true none :=
    request_upload _ _ hpacked hlarge rfl
  exact congrArg some hrequest

theorem hashedInput_uploadCall {s : Requester} (hmdu : s.link.mdu = 431) (timestamp : Nat) :
    s.hashedInput (sampleCrypto []) plainRmpv (uploadCall timestamp) =
      some (uploadPacked timestamp) := by
  have hpacked := packRequest_uploadCall timestamp
  have hlarge : (uploadPacked timestamp).length > s.link.mdu := by
    rw [hmdu]
    exact length_uploadPacked timestamp
  exact hashedInput_upload (sampleCrypto []) plainRmpv hpacked hlarge

/-- Two uploads on a link that has made no request, and what is assumed of them. -/
theorem assumed_uploads {first second : Nat}
    (hhash : (sampleCrypto []).truncatedHash (uploadPacked first) =
      (sampleCrypto []).truncatedHash (uploadPacked second) →
        uploadPacked first = uploadPacked second) :
    Meets (Requester.step (sampleCrypto []) plainRmpv) (Assumed (sampleCrypto []) plainRmpv)
      (.start (sampleInitiator [])) [.request (uploadCall first), .request (uploadCall second)] := by
  have hmdu : (sampleInitiator []).mdu = 431 := rfl
  intro s hs
  rw [step_uploadCall hmdu] at hs
  obtain rfl := Option.some.inj hs
  refine ⟨⟨List.not_mem_nil, fun _ _ m hm => absurd hm List.not_mem_nil⟩, ?_⟩
  intro s' _
  refine ⟨⟨List.not_mem_nil, ?_⟩, True.intro⟩
  intro input hinput m hm hsame
  rw [hashedInput_uploadCall hmdu] at hinput
  obtain rfl := Option.some.inj hinput
  obtain rfl := List.mem_singleton.mp hm
  exact hhash hsame

theorem requestIds_distinct_iff_seconds :
    Always (Requester.step (sampleCrypto []) plainRmpv) Matched (.start (sampleInitiator []))
      [.request (uploadCall 1), .request (uploadCall 2)] := by
  refine (requestIds_distinct_iff (sampleCrypto []) plainRmpv (sampleInitiator [])
    (assumed_uploads ?_)).mpr ?_
  · intro hhash
    exact absurd hhash (by decide)
  · have hmdu : (sampleInitiator []).mdu = 431 := rfl
    intro s hs
    rw [step_uploadCall hmdu] at hs
    obtain rfl := Option.some.inj hs
    refine ⟨fun _ _ _ _ m hm => absurd hm List.not_mem_nil, ?_⟩
    intro s' _
    refine ⟨?_, True.intro⟩
    intro packed hpacked _ _ m hm _ _
    obtain rfl := Except.ok.inj ((packRequest_uploadCall 2).symm.trans hpacked)
    obtain rfl := List.mem_singleton.mp hm
    exact uploadPacked_ne

/-- Two uploads in the same second, with the same path and data. -/
theorem requestIds_distinct_false : ¬∀ {V : Type} (c : Crypto) (rmpv : Rmpv V) (link : Link)
    (es : List RequesterEvent),
    Meets (Requester.step c rmpv) (Assumed c rmpv) (.start link) es →
      Always (Requester.step c rmpv) Matched (.start link) es := by
  intro h
  have hmdu : (sampleInitiator []).mdu = 431 := rfl
  have halways := h (sampleCrypto []) plainRmpv (sampleInitiator [])
    [.request (uploadCall 1), .request (uploadCall 1)] (assumed_uploads fun _ => rfl)
  have hmatched := halways _ _ (List.prefix_refl _)
    (exec_cons_eq_some.mpr ⟨_, step_uploadCall hmdu 1,
      exec_cons_eq_some.mpr ⟨_, step_uploadCall hmdu 1, rfl⟩⟩)
  have hdistinct := hmatched.distinct
  rw [← Ledger.keys_snd] at hdistinct
  change (List.map Prod.snd (Ledger.keys (Ledger.push (Ledger.push _ _ _ _) _ _ _))).Nodup
    at hdistinct
  rw [keys_push, keys_push] at hdistinct
  simp [Ledger.keys, Requester.start, Ledger.empty] at hdistinct

end Reticulum.Link
