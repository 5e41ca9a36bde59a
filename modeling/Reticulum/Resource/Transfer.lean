import Reticulum.Lib.Runs
import Reticulum.Resource.Frame

/-!
# A transfer between two ends

One sender and one receiver of a resource, and the packets that either has
sent. A packet may arrive any number of times, in any order, or not at all.

## Implementation notes

Packets are never removed from the state, so a run that delivers a packet late,
twice or never is a run here. The receiver's deferred requests
(`requestNext`) and its watchdog may come at any time.
-/

namespace Reticulum.Resource

open Runs

/-- Both ends, and every packet sent so far. -/
structure Transfer where
  sender : Resource
  receiver : Resource
  reqs : List Bytes
  parts : List Bytes
  hmus : List (Nat × Bytes)

instance instLawfulBEqHmu : LawfulBEq (Nat × Bytes) := inferInstance

/-- What happens next: a packet arrives, or the receiver asks for parts. -/
inductive Event
  | request (data : Bytes) (env : Readings)
  | part (data : Bytes) (env : Readings)
  | hmu (segment : Nat) (hashmap : Bytes) (env : Readings)
  | requestNext (env : Readings)
  | watchdog (env : Readings)

/-- The packets among the effects of an operation are sent. -/
def Transfer.emit (t : Transfer) : List Effect → Transfer
  | [] => t
  | .req data :: effects => { t with reqs := t.reqs ++ [data] }.emit effects
  | .part data :: effects => { t with parts := t.parts ++ [data] }.emit effects
  | .hmu segment hashmap :: effects =>
      { t with hmus := t.hmus ++ [(segment, hashmap)] }.emit effects
  | _ :: effects => t.emit effects

/-- A transfer right after the advertisement was accepted. -/
def Transfer.start (sender receiver : Resource) : Transfer :=
  { sender := sender, receiver := receiver, reqs := [], parts := [], hmus := [] }

variable (fullHash : Bytes → Digest)

/-- One event of a transfer. -/
def step (t : Transfer) : Event → Option Transfer
  | .request data env =>
      if data ∈ t.reqs then
        (t.sender.request data env).map fun (sender, effects) =>
          { t with sender := sender }.emit effects
      else none
  | .part data env =>
      if data ∈ t.parts then
        let (receiver, effects, _) := t.receiver.receivePart fullHash data env
        some ({ t with receiver := receiver }.emit effects)
      else none
  | .hmu segment hashmap env =>
      if (segment, hashmap) ∈ t.hmus then
        let (receiver, effects, _) :=
          t.receiver.hashmapUpdatePacket (some (segment, hashmap)) env
        some ({ t with receiver := receiver }.emit effects)
      else none
  | .requestNext env =>
      let (receiver, effects) := t.receiver.requestNext env
      some ({ t with receiver := receiver }.emit effects)
  | .watchdog env =>
      let (receiver, effects) := t.receiver.watchdog env
      some ({ t with receiver := receiver }.emit effects)

/-! ## Packets sent -/

/-- The packets that effects put on the wire. -/
theorem emit_spec (t : Transfer) (effects : List Effect) :
    (t.emit effects).sender = t.sender ∧ (t.emit effects).receiver = t.receiver ∧
      (∀ data, data ∈ (t.emit effects).reqs ↔ data ∈ t.reqs ∨ .req data ∈ effects) ∧
      (∀ data, data ∈ (t.emit effects).parts ↔ data ∈ t.parts ∨ .part data ∈ effects) ∧
      ∀ segment hashmap, (segment, hashmap) ∈ (t.emit effects).hmus ↔
        (segment, hashmap) ∈ t.hmus ∨ .hmu segment hashmap ∈ effects := by
  induction effects generalizing t with
  | nil => simp [Transfer.emit]
  | cons e effects ih =>
      cases e <;> simp only [Transfer.emit, ih] <;> simp [or_assoc]

/-! ## The operations, as far as a transfer sees them -/

/-- The data and the map hash of every packet. -/
def names (r : Resource) : List (Bytes × MapHash) :=
  r.packets.map fun packet => (packet.data, packet.mapHash)

/-- Two resources that name the same parts. -/
structure SameNames (r r' : Resource) : Prop where
  parts : r'.parts = r.parts
  names : r'.names = r.names
  hashmap : r'.hashmap = r.hashmap
  hashmapHeight : r'.hashmapHeight = r.hashmapHeight

theorem SameMap.sameNames {r r' : Resource} (h : SameMap r r') : SameNames r r' :=
  ⟨h.parts, by rw [Resource.names, h.packets]; rfl, h.hashmap, h.hashmapHeight⟩

theorem SameNames.trans {r r' r'' : Resource} (h : SameNames r r') (h' : SameNames r' r'') :
    SameNames r r'' :=
  ⟨h'.parts.trans h.parts, h'.names.trans h.names, h'.hashmap.trans h.hashmap,
    h'.hashmapHeight.trans h.hashmapHeight⟩

variable (r : Resource)

theorem sendParts_sameNames (mapHashes : List MapHash) (env : Readings) :
    SameNames r (r.sendParts mapHashes env).1 := by
  refine ⟨rfl, ?_, rfl, rfl⟩
  simp only [Resource.names, sendParts]
  apply List.ext_getElem?
  intro i
  simp only [List.getElem?_map, List.getElem?_mapIdx, Option.map_map]
  cases r.packets[i]? with
  | none => rfl
  | some packet =>
      simp only [Option.map_some, Function.comp_apply]
      split <;> rfl

/-- A hashmap update: the segment after the last hash that the request names. -/
def AnswersHashmap (r : Resource) (last : MapHash) (e : Effect) : Prop :=
  ∃ lastIndex, lastPosition last (r.packets.map PartPacket.mapHash) = some lastIndex ∧
    nextSegmentAfter lastIndex < r.hashmapHeight ∧
    e = .hmu (nextSegmentAfter lastIndex)
      (Bytes.ofBlocks (hashmapSegment r.hashmap (nextSegmentAfter lastIndex) r.parts.length))

/-- An answer to a request carries parts with a requested hash, or one segment
of the hashmap. -/
def Answers (r : Resource) (data : Bytes) (e : Effect) : Prop :=
  (∃ packet ∈ r.packets, e = .part packet.data ∧ packet.mapHash ∈ requestedHashes data) ∨
  data.head? = some hashmapIsExhausted ∧ AnswersHashmap r (lastMapHash data) e

theorem SameNames.mapHashes {r r' : Resource} (h : SameNames r r') :
    r'.packets.map PartPacket.mapHash = r.packets.map PartPacket.mapHash := by
  have hnames := congrArg (List.map Prod.snd) h.names
  simpa [Resource.names, Function.comp_def] using hnames

theorem SameNames.answersHashmap {r r' : Resource} (h : SameNames r r') {last : MapHash}
    {e : Effect} (he : AnswersHashmap r' last e) : AnswersHashmap r last e := by
  simpa only [AnswersHashmap, h.mapHashes, h.hashmapHeight, h.hashmap, h.parts] using he

theorem noteReceiverHeight_sameMap (lastIndex : Nat) :
    SameMap r (r.noteReceiverHeight lastIndex) := ⟨rfl, rfl, rfl, rfl, rfl, rfl⟩

theorem answerHashmap_spec (last : MapHash) (env : Readings) :
    SameMap r (r.answerHashmap last env).1 ∧
      ∀ e ∈ (r.answerHashmap last env).2.1, e.isPacket = true → AnswersHashmap r last e := by
  have hcancel : ∀ r' : Resource, ∀ e ∈ (r'.cancel env).2, e.isPacket = true →
      AnswersHashmap r last e := by
    intro r' e he hpacket
    rw [cancel_effects r' env e he] at hpacket
    cases hpacket
  unfold answerHashmap
  split
  · exact ⟨cancel_sameMap r env, hcancel r⟩
  · rename_i lastIndex hlast
    have hnote := noteReceiverHeight_sameMap r lastIndex
    dsimp only
    split
    · exact ⟨hnote, by simp⟩
    · rename_i hsegment
      split
      · refine ⟨hnote, fun e he _ => ⟨lastIndex, hlast, Nat.not_le.mp hsegment, ?_⟩⟩
        exact List.mem_singleton.mp he
      · exact ⟨hnote.trans (cancel_sameMap _ env), hcancel _⟩

/-- The parts that `request` sends have a requested hash. -/
theorem sendParts_answers {r r' : Resource} (hpackets : r'.packets = r.packets) (data : Bytes)
    (env : Readings) : ∀ e ∈ (r'.sendParts (requestedHashes data) env).2, Answers r data e := by
  intro e he
  simp only [sendParts, List.mem_map, List.mem_filter, decide_eq_true_eq] at he
  obtain ⟨packet, ⟨hpacket, hasked⟩, rfl⟩ := he
  exact .inl ⟨packet, hpackets ▸ hpacket, rfl, hasked⟩

/-- `request` names the same parts and sends only answers. -/
theorem request_spec {r r' : Resource} {data : Bytes} {env : Readings} {effects : List Effect}
    (h : r.request data env = some (r', effects)) :
    SameNames r r' ∧ ∀ e ∈ effects, e.isPacket = true → Answers r data e := by
  have hbegin : SameNames r r.beginRequest := ⟨rfl, rfl, rfl, rfl⟩
  have hsame : SameNames r (r.beginRequest.sendParts (requestedHashes data) env).1 :=
    hbegin.trans (sendParts_sameNames _ _ env)
  have hpackets : r.beginRequest.packets = r.packets := rfl
  have hparts := sendParts_answers hpackets data env
  unfold request at h
  split at h
  · obtain ⟨rfl, rfl⟩ : r = r' ∧ [] = effects := by simpa using h
    exact ⟨(SameMap.refl r).sameNames, by simp⟩
  split at h
  · cases h
  generalize r.beginRequest.sendParts (requestedHashes data) env = sent at h hsame hparts
  obtain ⟨r₁, parts⟩ := sent
  dsimp only at h hsame hparts
  split at h
  · rename_i hflag
    obtain ⟨hmap, hhmu⟩ := answerHashmap_spec r₁ (lastMapHash data) env
    generalize r₁.answerHashmap (lastMapHash data) env = answer at h hmap hhmu
    obtain ⟨r₂, effects₂, goesOn⟩ := answer
    dsimp only at h hmap hhmu
    obtain ⟨rfl, rfl⟩ : (if goesOn then r₂.awaitProof else r₂) = r' ∧
        parts ++ effects₂ = effects := by simpa using h
    constructor
    · refine hsame.trans (SameMap.sameNames ?_)
      split
      · exact hmap.trans (awaitProof_sameMap r₂)
      · exact hmap
    · intro e he hpacket
      rcases List.mem_append.mp he with he | he
      · exact hparts e he
      · exact .inr ⟨hflag, hsame.answersHashmap (hhmu e he hpacket)⟩
  · obtain ⟨rfl, rfl⟩ : r₁.awaitProof = r' ∧ parts = effects := by simpa using h
    exact ⟨hsame.trans (awaitProof_sameMap r₁).sameNames, fun e he _ => hparts e he⟩

/-- The hashes that a scan of the window collects are known hashes. -/
theorem scanWindow_hashes (fuel pn outstanding : Nat) :
    ∀ h ∈ (r.scanWindow fuel pn outstanding).1, h ≠ zeroHash := by
  induction fuel generalizing pn outstanding with
  | zero => simp [scanWindow]
  | succ fuel ih =>
      intro h hh
      unfold scanWindow at hh
      split at hh
      · simp at hh
      · split at hh
        · simp at hh
        · exact ih (pn + 1) outstanding h hh
      · dsimp only at hh
        split at hh
        · simp at hh
        · rename_i hne
          split at hh
          · rw [List.mem_singleton.mp hh]
            exact hne
          · rcases List.mem_cons.mp hh with rfl | hh
            · exact hne
            · exact ih (pn + 1) (outstanding + 1) h hh

theorem requestedHashes_plain (hash : Digest) (hashes : List MapHash) :
    requestedHashes (hashmapIsNotExhausted :: hash.1 ++ Bytes.ofBlocks hashes) = hashes := by
  have hoffset : (hashmapIsNotExhausted :: hash.1).length =
      hashesOffset (hashmapIsNotExhausted :: hash.1 ++ Bytes.ofBlocks hashes) := by
    rw [List.length_cons, hash.2]
    rfl
  rw [requestedHashes, List.drop_left' hoffset, Bytes.blocks4_ofBlocks]

theorem requestedHashes_flagged (last : MapHash) (hash : Digest) (hashes : List MapHash) :
    requestedHashes (hashmapIsExhausted :: last.1 ++ (hash.1 ++ Bytes.ofBlocks hashes)) =
      hashes := by
  have hoffset : (hashmapIsExhausted :: last.1 ++ hash.1).length = hashesOffset
      (hashmapIsExhausted :: last.1 ++ hash.1 ++ Bytes.ofBlocks hashes) := by
    rw [List.length_append, List.length_cons, last.2, hash.2]
    rfl
  rw [← List.append_assoc, requestedHashes, List.drop_left' hoffset, Bytes.blocks4_ofBlocks]

/-- Without a known last hash, the first requested hash is read as one. -/
theorem requestedHashes_unknown (hash : Digest) (hashes : List MapHash) :
    requestedHashes (hashmapIsExhausted :: (hash.1 ++ Bytes.ofBlocks hashes)) = hashes.tail := by
  cases hashes with
  | nil =>
      have hoffset : (hashmapIsExhausted :: hash.1).length ≤
          hashesOffset (hashmapIsExhausted :: hash.1) := by
        rw [List.length_cons, hash.2]
        exact Nat.le_add_right 33 4
      rw [Bytes.ofBlocks_nil, List.append_nil, requestedHashes, List.drop_of_length_le hoffset]
      rfl
  | cons h hashes =>
      have hoffset : (hashmapIsExhausted :: hash.1 ++ h.1).length = hashesOffset
          (hashmapIsExhausted :: hash.1 ++ h.1 ++ Bytes.ofBlocks hashes) := by
        rw [List.length_append, List.length_cons, h.2, hash.2]
        rfl
      rw [Bytes.ofBlocks_cons, ← List.cons_append, ← List.append_assoc, requestedHashes,
        List.drop_left' hoffset, Bytes.blocks4_ofBlocks]
      rfl

/-- A request asks for known hashes only. -/
theorem prepareRequestNextData_hashes {r : Resource} {data : Bytes}
    (h : r.prepareRequestNextData.2 = some data) : ∀ x ∈ requestedHashes data, x ≠ zeroHash := by
  have hscan := scanWindow_hashes r r.window r.searchStart 0
  unfold prepareRequestNextData at h
  split at h
  · cases h
  · dsimp only at h
    split at h
    · split at h
      · obtain rfl := Option.some.inj h
        rw [requestedHashes_flagged]
        exact hscan
      · obtain rfl := Option.some.inj h
        rw [requestedHashes_unknown]
        exact fun x hx => hscan x (List.mem_of_mem_tail hx)
    · obtain rfl := Option.some.inj h
      rw [← List.cons_append, requestedHashes_plain]
      exact hscan

/-! ## Storing parts and hashes -/

theorem storeMatches_sameMap (partHash : MapHash) (data : Bytes) (hashes : List MapHash) (i : Nat)
    (r : Resource) :
    (storeMatches partHash data hashes i r).hashmap = r.hashmap ∧
      (storeMatches partHash data hashes i r).hashmapHeight = r.hashmapHeight ∧
      (storeMatches partHash data hashes i r).randomHash = r.randomHash ∧
      (storeMatches partHash data hashes i r).parts.length = r.parts.length := by
  induction hashes generalizing i r with
  | nil => exact ⟨rfl, rfl, rfl, rfl⟩
  | cons h hashes ih =>
      rw [storeMatches]
      split
      · obtain ⟨h₁, h₂, h₃, h₄⟩ := ih (i + 1) (r.storePart i data)
        exact ⟨h₁, h₂, h₃, by rw [h₄]; simp [storePart]⟩
      · exact ih (i + 1) r

/-- A slot that the loop fills has the hash of the part. -/
theorem storeMatches_parts {partHash : MapHash} {data : Bytes} {hashes : List MapHash} {i j : Nat}
    {r : Resource} {part : Bytes}
    (h : (storeMatches partHash data hashes i r).parts[j]? = some (some part)) :
    r.parts[j]? = some (some part) ∨
      part = data ∧ i ≤ j ∧ hashes[j - i]? = some partHash := by
  induction hashes generalizing i r with
  | nil => exact .inl h
  | cons x hashes ih =>
      rw [storeMatches] at h
      rcases ih h with hold | ⟨rfl, hij, hget⟩
      · split at hold
        · rename_i hmatch
          simp only [storePart, List.getElem?_set] at hold
          split at hold
          · rename_i hij
            have hpart : part = data := by
              split at hold <;> simp_all
            subst hij
            exact .inr ⟨hpart, Nat.le_refl i, by simp [hmatch.1]⟩
          · exact .inl hold
        · exact .inl hold
      · right
        refine ⟨rfl, by omega, ?_⟩
        rw [show j - i = (j - (i + 1)) + 1 by omega, List.getElem?_cons_succ]
        exact hget

theorem beginPart_sameMap (env : Readings) : SameMap r (r.beginPart env) := by
  have hretries : SameMap r { r with retriesLeft := r.maxRetries } :=
    ⟨rfl, rfl, rfl, rfl, rfl, rfl⟩
  exact hretries.trans (firstResponse_sameMap _ env)

theorem startAssembly_sameMap : SameMap r r.startAssembly :=
  ⟨rfl, rfl, rfl, rfl, rfl, rfl⟩

/-- The hashmap is kept, and a slot that is filled has the hash of the part. -/
structure Stored (r : Resource) (data : Bytes) (r' : Resource) : Prop where
  hashmap : r'.hashmap = r.hashmap
  hashmapHeight : r'.hashmapHeight = r.hashmapHeight
  randomHash : r'.randomHash = r.randomHash
  length : r'.parts.length = r.parts.length
  slot : ∀ (j : Nat) (part : Bytes), r'.parts[j]? = some (some part) →
    r.parts[j]? = some (some part) ∨
      part = data ∧ r.hashmap[j]? = some (r.getMapHash fullHash data)

theorem SameMap.stored {r r' : Resource} (h : SameMap r r') (data : Bytes) :
    Stored fullHash r data r' :=
  ⟨h.hashmap, h.hashmapHeight, h.randomHash, by rw [h.parts],
    fun j part hpart => .inl (h.parts ▸ hpart)⟩

theorem hashmapChunks_get {r : Resource} {start count j : Nat} {h : MapHash} (hle : start ≤ j)
    (hget : (r.hashmapChunks start count)[j - start]? = some h) : r.hashmap[j]? = some h := by
  rw [hashmapChunks, List.getElem?_take] at hget
  split at hget
  · rwa [List.getElem?_drop, Nat.add_sub_cancel' hle] at hget
  · cases hget

theorem storeInWindow_stored (data : Bytes) :
    Stored fullHash r data (r.storeInWindow fullHash data) := by
  obtain ⟨hmap, hheight, hsalt, hlength⟩ := storeMatches_sameMap
    (r.getMapHash fullHash data) data (r.hashmapChunks r.searchStart r.window)
    r.searchStart { r with status := .transferring }
  refine ⟨hmap, hheight, hsalt, hlength, fun j part hpart => ?_⟩
  rcases storeMatches_parts hpart with hold | ⟨rfl, hle, hget⟩
  · exact .inl hold
  · exact .inr ⟨rfl, hashmapChunks_get hle hget⟩

theorem Stored.trans {r r₁ r₂ r₃ : Resource} {data : Bytes} (h : SameMap r r₁)
    (h' : Stored fullHash r₁ data r₂) (h'' : SameMap r₂ r₃) : Stored fullHash r data r₃ := by
  refine ⟨h''.hashmap.trans (h'.hashmap.trans h.hashmap),
    h''.hashmapHeight.trans (h'.hashmapHeight.trans h.hashmapHeight),
    h''.randomHash.trans (h'.randomHash.trans h.randomHash), ?_, fun j part hpart => ?_⟩
  · rw [h''.parts, h'.length, h.parts]
  · rw [h''.parts] at hpart
    have hslot := h'.slot j part hpart
    rwa [h.parts, h.hashmap, getMapHash, h.randomHash] at hslot

/-- `receive_part` only stores the part, and sends no packet. -/
theorem receivePart_spec (data : Bytes) (env : Readings) :
    Stored fullHash r data (r.receivePart fullHash data env).1 ∧
      ∀ e ∈ (r.receivePart fullHash data env).2.1, e.isPacket = false := by
  have hbegin := beginPart_sameMap r env
  have hstore := storeInWindow_stored fullHash (r.beginPart env) data
  unfold receivePart
  dsimp only
  split
  · exact ⟨hbegin.stored fullHash data, by simp⟩
  split
  · refine ⟨Stored.trans fullHash hbegin hstore (startAssembly_sameMap _), fun e he => ?_⟩
    rw [List.mem_singleton.mp he]
    rfl
  split
  · have hwindow := (growWindow_sameMap ((r.beginPart env).storeInWindow fullHash data)).trans
      (measureRate_sameMap _ env)
    exact ⟨Stored.trans fullHash hbegin hstore hwindow, by simp⟩
  · exact ⟨Stored.trans fullHash hbegin hstore (SameMap.refl _), by simp⟩

/-- The receiver's hashmap after an update is the old one, or the old one with
the update written into it. -/
theorem hashmapUpdatePacket_spec (segment : Nat) (hashmap : Bytes) (env : Readings) :
    let r' := (r.hashmapUpdatePacket (some (segment, hashmap)) env).1
    r'.parts = r.parts ∧ r'.randomHash = r.randomHash ∧
      ((r'.hashmap, r'.hashmapHeight) = (r.hashmap, r.hashmapHeight) ∨
        (r'.hashmap, r'.hashmapHeight) = writeHashes (Bytes.blocks4 hashmap)
          (segment * hashmapMaxLen) (r.hashmap, r.hashmapHeight)) ∧
      ∀ e ∈ (r.hashmapUpdatePacket (some (segment, hashmap)) env).2.1, e.isPacket = false := by
  unfold hashmapUpdatePacket
  dsimp only
  split
  · unfold hashmapUpdate
    dsimp only
    split
    · exact ⟨rfl, rfl, .inl rfl, by simp⟩
    · split
      · have hsame := cancel_sameMap ({ r with retriesLeft := r.maxRetries }.fillHashmap
          segment (Bytes.blocks4 hashmap)) env
        refine ⟨hsame.parts, hsame.randomHash, .inr ?_, cancel_effects _ env⟩
        rw [hsame.hashmap, hsame.hashmapHeight]
        rfl
      · exact ⟨rfl, rfl, .inr rfl, by simp⟩
  · exact ⟨rfl, rfl, .inl rfl, by simp⟩

end Reticulum.Resource
