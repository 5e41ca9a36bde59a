import Reticulum.Destination.Ratchets
import Reticulum.Link.Rejection

/-!
# Announces that a destination builds

`announce` and `generate_announce_data` (`src/destination.rs`), with what the nodes
that receive the announce read of it: `validate_announce` (`src/identity.rs`) and
`extract_announce_app_data` and `extract_announce_ratchet` (`src/transport.rs`). The
context flag of an announce says whether its data has a ratchet. `announce` takes it
from the ratchets of the moment, and the data of a path response may have been built
before: `announce_run` says when the two go together.

## Implementation notes

What is cached under a tag is kept beside the destination as what it was built of. The
ratchet that the destination remembers of itself and the interface of the announce
are left out, and `announce` returns the packet that it would send.
-/

namespace Reticulum

def prTagWindow : Nat := 30

/-- The last five bytes of a time in seconds, high byte first. -/
def timestampBytes (now : Nat) : Bytes :=
  [UInt8.ofNat (now / 4294967296), UInt8.ofNat (now / 16777216), UInt8.ofNat (now / 65536),
    UInt8.ofNat (now / 256), UInt8.ofNat now]

/-- What an identity signs of an announce. -/
def Identity.announceSigned (identity : Identity)
    (hash nameHash randomHash ratchet appData : Bytes) : Bytes :=
  hash ++ identity.publicKey.1 ++ nameHash ++ randomHash ++ ratchet ++ appData

/-- The data of an announce. -/
def Identity.announceData (identity : Identity)
    (hash nameHash randomHash ratchet appData : Bytes) : Bytes :=
  identity.publicKey.1 ++ nameHash ++ randomHash ++ ratchet ++
    (identity.sign (identity.announceSigned hash nameHash randomHash ratchet appData)).1 ++ appData

namespace Destination

/-- The public key of a ratchet as an announce has it: nothing without one. -/
def ratchetBytes (c : Crypto) : Option Bytes → Bytes
  | some ratchet => (c.publicKey ratchet).1
  | none => []

/-- The application data of an announce. -/
def announceAppData (d : Destination) (appData : Option Bytes) : Bytes :=
  (appData.or d.defaultAppData).getD []

/-- The announce data is cached under a tag. -/
def cachePathResponse (d : Destination) (tag : Option Bytes) (cached : Nat × Bytes) : Destination :=
  match tag with
  | none => d
  | some tag => { d with pathResponses := d.pathResponses.insert tag cached }

/-- `generate_announce_data`, with the first five bytes of the random hash. -/
def generateAnnounceData (c : Crypto) (d : Destination) (cell : RatchetCell)
    (appData : Option Bytes) (now : Nat) (tag : Option Bytes) (key : Bytes) (writes : Bool)
    (random : Bytes.Block 5) : Except String Bytes × Destination × RatchetCell :=
  let announceAppData := d.announceAppData appData
  match d.rotateForAnnounce cell now key writes with
  | (.error e, d, cell) => (.error e, d, cell)
  | (.ok ratchet, d, cell) =>
      match d.identity with
      | none => (.error "Cannot announce destination without identity", d, cell)
      | some identity =>
          let announceData := identity.announceData d.hash d.nameHash
            (random.1 ++ timestampBytes now) (ratchetBytes c ratchet) announceAppData
          (.ok announceData, d.cachePathResponse tag (now, announceData), cell)

/-- The path responses that are not stale. The age of one from the future wraps to a large
number. -/
def freshPathResponses (d : Destination) (now : Nat) : Transport.Table (Nat × Bytes) := fun tag =>
  (d.pathResponses tag).filter fun cached => cached.1 ≤ now && now - cached.1 < prTagWindow

/-- The context flag of an announce. -/
def announceFlag (d : Destination) : UInt8 :=
  if (d.ratchets.getD []).isEmpty then 0 else Transport.flagSet

/-- `announce`, with how the destination would encrypt. -/
def announce (c : Crypto) (encrypt : Bytes → Except String Bytes) (d : Destination)
    (cell : RatchetCell) (appData : Option Bytes) (pathResponse : Bool) (tag : Option Bytes)
    (now : Nat) (key : Bytes) (writes : Bool) (random : Bytes.Block 5) :
    Except String Wire.Packet × Destination × RatchetCell :=
  if d.destType ≠ .single then
    (.error "Only SINGLE destination types can be announced", d, cell)
  else if d.direction ≠ .inbound then
    (.error "Only IN destination types can be announced", d, cell)
  else
    let d := { d with pathResponses := d.freshPathResponses now }
    let cached := if pathResponse then tag.bind d.pathResponses else none
    let generated := match cached with
      | some cached => (Except.ok cached.2, d, cell)
      | none => d.generateAnnounceData c cell appData now tag key writes random
    match generated with
    | (.error e, d, cell) => (.error e, d, cell)
    | (.ok announceData, d, cell) =>
        if d.identity.isNone then (.error "Cannot announce destination without identity", d, cell)
        else
          let context := if pathResponse then Transport.pathResponse else 0
          let destination : Wire.Destination :=
            { hash := d.hash, destType := d.destType, mtu := none, encrypt := encrypt }
          (.ok (Wire.Packet.new destination announceData Wire.announce context Transport.broadcast Wire.header1 none
            d.announceFlag), d, cell)

end Destination

/-! ## What is read of the data -/

theorem slice_append {pre field rest : Bytes} {start length : Nat} (hstart : pre.length = start)
    (hlength : field.length = length) :
    Transport.slice (pre ++ field ++ rest) start length = field := by
  subst hstart hlength
  simp [Transport.slice]

theorem drop_append {pre rest : Bytes} {start : Nat} (hstart : pre.length = start) :
    (pre ++ rest).drop start = rest := by
  subst hstart
  exact List.drop_left

section Layout

variable {c : Crypto} {identity : Identity} {hash nameHash randomHash ratchet appData : Bytes}
  {flag : UInt8}

/-- The lengths of the fields that depend on nothing but the context flag. -/
structure FieldLengths (flag : UInt8) (nameHash randomHash ratchet : Bytes) : Prop where
  nameHash : nameHash.length = Transport.nameHashLen
  randomHash : randomHash.length = Transport.randomLen
  ratchet : ratchet.length = Transport.ratchetLen flag

/-- What stands before the signature. -/
def Identity.announceHead (identity : Identity) (nameHash randomHash ratchet : Bytes) : Bytes :=
  identity.publicKey.1 ++ nameHash ++ randomHash ++ ratchet

variable (identity) in
theorem FieldLengths.head (h : FieldLengths flag nameHash randomHash ratchet) :
    (identity.announceHead nameHash randomHash ratchet).length = Transport.signatureStart flag := by
  have hkey : identity.publicKey.1.length = Transport.keyLen := identity.publicKey.2
  unfold Identity.announceHead Transport.signatureStart
  rw [List.length_append, List.length_append, List.length_append, hkey, h.nameHash, h.randomHash,
    h.ratchet]

variable (identity hash nameHash randomHash ratchet appData) in
theorem Identity.take_announceData :
    (identity.announceData hash nameHash randomHash ratchet appData).take Transport.keyLen =
      identity.publicKey.1 := by
  have hkey : identity.publicKey.1.length = Transport.keyLen := identity.publicKey.2
  unfold Identity.announceData
  simp only [List.append_assoc]
  rw [← hkey]
  exact List.take_left

section

variable (h : FieldLengths flag nameHash randomHash ratchet)

include h

theorem FieldLengths.drop_appData :
    (identity.announceData hash nameHash randomHash ratchet appData).drop
      (Transport.signatureStart flag + Transport.signatureLen) = appData := by
  apply drop_append
  have hsignature := (identity.sign
    (identity.announceSigned hash nameHash randomHash ratchet appData)).2
  rw [List.length_append, hsignature]
  exact congrArg (· + 64) (h.head identity)

theorem FieldLengths.slice_signature :
    Transport.slice (identity.announceData hash nameHash randomHash ratchet appData)
        (Transport.signatureStart flag) Transport.signatureLen =
      (identity.sign (identity.announceSigned hash nameHash randomHash ratchet appData)).1 :=
  slice_append (h.head identity) (identity.sign _).2

theorem FieldLengths.slice_nameHash :
    Transport.slice (identity.announceData hash nameHash randomHash ratchet appData)
      Transport.keyLen Transport.nameHashLen = nameHash := by
  unfold Identity.announceData
  rw [List.append_assoc _ randomHash, List.append_assoc _ (randomHash ++ ratchet),
    List.append_assoc _ _ appData]
  exact slice_append identity.publicKey.2 h.nameHash

theorem FieldLengths.slice_randomHash :
    Transport.slice (identity.announceData hash nameHash randomHash ratchet appData)
      (Transport.keyLen + Transport.nameHashLen) Transport.randomLen = randomHash := by
  unfold Identity.announceData
  rw [List.append_assoc _ ratchet, List.append_assoc _ _ appData]
  refine slice_append ?_ h.randomHash
  rw [List.length_append, h.nameHash]
  exact congrArg (· + Transport.nameHashLen) identity.publicKey.2

end

variable (identity hash appData) in
theorem FieldLengths.slice_ratchet (h : FieldLengths flag nameHash randomHash ratchet) :
    Transport.slice (identity.announceData hash nameHash randomHash ratchet appData)
      (Transport.keyLen + Transport.nameHashLen + Transport.randomLen) (Transport.ratchetLen flag) =
      ratchet := by
  unfold Identity.announceData
  rw [List.append_assoc _ _ appData]
  refine slice_append ?_ h.ratchet
  rw [List.length_append, List.length_append, h.nameHash, h.randomHash]
  exact congrArg (· + Transport.nameHashLen + Transport.randomLen) identity.publicKey.2

/-- What the receiver checks the signature of is what was signed. -/
theorem FieldLengths.signed (h : FieldLengths flag nameHash randomHash ratchet) :
    Transport.announceSignedData
        (identity.announceData hash nameHash randomHash ratchet appData) hash flag =
      identity.announceSigned hash nameHash randomHash ratchet appData := by
  unfold Transport.announceSignedData Identity.announceSigned
  rw [identity.take_announceData, h.slice_nameHash, h.slice_randomHash, h.slice_ratchet,
    h.drop_appData]

variable (identity hash appData) in
theorem FieldLengths.length (h : FieldLengths flag nameHash randomHash ratchet) :
    (identity.announceData hash nameHash randomHash ratchet appData).length =
      Transport.signatureStart flag + Transport.signatureLen + appData.length := by
  have hsignature := (identity.sign
    (identity.announceSigned hash nameHash randomHash ratchet appData)).2
  have hhead := h.head identity
  unfold Identity.announceHead at hhead
  unfold Identity.announceData
  rw [List.length_append, List.length_append, hhead, hsignature]
  rfl

/-- The signatures of an identity verify. -/
structure Identity.Verifies (c : Crypto) (identity : Identity) : Prop where
  key : c.isVerifyingKey (Transport.slice identity.publicKey.1 32 32) = true
  sign : ∀ data, c.verify (Transport.slice identity.publicKey.1 32 32) (identity.sign data).1 data =
    true

/-- An announce with the context flag of its ratchet is valid. -/
theorem FieldLengths.valid (h : FieldLengths flag nameHash randomHash ratchet)
    (hverifies : identity.Verifies c)
    (hhash : hash = (c.truncatedHash (nameHash ++ (c.truncatedHash identity.publicKey.1).1)).1) :
    let data := identity.announceData hash nameHash randomHash ratchet appData
    Transport.validateAnnounce c data (some hash) (some (data.take Transport.keyLen)) flag = true := by
  have hlength := h.length identity hash appData
  have hstart : Transport.keyLen + Transport.nameHashLen + Transport.randomLen ≤
      Transport.signatureStart flag := Nat.le_add_right _ _
  have hkey : identity.publicKey.1.length = Transport.keyLen := identity.publicKey.2
  dsimp only
  unfold Transport.validateAnnounce
  rw [if_neg (by omega)]
  dsimp only
  rw [identity.take_announceData, if_neg (not_not_intro hkey), if_neg (by omega), hverifies.key,
    h.slice_signature, h.signed, hverifies.sign, h.slice_nameHash, ← hhash]
  simp

/-- The application data is read back. -/
theorem FieldLengths.extract_appData (h : FieldLengths flag nameHash randomHash ratchet)
    {p : Wire.Packet} (hflag : p.contextFlag = flag)
    (hdata : p.data = identity.announceData hash nameHash randomHash ratchet appData) :
    Transport.extractAnnounceAppData p = if appData.isEmpty then none else some appData := by
  have hlength := h.length identity hash appData
  unfold Transport.extractAnnounceAppData
  dsimp only
  rw [hflag, hdata, hlength, h.drop_appData]
  cases appData with
  | nil => exact if_pos le_rfl
  | cons first rest =>
      refine if_neg ?_
      rw [List.length_cons]
      omega

/-- The ratchet is read back. -/
theorem FieldLengths.extract_ratchet
    (h : FieldLengths Transport.flagSet nameHash randomHash ratchet) {p : Wire.Packet}
    (hflag : p.contextFlag = Transport.flagSet)
    (hdata : p.data = identity.announceData hash nameHash randomHash ratchet appData) :
    Transport.extractAnnounceRatchet p = some ratchet := by
  have hlength := h.length identity hash appData
  have hslice := h.slice_ratchet identity hash appData
  unfold Transport.extractAnnounceRatchet
  dsimp only
  rw [if_neg (not_not_intro hflag), hdata, hlength, if_neg]
  · exact congrArg some hslice
  · unfold Transport.signatureStart Transport.ratchetLen
    rw [if_pos rfl]
    omega

end Layout

/-! ## Announces in a row -/

/-- What the data of an announce was built of: a ratchet, if any, and the application data. -/
structure BuiltFrom where
  ratchet : Option Bytes
  appData : Bytes

/-- A packet that `announce` returned, with the application data that was used for it and the
ratchets that the destination has then. -/
structure Returned where
  packet : Wire.Packet
  appData : Bytes
  ratchets : List Bytes

/-- A destination that announces, what its cached data was built of, and the packets that were
returned, the latest first. -/
structure Announcer where
  destination : Destination
  cell : RatchetCell
  built : Bytes → BuiltFrom
  returned : List Returned

/-- What can happen between announces; `others` is what the other clones did. -/
inductive AnnouncerEvent
  | announce (appData : Option Bytes) (pathResponse : Bool) (tag : Option Bytes) (now : Nat)
      (key : Bytes) (writes : Bool) (random : Bytes.Block 5)
  | rotate (now : Nat) (key : Bytes) (writes : Bool)
  | enable (path : String) (read : RatchetRead) (writes : Bool)
  | decrypt (opens : List Bytes → Bool) (read : RatchetRead) (writes : Bool)
  | freeze (frozen : Bool)
  | setDefaultAppData (appData : Option Bytes)
  | others (cell : RatchetCell)

/-- The tag from whose cached data an announce is answered. -/
def Destination.answeredTag (d : Destination) (pathResponse : Bool) (tag : Option Bytes) (now : Nat) :
    Option Bytes :=
  if pathResponse then tag.filter fun tag => (d.freshPathResponses now tag).isSome else none

namespace Announcer

/-- What is built is remembered under its tag. -/
def builtUnder (built : Bytes → BuiltFrom) (tag : Option Bytes) (from_ : BuiltFrom) :
    Bytes → BuiltFrom :=
  match tag with
  | none => built
  | some tag => Function.update built tag from_

/-- The announcer after an event. -/
def step (c : Crypto) (encrypt : Bytes → Except String Bytes) (w : Announcer) :
    AnnouncerEvent → Option Announcer
  | .announce appData pathResponse tag now key writes random =>
      let result := w.destination.announce c encrypt w.cell appData pathResponse tag now key writes
        random
      match result.1 with
      | .error _ => some { w with destination := result.2.1, cell := result.2.2 }
      | .ok packet =>
          let ratchets := result.2.1.ratchets.getD []
          let from_ := match w.destination.answeredTag pathResponse tag now with
            | some tag => w.built tag
            | none =>
                { ratchet := ratchets.head?, appData := w.destination.announceAppData appData }
          some
            { destination := result.2.1
              cell := result.2.2
              built := builtUnder w.built tag from_
              returned :=
                { packet := packet, appData := from_.appData, ratchets := ratchets } ::
                  w.returned }
  | .rotate now key writes =>
      let result := w.destination.rotateRatchets w.cell now key writes
      some { w with destination := result.2.1, cell := result.2.2 }
  | .enable path read writes =>
      let result := w.destination.enableRatchets w.cell.files path read writes
      some { w with destination := result.1, cell := result.2 }
  | .decrypt opens read writes =>
      let result := w.destination.decrypt w.cell opens read writes
      some { w with destination := result.2.1, cell := result.2.2 }
  | .freeze frozen =>
      some { w with destination := { w.destination with ratchetsFrozen := frozen } }
  | .setDefaultAppData appData =>
      some { w with destination := { w.destination with defaultAppData := appData } }
  | .others cell => some { w with cell := cell }

/-- Nodes accept a packet for the destination, and read of it what it was built of. -/
structure Accepted (c : Crypto) (hash : Bytes) (r : Returned) : Prop where
  valid : Transport.validateAnnounce c r.packet.data (some hash)
    (some (r.packet.data.take Transport.keyLen)) r.packet.contextFlag = true
  appData : Transport.extractAnnounceAppData r.packet =
    if r.appData.isEmpty then none else some r.appData
  ratchet : r.packet.contextFlag = Transport.flagSet → ∃ ratchet ∈ r.ratchets,
    Transport.extractAnnounceRatchet r.packet = some (c.publicKey ratchet).1
  without : r.packet.contextFlag ≠ Transport.flagSet →
    Transport.extractAnnounceRatchet r.packet = none

/-- Every packet that was returned is accepted. -/
def AllAccepted (c : Crypto) (w : Announcer) : Prop :=
  ∀ r ∈ w.returned, Accepted c w.destination.hash r

/-- The ratchet of some data is among the ratchets of a destination; without one there are
none. -/
def Holds (ratchet : Option Bytes) (ratchets : List Bytes) : Prop :=
  match ratchet with
  | none => ratchets = []
  | some ratchet => ratchet ∈ ratchets

/-- When a path response is answered from cached data, the destination still has the ratchet that
the data was built with, and has none when the data was built without. -/
def CacheAgrees (w : Announcer) : AnnouncerEvent → Prop
  | .announce _ pathResponse tag now _ _ _ =>
      ∀ cachedTag, w.destination.answeredTag pathResponse tag now = some cachedTag →
        Holds (w.built cachedTag).ratchet (w.destination.ratchets.getD [])
  | _ => True

/-- A destination with an identity whose signatures verify, before it announces. -/
structure Start (c : Crypto) (w : Announcer) : Prop where
  identity : ∃ identity : Identity, w.destination.identity = some identity ∧
    identity.Verifies c ∧ w.destination.hash =
      (c.truncatedHash (w.destination.nameHash ++ (c.truncatedHash identity.publicKey.1).1)).1
  nameHash : w.destination.nameHash.length = Transport.nameHashLen
  pathResponses : ∀ tag, w.destination.pathResponses tag = none
  returned : w.returned = []

/-- Data that was built of something by the identity of a destination. -/
def BuiltBy (c : Crypto) (identity : Identity) (d : Destination) (from_ : BuiltFrom)
    (data : Bytes) : Prop :=
  ∃ randomHash : Bytes, randomHash.length = Transport.randomLen ∧
    data = identity.announceData d.hash d.nameHash randomHash
      (Destination.ratchetBytes c from_.ratchet) from_.appData

end Announcer

/-! ## One announce -/

namespace Destination

variable {c : Crypto} {d : Destination} {cell : RatchetCell}

/-- What an announce needs of a destination besides its ratchets: who it is, and no other cached
data. -/
structure Keeps (d d' : Destination) : Prop where
  identity : d'.identity = d.identity
  hash : d'.hash = d.hash
  nameHash : d'.nameHash = d.nameHash
  pathResponses : ∀ tag cached, d'.pathResponses tag = some cached →
    d.pathResponses tag = some cached

theorem Keeps.refl (d : Destination) : Keeps d d := ⟨rfl, rfl, rfl, fun _ _ h => h⟩

theorem Keeps.trans {d₁ d₂ d₃ : Destination} (h : Keeps d₁ d₂) (h' : Keeps d₂ d₃) : Keeps d₁ d₃ :=
  ⟨h'.identity.trans h.identity, h'.hash.trans h.hash, h'.nameHash.trans h.nameHash,
    fun tag cached hcached => h.pathResponses tag cached (h'.pathResponses tag cached hcached)⟩

theorem keeps_adoptSharedRatchets (d : Destination) (shared : SharedRatchetState) :
    Keeps d (d.adoptSharedRatchets shared) := by
  obtain ⟨_, _, _, heq⟩ := adoptSharedRatchets_eq d shared
  rw [heq]
  exact ⟨rfl, rfl, rfl, fun _ _ h => h⟩

theorem keeps_rotateRatchets (d : Destination) (cell : RatchetCell) (now : Nat) (key : Bytes)
    (writes : Bool) : Keeps d (d.rotateRatchets cell now key writes).2.1 := by
  unfold rotateRatchets
  split
  · exact .refl d
  split
  · exact .refl d
  dsimp only
  split
  · exact (keeps_adoptSharedRatchets d cell.shared).trans ⟨rfl, rfl, rfl, fun _ _ h => h⟩
  · exact keeps_adoptSharedRatchets d cell.shared

theorem keeps_reloadRatchets (d : Destination) (cell : RatchetCell) (path : String)
    (read : RatchetRead) (writes : Bool) :
    Keeps d (d.reloadRatchets cell path read writes).1 := by
  rw [(reloadRatchets_eq d cell path read writes).1]
  exact ⟨rfl, rfl, rfl, fun _ _ h => h⟩

theorem keeps_decrypt (d : Destination) (cell : RatchetCell) (opens : List Bytes → Bool)
    (read : RatchetRead) (writes : Bool) :
    Keeps d (d.decrypt cell opens read writes).2.1 := by
  have hsynced : Keeps d (d.synced cell.shared) := by
    unfold synced
    split
    · exact keeps_adoptSharedRatchets d cell.shared
    · exact .refl d
  obtain heq | ⟨path, -, heq⟩ := decrypt_cases d cell opens read writes
  · rw [heq]
    exact hsynced
  · rw [heq]
    exact hsynced.trans (keeps_reloadRatchets _ cell path read writes)

theorem keeps_enableRatchets (d : Destination) (files : List (List Bytes)) (path : String)
    (read : RatchetRead) (writes : Bool) :
    Keeps d (d.enableRatchets files path read writes).1 := by
  unfold enableRatchets
  dsimp only
  rw [(reloadRatchets_eq _ _ path read writes).1]
  exact ⟨rfl, rfl, rfl, fun _ _ h => h⟩

/-- The path responses that are not stale were there before. -/
theorem keeps_freshPathResponses (d : Destination) (now : Nat) :
    Keeps d { d with pathResponses := d.freshPathResponses now } :=
  ⟨rfl, rfl, rfl, fun _ _ h => (Option.filter_eq_some_iff.mp h).1⟩

/-- An announce is built with the newest ratchet of the destination, if it has one. -/
theorem rotateForAnnounce_head {now : Nat} {key : Bytes} {writes : Bool} {ratchet : Option Bytes}
    (h : (d.rotateForAnnounce cell now key writes).1 = .ok ratchet) :
    ratchet = ((d.rotateForAnnounce cell now key writes).2.1.ratchets.getD []).head? := by
  unfold rotateForAnnounce at h ⊢
  split at h
  · rename_i hnone
    rw [if_pos hnone, Option.isNone_iff_eq_none.mp hnone]
    exact (Except.ok.inj h).symm
  · rename_i hsome
    rw [if_neg hsome]
    generalize d.rotateRatchets cell now key writes = result at h ⊢
    obtain ⟨outcome, d', cell'⟩ := result
    cases outcome with
    | error e => cases h
    | ok rotated =>
        dsimp only at h ⊢
        cases hlist : d'.ratchets.getD [] with
        | nil =>
            rw [hlist] at h
            dsimp only at h ⊢
            rw [hlist]
            exact (Except.ok.inj h).symm
        | cons first rest =>
            rw [hlist] at h
            dsimp only at h ⊢
            by_cases hlength : first.length = 32
            · rw [if_pos hlength] at h ⊢
              dsimp only
              rw [hlist]
              exact (Except.ok.inj h).symm
            · rw [if_neg hlength] at h
              cases h

theorem identity_cachePathResponse (d : Destination) (tag : Option Bytes) (cached : Nat × Bytes) :
    (d.cachePathResponse tag cached).identity = d.identity := by
  cases tag <;> rfl

theorem ratchets_cachePathResponse (d : Destination) (tag : Option Bytes) (cached : Nat × Bytes) :
    (d.cachePathResponse tag cached).ratchets = d.ratchets := by
  cases tag <;> rfl

theorem announceFlag_cachePathResponse (d : Destination) (tag : Option Bytes)
    (cached : Nat × Bytes) : (d.cachePathResponse tag cached).announceFlag = d.announceFlag := by
  cases tag <;> rfl

/-- New announce data is built of the newest ratchet, and cached. -/
theorem generateAnnounceData_spec (c : Crypto) (d : Destination) (cell : RatchetCell)
    (appData : Option Bytes) (now : Nat) (tag : Option Bytes) (key : Bytes) (writes : Bool)
    (random : Bytes.Block 5) :
    let result := d.generateAnnounceData c cell appData now tag key writes random
    (∃ e, result.1 = .error e ∧ Keeps d result.2.1) ∨
    ∃ identity randomHash d' data, d.identity = some identity ∧
      randomHash.length = Transport.randomLen ∧ Keeps d d' ∧ result.1 = .ok data ∧
      data = identity.announceData d.hash d.nameHash randomHash
        (ratchetBytes c (d'.ratchets.getD []).head?) (d.announceAppData appData) ∧
      result.2.1 = d'.cachePathResponse tag (now, data) := by
  have hkeeps : Keeps d (d.rotateForAnnounce cell now key writes).2.1 := by
    rw [(rotateForAnnounce_spec d cell now key writes).1]
    exact keeps_rotateRatchets d cell now key writes
  have hhead : ∀ ratchet, (d.rotateForAnnounce cell now key writes).1 = .ok ratchet → ratchet =
      ((d.rotateForAnnounce cell now key writes).2.1.ratchets.getD []).head? :=
    fun _ => rotateForAnnounce_head
  dsimp only
  unfold generateAnnounceData
  generalize d.rotateForAnnounce cell now key writes = result at hkeeps hhead ⊢
  obtain ⟨outcome, d', cell'⟩ := result
  cases outcome with
  | error e => exact .inl ⟨e, rfl, hkeeps⟩
  | ok ratchet =>
      have hratchet := hhead ratchet rfl
      dsimp only at hkeeps hratchet ⊢
      subst hratchet
      cases hidentity : d'.identity with
      | none => exact .inl ⟨_, rfl, hkeeps⟩
      | some identity =>
          refine .inr ⟨identity, random.1 ++ timestampBytes now, d', _,
            hkeeps.identity.symm.trans hidentity, ?_, hkeeps, rfl, ?_, rfl⟩
          · rw [List.length_append, random.2]
            rfl
          · rw [hkeeps.hash, hkeeps.nameHash]

/-- What an announce comes to: an error, a packet with the data cached under its tag, or one with
new data. -/
theorem announce_spec (c : Crypto) (encrypt : Bytes → Except String Bytes) (d : Destination)
    (cell : RatchetCell) (appData : Option Bytes) (pathResponse : Bool) (tag : Option Bytes)
    (now : Nat) (key : Bytes) (writes : Bool) (random : Bytes.Block 5) :
    let result := d.announce c encrypt cell appData pathResponse tag now key writes random
    (∃ e, result.1 = .error e ∧ Keeps d result.2.1) ∨
    (∃ packet cachedTag cached, d.answeredTag pathResponse tag now = some cachedTag ∧
      d.pathResponses cachedTag = some cached ∧ result.1 = .ok packet ∧ packet.data = cached.2 ∧
      packet.contextFlag = d.announceFlag ∧ result.2.1.ratchets = d.ratchets ∧
      Keeps d result.2.1 ∧ tag = some cachedTag) ∨
    ∃ packet identity randomHash d', d.answeredTag pathResponse tag now = none ∧
      d.identity = some identity ∧ randomHash.length = Transport.randomLen ∧ Keeps d d' ∧
      result.1 = .ok packet ∧
      packet.data = identity.announceData d.hash d.nameHash randomHash
        (ratchetBytes c (d'.ratchets.getD []).head?) (d.announceAppData appData) ∧
      packet.contextFlag = d'.announceFlag ∧
      result.2.1 = d'.cachePathResponse tag (now, packet.data) := by
  have hfresh := keeps_freshPathResponses d now
  dsimp only
  unfold announce
  split
  · exact .inl ⟨_, rfl, .refl d⟩
  split
  · exact .inl ⟨_, rfl, .refl d⟩
  dsimp only
  cases hcached : (if pathResponse = true then tag.bind (d.freshPathResponses now) else none) with
  | some cached =>
      obtain ⟨hpath, cachedTag, htag, hlive⟩ : pathResponse = true ∧ ∃ cachedTag,
          tag = some cachedTag ∧ d.freshPathResponses now cachedTag = some cached := by
        by_cases hpath : pathResponse = true
        · rw [if_pos hpath] at hcached
          exact ⟨hpath, Option.bind_eq_some_iff.mp hcached⟩
        · rw [if_neg hpath] at hcached
          cases hcached
      have hanswered : d.answeredTag pathResponse tag now = some cachedTag := by
        unfold answeredTag
        rw [if_pos hpath, htag, Option.filter_some, hlive]
        rfl
      dsimp only
      split
      · exact .inl ⟨_, rfl, hfresh⟩
      · exact .inr (.inl ⟨_, cachedTag, cached, hanswered,
          hfresh.pathResponses cachedTag cached hlive, rfl, rfl, rfl, rfl, hfresh, htag⟩)
  | none =>
      have hanswered : d.answeredTag pathResponse tag now = none := by
        unfold answeredTag
        by_cases hpath : pathResponse = true
        · rw [if_pos hpath] at hcached ⊢
          cases tag with
          | none => rfl
          | some tag =>
              have hstale : d.freshPathResponses now tag = none := hcached
              rw [Option.filter_some, hstale]
              rfl
        · exact if_neg hpath
      have hspec := generateAnnounceData_spec c { d with pathResponses := d.freshPathResponses now }
        cell appData now tag key writes random
      dsimp only at hspec ⊢
      generalize generateAnnounceData c { d with pathResponses := d.freshPathResponses now } cell
        appData now tag key writes random = result at hspec ⊢
      obtain ⟨outcome, d', cell'⟩ := result
      obtain ⟨e, herror, hkeeps⟩ | ⟨identity, randomHash, d'', data, hidentity, hrandom, hkeeps, hok,
        hdata, hd'⟩ := hspec
      · dsimp only at herror
        subst herror
        exact .inl ⟨e, rfl, hfresh.trans hkeeps⟩
      · dsimp only at hok hd'
        subst hok hd'
        have hcachedIdentity : (d''.cachePathResponse tag (now, data)).identity = some identity := by
          rw [identity_cachePathResponse, hkeeps.identity]
          exact hidentity
        dsimp only
        rw [if_neg (by rw [hcachedIdentity]; exact Bool.false_ne_true)]
        exact .inr (.inr ⟨_, identity, randomHash, d'', hanswered, hidentity, hrandom,
          hfresh.trans hkeeps, rfl, hdata, announceFlag_cachePathResponse _ _ _, rfl⟩)

end Destination

/-! ## A run of announces -/

namespace Announcer

variable {c : Crypto} {identity : Identity} {w : Announcer}

/-- What a run keeps: who the destination is, what its cached data was built of, and that the
returned packets are accepted. -/
structure Announcing (c : Crypto) (identity : Identity) (w : Announcer) : Prop where
  owner : w.destination.identity = some identity
  verifies : identity.Verifies c
  hash : w.destination.hash =
    (c.truncatedHash (w.destination.nameHash ++ (c.truncatedHash identity.publicKey.1).1)).1
  nameHash : w.destination.nameHash.length = Transport.nameHashLen
  cached : ∀ tag cached, w.destination.pathResponses tag = some cached →
    BuiltBy c identity w.destination (w.built tag) cached.2
  returned : AllAccepted c w

theorem Start.announcing (h : Start c w) : ∃ identity, Announcing c identity w := by
  obtain ⟨identity, hidentity, hverifies, hhash⟩ := h.identity
  refine ⟨identity, hidentity, hverifies, hhash, h.nameHash, ?_, ?_⟩
  · intro tag cached hcached
    rw [h.pathResponses tag] at hcached
    cases hcached
  · intro r hmem
    rw [h.returned] at hmem
    cases hmem

theorem BuiltBy.keeps {d d' : Destination} {from_ : BuiltFrom} {data : Bytes}
    (h : BuiltBy c identity d from_ data) (hkeeps : d.Keeps d') :
    BuiltBy c identity d' from_ data := by
  obtain ⟨randomHash, hrandom, hdata⟩ := h
  refine ⟨randomHash, hrandom, ?_⟩
  rw [hkeeps.hash, hkeeps.nameHash]
  exact hdata

section

variable (h : Announcing c identity w)

include h

/-- Only the ratchets change, and no data is cached. -/
theorem Announcing.keeps {d : Destination} (cell : RatchetCell) (hkeeps : w.destination.Keeps d) :
    Announcing c identity { w with destination := d, cell := cell } where
  owner := hkeeps.identity.trans h.owner
  verifies := h.verifies
  hash := by
    dsimp only
    rw [hkeeps.hash, hkeeps.nameHash]
    exact h.hash
  nameHash := by
    dsimp only
    rw [hkeeps.nameHash]
    exact h.nameHash
  cached := by
    intro tag cached hcached
    exact (h.cached tag cached (hkeeps.pathResponses tag cached hcached)).keeps hkeeps
  returned := by
    intro r hmem
    dsimp only
    rw [hkeeps.hash]
    exact h.returned r hmem

/-- A packet is accepted when the destination has the ratchet that its data was built with, and
no ratchet when there was none. -/
theorem Announcing.accepted (from_ : BuiltFrom) {r : Returned}
    (hbuilt : BuiltBy c identity w.destination from_ r.packet.data)
    (happData : r.appData = from_.appData)
    (hflag : r.packet.contextFlag = if r.ratchets.isEmpty then 0 else Transport.flagSet)
    (hheld : Holds from_.ratchet r.ratchets) : Accepted c w.destination.hash r := by
  obtain ⟨randomHash, hrandom, hdata⟩ := hbuilt
  have hlengths : ∀ flag, r.packet.contextFlag = flag →
      (Destination.ratchetBytes c from_.ratchet).length = Transport.ratchetLen flag →
      Transport.validateAnnounce c r.packet.data (some w.destination.hash)
          (some (r.packet.data.take Transport.keyLen)) r.packet.contextFlag = true ∧
        Transport.extractAnnounceAppData r.packet =
          if r.appData.isEmpty then none else some r.appData := by
    intro flag hcontext hlength
    have hfields : FieldLengths flag w.destination.nameHash randomHash
        (Destination.ratchetBytes c from_.ratchet) := ⟨h.nameHash, hrandom, hlength⟩
    rw [hdata, hcontext, happData]
    exact ⟨hfields.valid h.verifies h.hash, hfields.extract_appData hcontext hdata⟩
  cases hratchet : from_.ratchet with
  | none =>
      rw [hratchet] at hheld hlengths
      have hempty : r.ratchets = [] := hheld
      rw [hempty] at hflag
      have hunset : r.packet.contextFlag = 0 := hflag
      obtain ⟨hvalid, hread⟩ := hlengths 0 hunset rfl
      have hne : r.packet.contextFlag ≠ Transport.flagSet := by
        rw [hunset]
        decide
      exact ⟨hvalid, hread, fun hset => absurd hset hne, fun _ => if_pos hne⟩
  | some ratchet =>
      rw [hratchet] at hheld hlengths hdata
      have hmem : ratchet ∈ r.ratchets := hheld
      rw [if_neg (by simpa using List.ne_nil_of_mem hmem)] at hflag
      obtain ⟨hvalid, hread⟩ := hlengths Transport.flagSet hflag (c.publicKey ratchet).2
      have hfields : FieldLengths Transport.flagSet w.destination.nameHash randomHash
          (c.publicKey ratchet).1 := ⟨h.nameHash, hrandom, (c.publicKey ratchet).2⟩
      exact ⟨hvalid, hread, fun _ => ⟨ratchet, hmem, hfields.extract_ratchet hflag hdata⟩,
        fun hne => absurd hflag hne⟩

/-- New data is cached with what it was built of. -/
theorem Announcing.cache (tag : Option Bytes) {from_ : BuiltFrom}
    (data : Nat × Bytes) (hbuilt : BuiltBy c identity w.destination from_ data.2) :
    Announcing c identity
      { w with
        destination := w.destination.cachePathResponse tag data
        built := builtUnder w.built tag from_ } := by
  cases tag with
  | none => exact h
  | some tag =>
      refine { h with cached := ?_ }
      intro tag' cached hcached
      change Function.update w.destination.pathResponses tag (some data) tag' = some cached
        at hcached
      change BuiltBy c identity w.destination (Function.update w.built tag from_ tag') cached.2
      by_cases heq : tag' = tag
      · subst heq
        rw [Function.update_self] at hcached ⊢
        obtain rfl := Option.some.inj hcached
        exact hbuilt
      · rw [Function.update_of_ne heq] at hcached ⊢
        exact h.cached tag' cached hcached

/-- What the announcer returns after an announce. -/
theorem Announcing.announce (encrypt : Bytes → Except String Bytes)
    (appData : Option Bytes) (pathResponse : Bool) (tag : Option Bytes) (now : Nat) (key : Bytes)
    (writes : Bool) (random : Bytes.Block 5) {w' : Announcer}
    (hevent : CacheAgrees w (.announce appData pathResponse tag now key writes random))
    (hstep : step c encrypt w (.announce appData pathResponse tag now key writes random) = some w') :
    Announcing c identity w' := by
  have hspec := Destination.announce_spec c encrypt w.destination w.cell appData pathResponse tag
    now key writes random
  simp only [step] at hstep
  dsimp only at hspec
  generalize w.destination.announce c encrypt w.cell appData pathResponse tag now key writes
    random = result at hspec hstep
  obtain ⟨outcome, d, cell⟩ := result
  obtain ⟨e, herror, hkeeps⟩ | ⟨packet, cachedTag, cached, hanswered, hcached, hok, hdata, hflag,
    hratchets, hkeeps, htag⟩ | ⟨packet, owner, randomHash, d', hanswered, howner, hrandom, hkeeps,
    hok, hdata, hflag, hd⟩ := hspec
  · dsimp only at herror hkeeps
    subst herror
    obtain rfl := Option.some.inj hstep
    exact h.keeps cell hkeeps
  · dsimp only at hok hratchets hkeeps
    subst hok htag
    rw [hanswered] at hstep
    dsimp only at hstep
    rw [builtUnder, Function.update_eq_self] at hstep
    obtain rfl := Option.some.inj hstep
    have hkept := h.keeps cell hkeeps
    refine { hkept with returned := ?_ }
    intro r hmem
    rcases List.mem_cons.mp hmem with rfl | hmem
    · refine hkept.accepted (w.built cachedTag) ?_ rfl ?_ ?_
      · dsimp only
        rw [hdata]
        exact (h.cached cachedTag cached hcached).keeps hkeeps
      · dsimp only
        rw [hratchets]
        exact hflag
      · dsimp only
        rw [hratchets]
        exact hevent cachedTag hanswered
    · exact hkept.returned r hmem
  · dsimp only at hok hd
    subst hok hd
    rw [hanswered] at hstep
    dsimp only at hstep
    rw [Destination.ratchets_cachePathResponse] at hstep
    obtain rfl := Option.some.inj hstep
    obtain rfl := Option.some.inj (howner.symm.trans h.owner)
    have hbuilt : BuiltBy c owner d'
        { ratchet := (d'.ratchets.getD []).head?
          appData := w.destination.announceAppData appData } packet.data := by
      refine ⟨randomHash, hrandom, ?_⟩
      rw [hkeeps.hash, hkeeps.nameHash]
      exact hdata
    have hkept := h.keeps cell hkeeps
    have hcached := hkept.cache tag (now, packet.data) hbuilt
    refine { hcached with returned := ?_ }
    intro r hmem
    have hhash : (d'.cachePathResponse tag (now, packet.data)).hash = d'.hash := by
      cases tag <;> rfl
    dsimp only
    rw [hhash]
    rcases List.mem_cons.mp hmem with rfl | hmem
    · refine hkept.accepted _ hbuilt rfl hflag ?_
      dsimp only
      cases hlist : d'.ratchets.getD [] with
      | nil => rfl
      | cons first rest => exact List.mem_cons_self
    · exact hkept.returned r hmem

end

/-- An event keeps what a run keeps. -/
theorem announcing_step (encrypt : Bytes → Except String Bytes) (w : Announcer)
    (event : AnnouncerEvent) (w' : Announcer) (h : ∃ identity, Announcing c identity w)
    (hevent : CacheAgrees w event) (hstep : step c encrypt w event = some w') :
    ∃ identity, Announcing c identity w' := by
  obtain ⟨identity, h⟩ := h
  refine ⟨identity, ?_⟩
  cases event with
  | announce appData pathResponse tag now key writes random =>
      exact h.announce encrypt appData pathResponse tag now key writes random hevent hstep
  | rotate now key writes =>
      obtain rfl := Option.some.inj hstep
      exact h.keeps _ (Destination.keeps_rotateRatchets _ _ _ _ _)
  | enable path read writes =>
      obtain rfl := Option.some.inj hstep
      exact h.keeps _ (Destination.keeps_enableRatchets _ _ _ _ _)
  | decrypt opens read writes =>
      obtain rfl := Option.some.inj hstep
      exact h.keeps _ (Destination.keeps_decrypt _ _ _ _ _)
  | freeze frozen =>
      obtain rfl := Option.some.inj hstep
      exact h.keeps w.cell ⟨rfl, rfl, rfl, fun _ _ hcached => hcached⟩
  | setDefaultAppData appData =>
      obtain rfl := Option.some.inj hstep
      exact h.keeps w.cell ⟨rfl, rfl, rfl, fun _ _ hcached => hcached⟩
  | others cell =>
      obtain rfl := Option.some.inj hstep
      exact h.keeps cell (.refl _)

/-- In a run in which path responses are answered from data that goes with the ratchets of the
moment, every packet that is returned is accepted. -/
theorem announce_run (c : Crypto) (encrypt : Bytes → Except String Bytes) (w : Announcer)
    (events : List AnnouncerEvent) (h : Start c w)
    (hmeets : Runs.Meets (step c encrypt) CacheAgrees w events) :
    Runs.Always (step c encrypt) (AllAccepted c) w events := by
  have hannouncing := Runs.always_of_meets (announcing_step encrypt) h.announcing hmeets
  intro done w' hdone hrun
  obtain ⟨identity, hidentity⟩ := hannouncing done w' hdone hrun
  exact hidentity.returned

/-- A stand-in for the cryptographic crates, in which a signature is what it signs, cut to its
length. -/
def plainCrypto : Crypto :=
  { Link.sampleCrypto [] with verify := fun _ signature data => signature == (Link.pad 64 data).1 }

/-- A destination without ratchets. -/
def plainAnnouncer : Announcer where
  destination := { freshlyEnabled ratchetCount with
    identity := some { publicKey := Link.pad 64 [], sign := Link.pad 64 }
    ratchets := none }
  cell := { shared := { ratchets := none, latestRatchetTime := 0, generation := 0 }, files := [] }
  built := fun _ => { ratchet := none, appData := [] }
  returned := []

theorem plainAnnouncer_start : Start plainCrypto plainAnnouncer where
  identity := ⟨_, rfl, ⟨rfl, fun data => beq_self_eq_true _⟩, by decide +kernel⟩
  nameHash := rfl
  pathResponses := fun _ => rfl
  returned := rfl

/-- A path response with a tag. -/
def pathResponseAt (now : Nat) : AnnouncerEvent :=
  .announce none true (some [1]) now (List.replicate 32 1) true ⟨List.replicate 5 0, rfl⟩

/-- An announce with application data, sent on its own. -/
def announceAt (now : Nat) : AnnouncerEvent :=
  .announce (some [7]) false none now (List.replicate 32 2) true ⟨List.replicate 5 0, rfl⟩

theorem announce_run_answered :
    Runs.Always (step plainCrypto Except.ok) (AllAccepted plainCrypto) plainAnnouncer
      [pathResponseAt 2000, pathResponseAt 2010, .enable "ratchets" (.version 0) true,
        announceAt 2020] := by
  refine announce_run _ _ _ _ plainAnnouncer_start ?_
  intro w₁ h₁
  refine ⟨fun cachedTag hanswered => (by cases hanswered), ?_⟩
  obtain rfl := Option.some.inj h₁
  intro w₂ h₂
  refine ⟨fun cachedTag hanswered => ?_, ?_⟩
  · obtain rfl := Option.some.inj hanswered
    rfl
  · intro w₃ h₃
    refine ⟨True.intro, ?_⟩
    intro w₄ h₄
    exact ⟨fun cachedTag hanswered => (by cases hanswered), True.intro⟩

/-- The data of a path response was built before ratchets were enabled, and its context flag says
that it has a ratchet. -/
theorem announces_accepted_false :
    ¬ ∀ (c : Crypto) (encrypt : Bytes → Except String Bytes) (w : Announcer)
        (events : List AnnouncerEvent),
      Start c w → Runs.Always (step c encrypt) (AllAccepted c) w events := by
  intro h
  have hrun := h plainCrypto Except.ok plainAnnouncer
    [pathResponseAt 2000, .enable "ratchets" (.version 0) true, announceAt 2010,
      pathResponseAt 2020] plainAnnouncer_start _ _ (List.prefix_refl _) rfl
  have hvalid := (hrun _ List.mem_cons_self).valid
  revert hvalid
  decide +kernel

end Announcer

end Reticulum
