import Reticulum.Packet.Frame
import Reticulum.Transport.Announce
import Reticulum.Transport.Forward

/-!
# Taking in a frame

`Transport::inbound` (`src/transport.rs`): the frame is unpacked and filtered,
control packets and cache requests are handed on, an announce is validated and
processed, and any other packet is forwarded, delivered here, or both.

## Implementation notes

A call reads the clock once. What follows a control packet is the business of
its handler, and what follows a cache request is the same function on the
cached frame, so that the two are outcomes of their own. The receipts that a
proof concludes are left out.
-/

namespace Reticulum.Transport

def announceRateLimit : Nat := 10

/-- `reticulum::MTU`. -/
def maxFrame : Nat := 500

def appName : String := "rnstransport"

/-- The contexts that the filter lets through whatever the packet is. -/
def exemptContext (context : UInt8) : Bool :=
  context = Reticulum.Packet.keepalive ∨ context = 0x03 ∨
    context = Reticulum.Packet.resourcePrf ∨ context = Reticulum.Packet.resource ∨
    context = Wire.cacheRequest ∨ context = 0x0E

/-- The frame as a packet. A frame of two bytes or fewer, and one with the
interface-access flag, is dropped. -/
def readFrame (c : Crypto) (raw : Bytes) (receivingInterface : Option String) :
    Option Wire.Packet :=
  if raw.length ≤ 2 ∨ raw.headD 0 &&& 0x80 = 0x80 then none
  else (Wire.Packet.holding raw receivingInterface).unpack c

section

variable (s : TransportState)

/-- The time of the last frame of the interface is noted. -/
def noteInbound (r : Reading) (receivingInterface : Option String) :
    TransportState :=
  let note : List InterfaceStub → List InterfaceStub := fun interfaces =>
    match interfaces.findIdx? fun i => receivingInterface == some i.name with
    | none => interfaces
    | some k => interfaces.modify k fun i => { i with lastInboundAt := r.now }
  { s with
    interfaces := note s.interfaces
    localClientInterfaces := note s.localClientInterfaces }

/-- An announce that is not looked at: larger than the MTU, or unwanted while
announces are being dropped. -/
def ignoredAnnounce (p : Wire.Packet) : Bool :=
  p.packetType = Wire.announce &&
    (maxFrame < p.raw.length ||
      (s.dropAnnounces && p.context != pathResponse &&
        !(p.destinationHash.any s.announceWatchlist.contains)))

/-- The packet filter. -/
def packetFilter (p : Wire.Packet) : Bool :=
  if s.isConnectedToSharedInstance then true
  else if exemptContext p.context then true
  else if p.destinationType = some .plain ∨ p.destinationType = some .group then
    p.packetType ≠ Wire.announce && p.hops ≤ 1
  else
    match p.packetHash with
    | some hash =>
        (!s.packetHashlist.contains hash && !s.packetHashlistPrev.contains hash) ||
          (p.packetType = Wire.announce && p.destinationType = some .single)
    | none => p.packetType = Wire.announce && p.destinationType ≠ some .link

/-- The announces of one destination are counted; more than `announceRateLimit`
within a second are refused. -/
def limitAnnounces (r : Reading) (p : Wire.Packet) :
    Bool × TransportState :=
  match p.destinationHash with
  | none => (true, s)
  | some destinationHash =>
      let entry := (s.announceRateTable destinationHash).getD
        { last := r.now, rateViolations := 0, blockedUntil := 0, timestamps := [] }
      let entry := { entry with
        timestamps := (entry.timestamps ++ [r.now]).filter fun t => r.now - t < 1 }
      let exceeded := announceRateLimit < entry.timestamps.length
      let entry := if exceeded then
          { entry with rateViolations := entry.rateViolations + 1, last := r.now }
        else entry
      (!exceeded, { s with announceRateTable := s.announceRateTable.insert destinationHash entry })

/-- The filter and the announce limit. -/
def admitPacket (r : Reading) (p : Wire.Packet) : Bool × TransportState :=
  if packetFilter s p then
    if p.packetType = Wire.announce then limitAnnounces s r p else (true, s)
  else (false, s)

/-- The aspects of the control destination that a packet is for. -/
def controlAspects (p : Wire.Packet) : Option (List String) :=
  p.destinationHash.bind fun hash =>
    if s.controlHashes.contains hash then
      match s.controlDestinations.find? fun d => d.hash == hash && d.appName == appName with
      | some d => some d.aspects
      | none => some []
    else none

/-- `Transport::cache_request_packet`: the cached packet that is asked for. -/
def cachedPacket (c : Crypto) (s : TransportState) (p : Wire.Packet) :
    Option CachedPacketEntry :=
  if p.context = Wire.cacheRequest ∧ p.data.length = 32 then
    (s.packetCache p.data).bind fun entry =>
      ((Wire.Packet.holding entry.raw entry.interfaceName).unpack c).map fun _ => entry
  else none

def alreadyValidated (p : Wire.Packet) : Bool :=
  p.packetHash.any fun hash =>
    s.validatedAnnounceHashes.contains hash || s.validatedAnnounceHashesPrev.contains hash

/-- Whether an announce is taken as valid. One with less than a public key of
data is not looked at, one whose hash was validated before is not validated
again. -/
def announceShouldAdd (c : Crypto) (s : TransportState) (p : Wire.Packet) : Bool :=
  if keyLen ≤ p.data.length then alreadyValidated s p || validAnnounce c p else true

/-- The hash of an announce that was validated is remembered. -/
def noteValidated (c : Crypto) (s : TransportState) (p : Wire.Packet) : TransportState :=
  if keyLen ≤ p.data.length ∧ alreadyValidated s p = false ∧ validAnnounce c p then
    { s with validatedAnnounceHashes := insertHash s.validatedAnnounceHashes p.packetHash }
  else s

/-- The hash of a packet is remembered against its repetition, except for links. -/
def rememberPacketHash (p : Wire.Packet) : TransportState :=
  if p.destinationHash.any s.linkTable.contains || p.destinationType = some .link ||
      (p.packetType = Wire.proof && p.context = Wire.lrproof) then s
  else
    match p.packetHash with
    | none => s
    | some hash =>
        if s.packetHashlist.contains hash || s.packetHashlistPrev.contains hash then s
        else { s with packetHashlist := s.packetHashlist.insert hash }

end

/-- What a call leaves to be done after the lock is released. -/
structure Effects where
  outbound : List (String × Bytes)
  announceCallbacks : List AnnounceCallback
  interfaceAnnounce : Option InterfaceAnnounce
  destinationReceives : List (Bytes × Wire.Packet)
  linkPackets : List Wire.Packet

/-- Nothing to be done. -/
def Effects.none : Effects :=
  { outbound := [], announceCallbacks := [], interfaceAnnounce := .none
    destinationReceives := [], linkPackets := [] }

/-- How a call goes on. -/
inductive Outcome
  | dropped
  | control (aspects : List String) (packet : Wire.Packet)
  | cached (entry : CachedPacketEntry)
  | processed (effects : Effects)

/-- An announce: validated, remembered and processed. -/
def inboundAnnounce (c : Crypto) (s : TransportState) (r : Reading) (p : Wire.Packet) :
    Effects × TransportState :=
  let shouldAdd := announceShouldAdd c s p
  let s := noteValidated c s p
  if shouldAdd then
    let s := rememberAnnounce c s r p
    let interfaceAnnounce := interfaceAnnounce c s p
    let s := rememberPacketHash s p
    let callbacks := announceCallbacks c s p
    let (s, frames) := processAnnounce s r p
    ({ Effects.none with
        outbound := frames, announceCallbacks := callbacks
        interfaceAnnounce := interfaceAnnounce }, s)
  else (Effects.none, rememberPacketHash s p)

/-- Any other packet: forwarded and delivered. -/
def inboundPacket (c : Crypto) (s : TransportState) (r : Reading) (p : Wire.Packet) :
    Effects × TransportState :=
  let s := rememberPacketHash s p
  let p := injectTransportId s p
  let (s, transited) := transit c s r p
  let (s, relayed) := relayLink s r p
  let requested := if p.packetType = Wire.linkRequest then localReceives s p else []
  let (s, forwarded, received, toLink) := handleData s r p
  let (s, returned, proofs) := handleProof c s r p
  ({ Effects.none with
      outbound := transited ++ relayed ++ forwarded ++ returned
      destinationReceives := requested ++ received
      linkPackets := toLink ++ proofs }, s)

def inbound (c : Crypto) (s : TransportState) (r : Reading) (raw : Bytes)
    (receivingInterface : Option String) : Outcome × TransportState :=
  match readFrame c raw receivingInterface with
  | none => (.dropped, s)
  | some p =>
      let s := noteInbound s r p.receivingInterface
      if ignoredAnnounce s p then (.dropped, s)
      else
        let (pass, s) := admitPacket s r p
        if pass = false then (.dropped, s)
        else
          let p := { p with hops := saturatingSucc p.hops }
          match controlAspects s p with
          | some aspects => (.control aspects p, s)
          | none =>
              match cachedPacket c s p with
              | some entry => (.cached entry, s)
              | none =>
                  let (effects, s) :=
                    if p.packetType = Wire.announce then inboundAnnounce c s r p
                    else inboundPacket c s r p
                  (.processed effects, s)

/-- A frame that unpacks is dropped at once exactly when it has the interface-access
flag. -/
theorem readFrame_of_unpack {c : Crypto} {p : Wire.Packet} {raw : Bytes}
    {receivingInterface : Option String}
    (hunpack : (Wire.Packet.holding raw receivingInterface).unpack c = some p) :
    readFrame c raw receivingInterface = if p.flags &&& 0x80 = 0x80 then none else some p := by
  obtain ⟨f, hraw, rfl⟩ := Wire.Frame.unpack_eq_some_iff.mp hunpack
  have hlength : ¬ raw.length ≤ 2 := by
    change raw = f.encode at hraw
    rw [hraw]
    simp [Wire.Frame.encode]
  have hflags : raw.headD 0 = f.flags := by
    change raw = f.encode at hraw
    rw [hraw]
    rfl
  unfold readFrame
  rw [hflags, hunpack]
  simp only [hlength, false_or]
  rfl

/-- Remembering an announce changes what is known of identities and ratchets. -/
theorem rememberAnnounce_eq (c : Crypto) (s : TransportState) (r : Reading) (p : Wire.Packet) :
    ∃ known ratchets, rememberAnnounce c s r p =
      { s with knownDestinations := known, knownRatchets := ratchets } := by
  have hdestination : ∀ hash key data, ∃ known, rememberDestination s r hash key data =
      { s with knownDestinations := known } := by
    intro hash key data
    unfold rememberDestination
    split <;> exact ⟨_, rfl⟩
  have hratchet : ∀ (t : TransportState) hash ratchet, ∃ ratchets,
      rememberRatchet t r hash ratchet = { t with knownRatchets := ratchets } := by
    intro t hash ratchet
    unfold rememberRatchet
    split
    · exact ⟨_, rfl⟩
    · dsimp only
      split <;> exact ⟨_, rfl⟩
  unfold rememberAnnounce
  split
  · rename_i hash key _ _
    obtain ⟨known, hknown⟩ := hdestination hash key (extractAnnounceAppData p)
    dsimp only
    rw [hknown]
    split
    · rename_i ratchet _
      obtain ⟨ratchets, hratchets⟩ :=
        hratchet { s with knownDestinations := known } hash ratchet
      exact ⟨known, ratchets, hratchets⟩
    · exact ⟨known, s.knownRatchets, rfl⟩
  · exact ⟨s.knownDestinations, s.knownRatchets, rfl⟩

variable (s : TransportState) (r : Reading) (p : Wire.Packet)

theorem heardRebroadcast_eq (hash : Bytes) :
    ∃ table, heardRebroadcast s r p hash = { s with announceTable := table } := by
  unfold heardRebroadcast
  split
  · split
    · exact ⟨_, rfl⟩
    · split
      · split <;> exact ⟨_, rfl⟩
      · exact ⟨_, rfl⟩
  · exact ⟨_, rfl⟩

theorem answerDiscovery_eq (hash : Bytes) :
    ∃ requests, (answerDiscovery s p hash).1 = { s with discoveryPathRequests := requests } := by
  unfold answerDiscovery
  split
  · split <;> exact ⟨_, rfl⟩
  · exact ⟨_, rfl⟩

theorem queueRebroadcast_eq (hash : Bytes) (newEmission : Bool) :
    ∃ table, queueRebroadcast s r p hash newEmission = { s with announceTable := table } := by
  unfold queueRebroadcast
  split <;> exact ⟨_, rfl⟩

theorem forwardToLocalClients_eq (hash : Bytes) :
    ∃ pacing pending, (forwardToLocalClients s r p hash).1 =
      { s with clientAnnouncePacing := pacing, pendingLocalAnnounces := pending } := by
  have hpace : ∀ (raw : Bytes) (names : List String)
      (acc : TransportState × List (String × Bytes)), ∃ pacing pending,
      (names.foldl (paceLocalClient r raw) acc).1 =
        { acc.1 with clientAnnouncePacing := pacing, pendingLocalAnnounces := pending } := by
    intro raw names
    induction names with
    | nil => exact fun _ => ⟨_, _, rfl⟩
    | cons name names ih =>
        intro acc
        obtain ⟨pacing, pending, heq⟩ := ih (paceLocalClient r raw acc name)
        refine ⟨pacing, pending, heq.trans ?_⟩
        unfold paceLocalClient
        dsimp only
        split <;> rfl
  exact hpace _ _ (s, [])

/-- Processing an announce admits its route, unless the destination is one of this node;
what else it changes is about passing the announce on. -/
theorem processAnnounce_cases :
    ∃ announceTable,
      ((∀ hash ∈ p.destinationHash, hash ∈ s.destinations) ∧
        (processAnnounce s r p).1 = { s with announceTable := announceTable }) ∨
      ∃ hash requests pacing pending, p.destinationHash = some hash ∧
        (processAnnounce s r p).1 =
          { admitAnnounce s r p hash with
            announceTable := announceTable, discoveryPathRequests := requests
            clientAnnouncePacing := pacing, pendingLocalAnnounces := pending } := by
  unfold processAnnounce
  cases hdest : p.destinationHash with
  | none => exact ⟨s.announceTable, .inl ⟨by simp, rfl⟩⟩
  | some hash =>
      obtain ⟨table, hheard⟩ := heardRebroadcast_eq s r p hash
      dsimp only
      rw [hheard]
      split
      · rename_i hlocal
        refine ⟨table, .inl ⟨?_, rfl⟩⟩
        simpa using hlocal
      · obtain ⟨requests, hanswer⟩ :=
          answerDiscovery_eq (admitAnnounce { s with announceTable := table } r p hash) p hash
        rw [hanswer]
        obtain ⟨table', hqueue⟩ := queueRebroadcast_eq
          { admitAnnounce { s with announceTable := table } r p hash with
            discoveryPathRequests := requests } r p hash
          (isNewEmission { s with announceTable := table } r p hash)
        rw [hqueue]
        obtain ⟨pacing, pending, hforward⟩ := forwardToLocalClients_eq _ r p hash
        exact ⟨table', .inr ⟨hash, requests, pacing, pending, rfl, hforward⟩⟩

theorem rememberPacketHash_eq :
    ∃ hashlist, rememberPacketHash s p = { s with packetHashlist := hashlist } := by
  unfold rememberPacketHash
  split
  · exact ⟨_, rfl⟩
  · split
    · exact ⟨_, rfl⟩
    · split <;> exact ⟨_, rfl⟩

/-- The packet after this hop. -/
def hopped (p : Wire.Packet) : Wire.Packet := { p with hops := saturatingSucc p.hops }

/-- The state after the filter. -/
def admitted (s : TransportState) (r : Reading) (p : Wire.Packet) : TransportState :=
  (admitPacket (noteInbound s r p.receivingInterface) r p).2

/-- The filter changes the interfaces' times and the count of announces. -/
theorem admitted_eq :
    ∃ table, admitted s r p =
      { noteInbound s r p.receivingInterface with announceRateTable := table } := by
  unfold admitted admitPacket limitAnnounces
  split
  · split
    · split
      · exact ⟨_, rfl⟩
      · exact ⟨_, rfl⟩
    · exact ⟨_, rfl⟩
  · exact ⟨_, rfl⟩

theorem admitPacket_noteInbound (receivingInterface : Option String) :
    (admitPacket (noteInbound s r receivingInterface) r p).1 = (admitPacket s r p).1 := by
  have hfilter : packetFilter (noteInbound s r receivingInterface) p = packetFilter s p := rfl
  unfold admitPacket limitAnnounces
  rw [hfilter]
  split
  · split
    · split <;> rfl
    · rfl
  · rfl

/-- `inbound` of a frame that was unpacked, with the tests made on the state before
the call. -/
theorem inbound_eq {c : Crypto} {raw : Bytes} {receivingInterface : Option String} {p : Wire.Packet}
    (hframe : readFrame c raw receivingInterface = some p) (s : TransportState) (r : Reading) :
    inbound c s r raw receivingInterface =
      if ignoredAnnounce s p then (.dropped, noteInbound s r p.receivingInterface)
      else if (admitPacket s r p).1 = false then (.dropped, admitted s r p)
      else
        match controlAspects s p with
        | some aspects => (.control aspects (hopped p), admitted s r p)
        | none =>
            match cachedPacket c s p with
            | some entry => (.cached entry, admitted s r p)
            | none =>
                let (effects, s') :=
                  if p.packetType = Wire.announce then
                    inboundAnnounce c (admitted s r p) r (hopped p)
                  else inboundPacket c (admitted s r p) r (hopped p)
                (.processed effects, s') := by
  obtain ⟨table, hadmitted⟩ := admitted_eq s r p
  have hcontrol : controlAspects (admitted s r p) (hopped p) = controlAspects s p := by
    rw [hadmitted]
    rfl
  have hcached : cachedPacket c (admitted s r p) (hopped p) = cachedPacket c s p := by
    rw [hadmitted]
    rfl
  have hpass := admitPacket_noteInbound s r p p.receivingInterface
  have hignored : ignoredAnnounce (noteInbound s r p.receivingInterface) p =
      ignoredAnnounce s p := rfl
  unfold inbound
  rw [hframe]
  simp only [hignored, hpass]
  rw [← hcontrol, ← hcached]
  rfl

end Reticulum.Transport
