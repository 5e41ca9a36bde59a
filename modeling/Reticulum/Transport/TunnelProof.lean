import Reticulum.Link.Rejection
import Reticulum.Transport.Receive

/-!
# Who can move the routes of a tunnel

`tunnel_synthesize_handler` (`src/transport.rs`) calls `handle_tunnel`, which puts
the routes of a tunnel on the interface of the packet. `synthesize_tunnel` signs
that packet, but the handler does not look at the signature. So the routes follow
the owner of the key alone as long as every synthesis packet that reaches the
handler happens to be signed (`proved_of_entered`).
-/

namespace Reticulum.Transport

/-- A frame is read, passes the filter, and is for the control destination of tunnels. -/
structure ReachesHandler (c : Crypto) (n : Instance) (frame : Incoming) (p : Wire.Packet) :
    Prop where
  read : readFrame c frame.raw frame.receivingInterface = some p
  considered : ignoredAnnounce n.toTransportState p = false
  passes : (admitPacket n.toTransportState frame.call.reading p).1 = true
  control : controlAspects n.toTransportState p = some ["tunnel", "synthesize"]

/-- The tunnel and the interface that a frame has `handle_tunnel` entered with. -/
def enteredTunnel (c : Crypto) (n : Instance) (frame : Incoming) : Option (Bytes × String) :=
  match (receive c n frame.call frame.raw frame.receivingInterface).2.1 with
  | .control aspects p =>
      if aspects = ["tunnel", "synthesize"] then synthesizedTunnel c p else none
  | _ => none

/-- The data of a packet is what `synthesize_tunnel` builds, with a valid signature by the
key in it. -/
structure SignedSynthesis (c : Crypto) (data publicKey interfaceHash randomHash signature : Bytes) :
    Prop where
  built : data = synthesisData publicKey interfaceHash randomHash signature
  keyLength : publicKey.length = keyLen
  hashLength : interfaceHash.length = hashLen
  randomLength : randomHash.length = Wire.dstLen
  valid : Link.validate c publicKey signature
    (synthesisSigned publicKey interfaceHash randomHash) = true

/-- The endpoint of a tunnel has proved itself on an interface: one of the frames that came
in on it was a signed synthesis of that tunnel. -/
def Proved (c : Crypto) (n : Instance) (frames : List Incoming) (tunnelId : Bytes)
    (interface : String) : Prop :=
  ∃ before frame p publicKey interfaceHash randomHash signature,
    before ++ [frame] <+: frames ∧ frame.receivingInterface = some interface ∧
    readFrame c frame.raw frame.receivingInterface = some p ∧
    controlAspects (n.after c before).toTransportState p = some ["tunnel", "synthesize"] ∧
    SignedSynthesis c p.data publicKey interfaceHash randomHash signature ∧
    tunnelId = tunnelIdOf c publicKey interfaceHash

/-- The signature of a packet with the length of a synthesis is valid. -/
def validSynthesis (c : Crypto) (data : Bytes) : Bool :=
  Link.validate c (data.take keyLen) (data.drop (keyLen + hashLen + Wire.dstLen))
    (data.take (keyLen + hashLen + Wire.dstLen))

section Entered

variable {c : Crypto} {n : Instance} {frame : Incoming} {p : Wire.Packet} {data : Bytes}

/-- Where the parts of a synthesis stand in its data. -/
theorem signedSynthesis_of_valid (hlength : data.length = synthesisLen)
    (hvalid : validSynthesis c data = true) :
    SignedSynthesis c data (data.take keyLen) (slice data keyLen hashLen)
      (slice data (keyLen + hashLen) Wire.dstLen) (data.drop (keyLen + hashLen + Wire.dstLen)) := by
  have hsigned : synthesisSigned (data.take keyLen) (slice data keyLen hashLen)
      (slice data (keyLen + hashLen) Wire.dstLen) = data.take (keyLen + hashLen + Wire.dstLen) := by
    unfold synthesisSigned slice
    rw [← List.take_add, ← List.take_add]
  have hlengths : data.length = 64 + 32 + 16 + 64 := hlength
  refine ⟨?_, ?_, ?_, ?_, ?_⟩
  · unfold synthesisData
    rw [hsigned, List.take_append_drop]
  · simp [hlengths, keyLen]
  · simp [slice, hlengths, keyLen, hashLen]
  · simp [slice, hlengths, keyLen, hashLen, Wire.dstLen]
  · rw [hsigned]
    exact hvalid

/-- `handle_tunnel` is entered by a frame that reaches the handler, has the right length,
and came from an interface. -/
theorem enteredTunnel_eq_some_iff {tunnelId : Bytes} {interface : String} :
    enteredTunnel c n frame = some (tunnelId, interface) ↔
      ∃ p, ReachesHandler c n frame p ∧ p.data.length = synthesisLen ∧
        frame.receivingInterface = some interface ∧
        tunnelId = tunnelIdOf c (p.data.take keyLen) (slice p.data keyLen hashLen) := by
  have houtcome := (receive_cases c n frame.call frame.raw frame.receivingInterface).1
  unfold enteredTunnel
  rw [houtcome]
  constructor
  · intro h
    split at h
    swap
    · cases h
    rename_i aspects q hcontrol
    split at h
    swap
    · cases h
    rename_i haspects
    obtain ⟨p, hread, hconsidered, hpasses, hfound, rfl⟩ := exists_of_control hcontrol
    unfold synthesizedTunnel at h
    split at h
    · cases h
    rename_i hlength
    obtain ⟨name, hname, heq⟩ := Option.map_eq_some_iff.mp h
    obtain ⟨rfl, rfl⟩ := Prod.mk.inj heq
    refine ⟨p, ⟨hread, hconsidered, hpasses, haspects ▸ hfound⟩, Decidable.not_not.mp hlength,
      ?_, rfl⟩
    exact (receivingInterface_of_readFrame hread).symm.trans hname
  · rintro ⟨p, hreaches, hlength, hinterface, rfl⟩
    have hcontrol : (inbound c n.toTransportState frame.call.reading frame.raw
        frame.receivingInterface).1 = .control ["tunnel", "synthesize"] (hopped p) := by
      rw [inbound_eq hreaches.read, if_neg (by simp [hreaches.considered]),
        if_neg (by simp [hreaches.passes]), hreaches.control]
    have hvia : (hopped p).receivingInterface = some interface :=
      (receivingInterface_of_readFrame hreaches.read).trans hinterface
    rw [hcontrol]
    dsimp only
    unfold synthesizedTunnel
    rw [if_pos rfl, if_neg (show ¬ (hopped p).data.length ≠ synthesisLen from
      Decidable.not_not.mpr hlength), hvia]
    rfl

/-- A frame that has `handle_tunnel` entered leaves the node as `handle_tunnel` leaves it. -/
theorem receive_of_enteredTunnel {tunnelId : Bytes} {interface : String}
    (h : enteredTunnel c n frame = some (tunnelId, interface)) :
    (receive c n frame.call frame.raw frame.receivingInterface).1.toTransportState =
      handleTunnel (inbound c n.toTransportState frame.call.reading frame.raw
        frame.receivingInterface).2 frame.call.reading tunnelId interface
        frame.call.tunnelPaths := by
  obtain ⟨houtcome, -⟩ := receive_cases c n frame.call frame.raw frame.receivingInterface
  unfold enteredTunnel at h
  rw [houtcome] at h
  split at h
  swap
  · cases h
  rename_i aspects q hcontrol
  split at h
  swap
  · cases h
  rename_i haspects
  subst haspects
  unfold receive
  dsimp only
  rw [hcontrol]
  dsimp only
  rw [if_neg (by decide), if_pos rfl]
  dsimp only
  unfold tunnelSynthesizeHandler
  rw [h]

end Entered

/-- As long as every synthesis packet that reaches the handler is signed, no frame has the
routes of a tunnel moved to an interface on which its endpoint has not proved itself. -/
theorem proved_of_entered (c : Crypto) (n : Instance) (frames : List Incoming)
    (hsigned : ∀ before frame p, before ++ [frame] <+: frames →
      ReachesHandler c (n.after c before) frame p → p.data.length = synthesisLen →
      frame.receivingInterface.isSome → validSynthesis c p.data = true) :
    ∀ before frame tunnelId interface, before ++ [frame] <+: frames →
      enteredTunnel c (n.after c before) frame = some (tunnelId, interface) →
      Proved c n (before ++ [frame]) tunnelId interface := by
  intro before frame tunnelId interface hprefix hentered
  obtain ⟨p, hreaches, hlength, hinterface, rfl⟩ := enteredTunnel_eq_some_iff.mp hentered
  have hvalid := hsigned before frame p hprefix hreaches hlength (by rw [hinterface]; rfl)
  exact ⟨before, frame, p, _, _, _, _, List.prefix_refl _, hinterface, hreaches.read,
    hreaches.control, signedSynthesis_of_valid hlength hvalid, rfl⟩

/-! ## A tunnel that someone else takes over -/

/-- The data of a synthesis with the zero key. -/
def zeroSynthesis : Bytes := List.replicate 112 0 ++ List.replicate 64 1

/-- A synthesis for the control destination with the zero hash, from the left. -/
def synthesisFrame : Incoming :=
  { call := { reading := .zero, randomHash := [], tunnelPaths := [] }
    raw := [0x08, 0x00] ++ List.replicate 16 0 ++ [0x00] ++ zeroSynthesis
    receivingInterface := some "left" }

/-- A node that listens for tunnels at the zero hash. -/
def listening : Instance :=
  { Instance.start with
    controlHashes := [List.replicate 16 0]
    controlDestinations :=
      [{ hash := List.replicate 16 0, appName := appName, aspects := ["tunnel", "synthesize"] }] }

section Samples

set_option maxRecDepth 4000

/-- A signed synthesis moves the routes of its tunnel. -/
theorem proved_of_entered_signed :
    Proved (Link.sampleCrypto [List.replicate 112 0]) listening [synthesisFrame]
      (tunnelIdOf (Link.sampleCrypto [List.replicate 112 0]) (List.replicate 64 0)
        (List.replicate 32 0)) "left" := by
  refine proved_of_entered _ listening [synthesisFrame] ?_ [] synthesisFrame _ _
    (List.prefix_refl _) (by decide +kernel)
  intro before frame p hprefix hreaches hlength hinterface
  obtain rfl : before = [] := List.length_eq_zero_iff.mp (by simpa using hprefix.length_le)
  obtain rfl : frame = synthesisFrame := by simpa using hprefix
  have hvalid : ((readFrame (Link.sampleCrypto [List.replicate 112 0]) synthesisFrame.raw
      synthesisFrame.receivingInterface).map fun p =>
        validSynthesis (Link.sampleCrypto [List.replicate 112 0]) p.data) = some true := by
    decide +kernel
  rw [hreaches.read] at hvalid
  exact Option.some.inj hvalid

/-- Nothing is signed, and the routes move all the same. -/
theorem proved_of_entered_false :
    ¬ ∀ (c : Crypto) (n : Instance) (frames before : List Incoming) (frame : Incoming)
        (tunnelId : Bytes) (interface : String), before ++ [frame] <+: frames →
      enteredTunnel c (n.after c before) frame = some (tunnelId, interface) →
      Proved c n (before ++ [frame]) tunnelId interface := by
  intro hall
  obtain ⟨_, _, _, _, _, _, _, _, -, -, -, hsigned, -⟩ := hall (Link.sampleCrypto []) listening
    [synthesisFrame] [] synthesisFrame
    (tunnelIdOf (Link.sampleCrypto []) (List.replicate 64 0) (List.replicate 32 0)) "left"
    (List.prefix_refl _) (by decide +kernel)
  have hvalid := hsigned.valid
  simp [Link.validate, Link.sampleCrypto] at hvalid

end Samples

end Reticulum.Transport
