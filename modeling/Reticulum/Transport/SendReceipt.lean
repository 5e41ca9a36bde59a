import Reticulum.Transport.ReceiptsKept
import Reticulum.Transport.Relayed

/-!
# The receipt of a packet that is sent and sent again

`Packet::send`, `Packet::resend` (`src/packet.rs`) and the part of `Transport::outbound`
that makes receipts (`src/transport.rs`). A call that transmits makes a receipt when the
packet carries none, and returns the one that the packet carries. Resending packs again,
so that the frame and its hash are new, but the packet still carries the receipt of the
frame before: what is returned then cannot be proved by the last transmission
(`receiptsFollow_false`). As long as no call finds a receipt on the packet, each receipt
that is returned is that of the frames that were just transmitted (`receiptsFollow`).

## Implementation notes

A call is one step, and between two calls any task on the tracked receipts may run. What
`encrypt` and `outbound` do in a call is given with the call: the ciphertext, and the
interfaces that take the packet, each with the next hop that is written into the frame if
there is one. `sent_at` of the packet is left out. The cells of the receipts that were made
for the packet are kept beside the state.
-/

namespace Reticulum.Receipt.Tracking

variable {F K : Type*}

/-- What sending reads and writes of a packet. `identity` is that of its destination. -/
structure Outgoing where
  packet : Wire.Packet
  identity : Option Bytes
  createReceipt : Bool
  sent : Bool
  receipt : Option Tracked

def resourceRcl : UInt8 := 0x07

def Outgoing.shouldGenerateReceipt (p : Outgoing) : Bool :=
  p.createReceipt && p.packet.packetType == Wire.data &&
    (p.packet.destination.map (·.destType)).getD .plain != .plain &&
    p.packet.context < Packet.keepalive &&
    !(Packet.resource ≤ p.packet.context && p.packet.context ≤ resourceRcl)

/-- What a call meets: the encryption, the interfaces that take the packet, the clock, and
the timeout of a new receipt. -/
structure Attempt (F : Type*) where
  encrypt : Bytes → Except String Bytes
  routes : List (String × Option (Bytes.Block 16))
  now : F
  timeout : F

/-- The packet with the encryption of the call. -/
def Attempt.encrypting (a : Attempt F) (p : Wire.Packet) : Wire.Packet :=
  { p with destination := p.destination.map fun d => { d with encrypt := a.encrypt } }

/-- What a `pack` that fails leaves behind. -/
def packFailed (p : Wire.Packet) : Wire.Packet :=
  match p.destination with
  | none => p
  | some destination => { p with
      destinationHash := some destination.hash
      ciphertext :=
        match p.packBody destination with
        | .ok (_, ciphertext) => ciphertext
        | .error _ => p.ciphertext }

/-- The frame for an interface. -/
def frameFor (p : Wire.Packet) (nextHop : Option (Bytes.Block 16)) : Bytes :=
  match nextHop with
  | none => p.raw
  | some hop => if p.headerType = Wire.header1 then Transport.convertRaw p hop.1 else p.raw

/-- What a call leaves: what it returns, the packet, the tracked receipts, and the frames that
it has transmitted. -/
structure Called (F K : Type*) where
  result : Except String (Option Tracked)
  packet : Outgoing
  core : Core F K
  frames : List (String × Bytes)

/-- The receipt of the packet. -/
def newReceipt (c : Crypto) (p : Outgoing) (s : Core F K) : Tracked :=
  { cell := s.next
    receipt := { hash := p.packet.getHash c, identity := p.identity }
    truncatedHash := (p.packet.getHash c).take 16
    truncated_eq := rfl }

/-- `Transport::outbound`, and what `send` and `resend` make of its outcome. -/
def transmit (c : Crypto) (a : Attempt F) (p : Outgoing) (s : Core F K) : Called F K :=
  if a.routes.isEmpty then
    { result := .ok none, packet := { p with sent := false, receipt := none }, core := s
      frames := [] }
  else
    let frames := a.routes.map fun route => (route.1, frameFor p.packet route.2)
    if p.shouldGenerateReceipt && p.receipt.isNone then
      let receipt := newReceipt c p s
      { result := .ok (some receipt)
        packet := { p with sent := true, receipt := some receipt }
        core := pushReceipt s receipt.receipt a.now a.timeout
        frames := frames }
    else
      { result := .ok p.receipt, packet := { p with sent := true }, core := s, frames := frames }

def send (c : Crypto) (a : Attempt F) (p : Outgoing) (s : Core F K) : Called F K :=
  if p.sent then
    { result := .error "Packet was already sent", packet := p, core := s, frames := [] }
  else if p.packet.destination.isNone then
    { result := .error "Packet has no destination", packet := p, core := s, frames := [] }
  else if Wire.pathfinderM ≤ p.packet.hops then
    { result := .ok none, packet := p, core := s, frames := [] }
  else if p.packet.packed then transmit c a p s
  else
    match (a.encrypting p.packet).pack c with
    | .error e =>
        { result := .error e, packet := { p with packet := packFailed (a.encrypting p.packet) }
          core := s, frames := [] }
    | .ok packed => transmit c a { p with packet := packed } s

def resend (c : Crypto) (a : Attempt F) (p : Outgoing) (s : Core F K) : Called F K :=
  if !p.sent then
    { result := .error "Packet was not sent yet", packet := p, core := s, frames := [] }
  else
    match (a.encrypting p.packet).pack c with
    | .error e =>
        { result := .error e, packet := { p with packet := packFailed (a.encrypting p.packet) }
          core := s, frames := [] }
    | .ok packed => transmit c a { p with packet := packed } s

/-- The two ways to send. -/
inductive Method
  | send
  | resend

/-- A call. -/
def call (c : Crypto) (m : Method) (a : Attempt F) (p : Outgoing) (s : Core F K) : Called F K :=
  match m with
  | .send => send c a p s
  | .resend => resend c a p s

/-! ## The law -/

/-- The hash that a receiver of a frame computes. -/
def frameHash (c : Crypto) (raw : Bytes) : Bytes :=
  ((Wire.Packet.holding raw none).readFlags (raw.headD 0) ((raw.drop 1).headD 0)).getHash c

/-- A proof for a hash: with the hash in front, or addressed to it. -/
def provesHash (c : Crypto) (kind : ProofKind) (identity : Option Bytes) (hash proof : Bytes) :
    Bool :=
  match kind with
  | .plain => identity.any fun publicKey =>
      (proof.length = explLength && proof.take 32 == hash &&
        validateWithIdentityVariants c publicKey (proof.drop 32) hash) ||
      (proof.length = implLength && validateWithIdentityVariants c publicKey proof hash)
  | .link validate =>
      proof.length = explLength && proof.take 32 == hash && validate (proof.drop 32) hash

/-- A proof of the hash, unaddressed or addressed to it, delivers the receipt and takes it out
of the list. -/
def ConcludedBy (c : Crypto) (s : Core F K) (hash : Bytes) (r : Tracked) : Prop :=
  ∀ (kind : ProofKind) (proof : Bytes) (addressed : Option Bytes) (now : F),
    provesHash c kind r.receipt.identity hash proof = true →
    (∀ address, addressed = some address → address = hash.take 16) →
    let s' := concludeProvedReceipts c kind proof now s (proofCandidates s proof addressed)
    (s'.cells r.cell).status = .delivered ∧ r ∉ s'.receipts

/-- The receipt is that of the frames that were transmitted: it is tracked with their hash,
waits from the call on, and a proof of them concludes it. -/
structure OfFrames (c : Crypto) (a : Attempt F) (called : Called F K) (r : Tracked) : Prop where
  transmitted : called.frames ≠ []
  tracked : r ∈ called.core.receipts
  since : (called.core.cells r.cell).sentAt = a.now
  waits : (called.core.cells r.cell).timeout = a.timeout
  hash : ∀ frame ∈ called.frames, frameHash c frame.2 = r.receipt.hash
  concluded : ∀ frame ∈ called.frames, ConcludedBy c called.core (frameHash c frame.2) r

/-- A receipt that is returned is that of the frames, and after a call that transmits nothing
no receipt of the packet is tracked in SENT. -/
def ReceiptFollows (c : Crypto) (a : Attempt F) (called : Called F K) (issued : List Nat) : Prop :=
  (∀ r, called.result = .ok (some r) → OfFrames c a called r) ∧
  (called.frames = [] → ∀ r ∈ called.core.receipts, r.cell ∈ issued →
    (called.core.cells r.cell).status ≠ .sent)

/-! ## Runs -/

/-- A packet, the tracked receipts, and the cells of those that were made for the packet. -/
structure Sending (F K : Type*) where
  packet : Outgoing
  core : Core F K
  issued : List Nat

/-- A call, or a task on the tracked receipts. -/
inductive SendEvent (F K : Type*)
  | call (m : Method) (a : Attempt F)
  | task (task : Task F K) (nows : Nat → F)

/-- The cells that a call has taken. -/
def Sending.issuedBy (s : Sending F K) (called : Called F K) : List Nat :=
  s.issued ++ List.range' s.core.next (called.core.next - s.core.next)

/-- One step. -/
def sendStep (debug : Bool) (c : Crypto) (t : Clock F) (s : Sending F K) :
    SendEvent F K → Option (Sending F K)
  | .call m a =>
      let called := call c m a s.packet s.core
      some { packet := called.packet, core := called.core, issued := s.issuedBy called }
  | .task task nows => some { s with core := (exec debug c t task nows s.core).core }

/-- The law for a step. -/
def CallFollows (c : Crypto) (s : Sending F K) : SendEvent F K → Prop
  | .call m a =>
      let called := call c m a s.packet s.core
      ReceiptFollows c a called (s.issuedBy called)
  | .task _ _ => True

/-- Whether a call gets as far as `outbound`, and an interface takes the packet. -/
def transmits (c : Crypto) (m : Method) (a : Attempt F) (p : Outgoing) : Bool :=
  let packs := ((a.encrypting p.packet).pack c).toOption.isSome
  !a.routes.isEmpty &&
    match m with
    | .send => !p.sent && p.packet.destination.isSome && !(Wire.pathfinderM ≤ p.packet.hops) &&
        (p.packet.packed || packs)
    | .resend => p.sent && packs

/-- The packet carries no receipt; or the call transmits nothing, and the receipt that the
packet carries is not tracked in SENT. -/
def FindsNoReceipt (c : Crypto) (s : Sending F K) : SendEvent F K → Prop
  | .call m a => ∀ r, s.packet.receipt = some r → transmits c m a s.packet = false ∧
      ∀ r' ∈ s.core.receipts, r'.cell = r.cell → (s.core.cells r.cell).status ≠ .sent
  | .task _ _ => True

theorem finds_of_none {c : Crypto} {s : Sending F K} {m : Method} {a : Attempt F}
    (h : s.packet.receipt = none) : FindsNoReceipt c s (.call m a) := by
  intro r hr
  rw [h] at hr
  cases hr

/-! ## What a call does -/

/-- The header type is the one of the flag byte, and a packed frame starts with the flag byte
and the hops. -/
structure Formed (p : Wire.Packet) : Prop where
  headed : Wire.headerTypeOf p.flags = p.headerType
  packed : p.packed = true → ∃ rest, p.raw = p.flags :: p.hops :: rest

/-- What calls keep of a packet. -/
structure Keeps (p q : Outgoing) : Prop where
  formed : Formed p.packet → Formed q.packet
  generates : q.shouldGenerateReceipt = p.shouldGenerateReceipt
  identity : q.identity = p.identity

/-- The fields that packing leaves alone. -/
def SameFields (p q : Wire.Packet) : Prop :=
  q.flags = p.flags ∧ q.hops = p.hops ∧ q.headerType = p.headerType ∧
    q.packetType = p.packetType ∧ q.context = p.context ∧
    q.destination.map (·.destType) = p.destination.map (·.destType)

section Call

variable {c : Crypto} {a : Attempt F} {p q : Outgoing} {s : Core F K} {packet packed : Wire.Packet}

theorem sameFields_encrypting (a : Attempt F) (packet : Wire.Packet) :
    SameFields packet (a.encrypting packet) := by
  refine ⟨rfl, rfl, rfl, rfl, rfl, ?_⟩
  cases h : packet.destination <;> simp [Attempt.encrypting, h]

/-- A packet that was packed. -/
theorem fields_of_pack (h : packet.pack c = .ok packed) :
    SameFields packet packed ∧ ∃ rest, packed.raw = packed.flags :: packed.hops :: rest := by
  unfold Wire.Packet.pack at h
  cases hdestination : packet.destination with
  | none =>
      rw [hdestination] at h
      cases h
  | some destination =>
      rw [hdestination] at h
      dsimp only at h
      cases hbody : packet.packBody destination with
      | error e =>
          rw [hbody] at h
          cases h
      | ok body =>
          rw [hbody] at h
          dsimp only [Except.bind] at h
          split at h
          · cases h
          · obtain rfl := Except.ok.inj h
            exact ⟨⟨rfl, rfl, rfl, rfl, rfl, by simp [Wire.Packet.updateHash, hdestination]⟩, _, rfl⟩

theorem sameFields_packFailed (packet : Wire.Packet) :
    SameFields packet (packFailed packet) ∧ (packFailed packet).raw = packet.raw ∧
      (packFailed packet).packed = packet.packed := by
  unfold packFailed
  cases hdestination : packet.destination with
  | none => exact ⟨⟨rfl, rfl, rfl, rfl, rfl, by rw [hdestination]⟩, rfl, rfl⟩
  | some destination => exact ⟨⟨rfl, rfl, rfl, rfl, rfl, by simp [hdestination]⟩, rfl, rfl⟩

theorem SameFields.trans {p q r : Wire.Packet} (h : SameFields p q) (h' : SameFields q r) :
    SameFields p r := by
  obtain ⟨h1, h2, h3, h4, h5, h6⟩ := h
  obtain ⟨h1', h2', h3', h4', h5', h6'⟩ := h'
  exact ⟨h1'.trans h1, h2'.trans h2, h3'.trans h3, h4'.trans h4, h5'.trans h5, h6'.trans h6⟩

theorem keeps_of_sameFields {receipt : Option Tracked} {sent : Bool} (h : SameFields p.packet packet)
    (hformed : Formed p.packet → packet.packed = true →
      ∃ rest, packet.raw = packet.flags :: packet.hops :: rest) :
    Keeps p { p with packet := packet, sent := sent, receipt := receipt } := by
  obtain ⟨hflags, hhops, hheader, htype, hcontext, hdest⟩ := h
  refine ⟨fun hp => ⟨?_, hformed hp⟩, ?_, rfl⟩
  · rw [hflags, hheader]
    exact hp.headed
  · unfold Outgoing.shouldGenerateReceipt
    dsimp only
    rw [htype, hcontext, hdest]

/-- A call that transmits nothing. -/
structure Idle (p : Outgoing) (s : Core F K) (called : Called F K) : Prop where
  frames : called.frames = []
  core : called.core = s
  result : ∀ r, called.result ≠ .ok (some r)
  keeps : Keeps p called.packet
  receipt : called.packet.receipt = p.receipt ∨ called.packet.receipt = none

theorem idle_of_keeps {result : Except String (Option Tracked)}
    (hresult : ∀ r, result ≠ .ok (some r)) (hkeeps : Keeps p q)
    (hreceipt : q.receipt = p.receipt ∨ q.receipt = none) :
    Idle p s { result := result, packet := q, core := s, frames := [] } :=
  ⟨rfl, rfl, hresult, hkeeps, hreceipt⟩

theorem keeps_refl (p : Outgoing) : Keeps p p := ⟨id, rfl, rfl⟩

/-- A packet that no interface takes. -/
theorem idle_transmit (hroutes : a.routes.isEmpty = true) (hkeeps : Keeps p
    { p with packet := packet, sent := false, receipt := none }) :
    Idle p s (transmit c a { p with packet := packet } s) := by
  unfold transmit
  rw [if_pos hroutes]
  exact idle_of_keeps (by simp) hkeeps (.inr rfl)

/-- A packet that reaches `outbound`. -/
structure Handed (p : Outgoing) (packet : Wire.Packet) : Prop where
  same : SameFields p.packet packet
  raw : Formed p.packet → ∃ rest, packet.raw = packet.flags :: packet.hops :: rest

theorem Handed.keeps (h : Handed p packet) (sent : Bool) (receipt : Option Tracked) :
    Keeps p { p with packet := packet, sent := sent, receipt := receipt } :=
  keeps_of_sameFields h.same fun hformed _ => h.raw hformed

theorem handed_of_pack (h : (a.encrypting p.packet).pack c = .ok packed) : Handed p packed :=
  ⟨(sameFields_encrypting a p.packet).trans (fields_of_pack h).1, fun _ => (fields_of_pack h).2⟩

theorem handed_of_packed (h : p.packet.packed = true) : Handed p p.packet :=
  ⟨⟨rfl, rfl, rfl, rfl, rfl, rfl⟩, fun hformed => hformed.packed h⟩

/-- Packing that fails changes no receipt. -/
theorem idle_packFailed {e : String} : Idle p s
    { result := .error e, packet := { p with packet := packFailed (a.encrypting p.packet) }
      core := s, frames := [] } := by
  obtain ⟨hsame, hraw, hpacked⟩ := sameFields_packFailed (a.encrypting p.packet)
  have hfields := (sameFields_encrypting a p.packet).trans hsame
  refine idle_of_keeps (by simp) (keeps_of_sameFields hfields fun hformed h => ?_) (.inl rfl)
  rw [hraw, hfields.1, hfields.2.1]
  exact hformed.packed (hpacked ▸ h)

/-- What a call does: it transmits nothing, or hands the packet over and an interface takes
it. -/
theorem call_cases (c : Crypto) (m : Method) (a : Attempt F) (p : Outgoing) (s : Core F K) :
    (transmits c m a p = false ∧ Idle p s (call c m a p s)) ∨
    (transmits c m a p = true ∧ a.routes.isEmpty = false ∧ ∃ packet, Handed p packet ∧
      call c m a p s = transmit c a { p with packet := packet } s) := by
  -- The packet is handed over, with interfaces or without.
  have hhanded : ∀ packet, Handed p packet →
      (a.routes.isEmpty = true ∧ Idle p s (transmit c a { p with packet := packet } s)) ∨
        a.routes.isEmpty = false := by
    intro packet hpacket
    cases hroutes : a.routes.isEmpty with
    | true => exact .inl ⟨rfl, idle_transmit hroutes (hpacket.keeps false none)⟩
    | false => exact .inr rfl
  cases m with
  | send =>
      unfold call send transmits
      dsimp only
      by_cases hsent : p.sent = true
      · rw [if_pos hsent]
        exact .inl ⟨by simp [hsent], idle_of_keeps (by simp) (keeps_refl p) (.inl rfl)⟩
      rw [if_neg hsent]
      by_cases hnone : p.packet.destination.isNone = true
      · rw [if_pos hnone]
        refine .inl ⟨?_, idle_of_keeps (by simp) (keeps_refl p) (.inl rfl)⟩
        rw [Option.isNone_iff_eq_none] at hnone
        simp [hnone]
      rw [if_neg hnone]
      have hsome : p.packet.destination.isSome = true := by
        simpa [Option.isSome_iff_ne_none] using hnone
      by_cases hhops : Wire.pathfinderM ≤ p.packet.hops
      · rw [if_pos hhops]
        exact .inl ⟨by simp [hhops], idle_of_keeps (by simp) (keeps_refl p) (.inl rfl)⟩
      rw [if_neg hhops]
      by_cases hpacked : p.packet.packed = true
      · rw [if_pos hpacked]
        obtain ⟨hroutes, hidle⟩ | hroutes := hhanded p.packet (handed_of_packed hpacked)
        · exact .inl ⟨by simp [hroutes], hidle⟩
        · right
          refine ⟨?_, hroutes, p.packet, handed_of_packed hpacked, rfl⟩
          simp [hroutes, hsent, hsome, hhops, hpacked]
      rw [if_neg hpacked]
      cases hpack : (a.encrypting p.packet).pack c with
      | error e => exact .inl ⟨by simp [hpacked, Except.toOption], idle_packFailed⟩
      | ok packed =>
          obtain ⟨hroutes, hidle⟩ | hroutes := hhanded packed (handed_of_pack hpack)
          · exact .inl ⟨by simp [hroutes], hidle⟩
          · right
            refine ⟨?_, hroutes, packed, handed_of_pack hpack, rfl⟩
            simp [hroutes, hsent, hsome, hhops, Except.toOption]
  | resend =>
      unfold call resend transmits
      dsimp only
      by_cases hsent : p.sent = true
      swap
      · rw [if_pos (by simpa using hsent)]
        exact .inl ⟨by simp [hsent], idle_of_keeps (by simp) (keeps_refl p) (.inl rfl)⟩
      rw [if_neg (by simpa using hsent)]
      cases hpack : (a.encrypting p.packet).pack c with
      | error e => exact .inl ⟨by simp [Except.toOption], idle_packFailed⟩
      | ok packed =>
          obtain ⟨hroutes, hidle⟩ | hroutes := hhanded packed (handed_of_pack hpack)
          · exact .inl ⟨by simp [hroutes], hidle⟩
          · right
            refine ⟨?_, hroutes, packed, handed_of_pack hpack, rfl⟩
            simp [hroutes, hsent, Except.toOption]

/-! ## The frames -/

theorem frameHash_eq {raw rest : Bytes} {flags hops : UInt8} (h : raw = flags :: hops :: rest) :
    frameHash c raw = (c.fullHash ((flags &&& 0x0F) ::
      if Wire.headerTypeOf flags = Wire.header2 then raw.drop (Wire.dstLen + 2) else rest)).1 := by
  subst h
  rfl

/-- Every frame of a packet has its hash. -/
theorem frameHash_frameFor {rest : Bytes}
    (hheaded : Wire.headerTypeOf packet.flags = packet.headerType)
    (hraw : packet.raw = packet.flags :: packet.hops :: rest) (nextHop : Option (Bytes.Block 16)) :
    frameHash c (frameFor packet nextHop) = packet.getHash c := by
  have hown : packet.getHash c = (c.fullHash ((packet.flags &&& 0x0F) ::
      if packet.headerType = Wire.header2 then packet.raw.drop (Wire.dstLen + 2) else rest)).1 := by
    unfold Wire.Packet.getHash Wire.Packet.getHashablePart
    rw [hraw]
    rfl
  have hdirect : frameHash c packet.raw = packet.getHash c := by
    rw [hown, frameHash_eq hraw, hheaded]
  unfold frameFor
  cases nextHop with
  | none => exact hdirect
  | some hop =>
      dsimp only
      split
      · rename_i hheader
        obtain ⟨htype, hlow, -⟩ := Transport.transportFlags packet.flags
        have hconverted : Transport.convertRaw packet hop.1 =
            ((Wire.header2 <<< 6) ||| (Transport.modeTransport <<< 4) ||| (packet.flags &&& 0x0F)) ::
              packet.hops :: (hop.1 ++ rest) := by
          unfold Transport.convertRaw
          rw [hraw]
          rfl
        have hdrop : (Transport.convertRaw packet hop.1).drop (Wire.dstLen + 2) = rest := by
          rw [hconverted]
          have hlength : hop.1.length = Wire.dstLen := hop.2
          rw [← hlength]
          simp
        rw [frameHash_eq hconverted, if_pos htype, hdrop, hlow, hown, hheader, if_neg (by decide)]
      · exact hdirect

/-- The frame that `outbound` sends along a route is one of these. -/
theorem exists_frameFor_outboundRaw (state : Transport.TransportState) (packet : Wire.Packet)
    (destinationHash : Bytes) {e : Transport.PathEntry} (hhop : e.nextHop.length = 16) :
    ∃ nextHop, Transport.outboundRaw state packet destinationHash e = frameFor packet nextHop := by
  unfold Transport.outboundRaw
  split
  · rename_i hconverts
    have hheader : packet.headerType = Wire.header1 := by
      simp only [Transport.converts, Bool.and_eq_true, decide_eq_true_eq] at hconverts
      exact hconverts.1
    refine ⟨some ⟨e.nextHop, hhop⟩, ?_⟩
    unfold frameFor
    dsimp only
    rw [if_pos hheader]
  · exact ⟨none, rfl⟩

end Call

/-! ## The proof of a receipt -/

section Proof

variable {c : Crypto} {s : Core F K} {r r' : Tracked} {kind : ProofKind} {proof : Bytes} {now : F}

/-- The receipt is delivered and gone. -/
def Concluded (s : Core F K) (r : Tracked) : Prop :=
  (s.cells r.cell).status = .delivered ∧ r ∉ s.receipts

theorem concludeCandidate_eq (c : Crypto) (kind : ProofKind) (proof : Bytes) (now : F)
    (s : Core F K) (r : Tracked) :
    concludeCandidate c kind proof now s r = s ∨ ∃ inner', inner'.status = .delivered ∧
      concludeCandidate c kind proof now s r = forget (s.put r.cell inner') r.cell := by
  unfold concludeCandidate
  obtain heq | ⟨-, inner', hstatus, heq⟩ := validateCandidate_cases c kind proof s r now
  · exact .inl (by simp [heq])
  · exact .inr ⟨inner', hstatus, by simp [heq]⟩

theorem concluded_forget {inner' : Inner F K} (hstatus : inner'.status = .delivered)
    (hcell : r'.cell = r.cell) : Concluded (forget (s.put r'.cell inner') r'.cell) r := by
  rw [hcell]
  refine ⟨?_, fun hmem => ?_⟩
  · change (Function.update s.cells r.cell inner' r.cell).status = .delivered
    rwa [Function.update_self]
  · have hne := (List.mem_filter.mp hmem).2
    simp at hne

/-- A candidate leaves a receipt provable or concludes it. -/
theorem concludeCandidate_keeps (h : provable (s.cells r.cell) = true ∨ Concluded s r) :
    provable ((concludeCandidate c kind proof now s r').cells r.cell) = true ∨
      Concluded (concludeCandidate c kind proof now s r') r := by
  obtain heq | ⟨inner', hstatus, heq⟩ := concludeCandidate_eq c kind proof now s r'
  · rw [heq]
    exact h
  rw [heq]
  by_cases hcell : r'.cell = r.cell
  · exact .inr (concluded_forget hstatus hcell)
  · have hsame : (forget (s.put r'.cell inner') r'.cell).cells r.cell = s.cells r.cell :=
      Function.update_of_ne (Ne.symm hcell) _ _
    rw [hsame]
    refine h.imp_right fun hconcluded => ⟨by rw [hsame]; exact hconcluded.1, fun hmem => ?_⟩
    exact hconcluded.2 (List.mem_of_mem_filter hmem)

theorem concluded_stays (h : Concluded s r) :
    Concluded (concludeCandidate c kind proof now s r') r := by
  refine (concludeCandidate_keeps (.inr h)).resolve_left fun hprovable => ?_
  obtain heq | ⟨inner', hstatus, heq⟩ := concludeCandidate_eq c kind proof now s r'
  · rw [heq] at hprovable
    exact not_delivered_of_provable hprovable h.1
  · rw [heq] at hprovable
    by_cases hcell : r'.cell = r.cell
    · exact not_delivered_of_provable hprovable (concluded_forget hstatus hcell).1
    · have hsame : (forget (s.put r'.cell inner') r'.cell).cells r.cell = s.cells r.cell :=
        Function.update_of_ne (Ne.symm hcell) _ _
      rw [hsame] at hprovable
      exact not_delivered_of_provable hprovable h.1

/-- A candidate whose proof is valid is concluded. -/
theorem concluded_candidate (hprovable : provable (s.cells r.cell) = true)
    (hvalid : ∀ inner : Inner F K, kind.validate c r.receipt proof inner now = markDelivered inner now) :
    Concluded (concludeCandidate c kind proof now s r) r := by
  unfold concludeCandidate validateCandidate
  dsimp only
  rw [if_pos hprovable, hvalid, if_pos (markDelivered_of_provable hprovable).1]
  exact concluded_forget (markDelivered_of_provable hprovable).2 rfl

/-- So is it among other candidates. -/
theorem concluded_of_mem {candidates : List Tracked} (hmem : r ∈ candidates)
    (hprovable : provable (s.cells r.cell) = true)
    (hvalid : ∀ inner : Inner F K, kind.validate c r.receipt proof inner now = markDelivered inner now) :
    Concluded (concludeProvedReceipts c kind proof now s candidates) r := by
  have hrest : ∀ (candidates : List Tracked) (s : Core F K), Concluded s r →
      Concluded (concludeProvedReceipts c kind proof now s candidates) r := by
    intro candidates
    induction candidates with
    | nil => exact fun _ h => h
    | cons r' candidates ih => exact fun s h => ih _ (concluded_stays h)
  induction candidates generalizing s with
  | nil => cases hmem
  | cons r' candidates ih =>
      change Concluded (concludeProvedReceipts c kind proof now
        (concludeCandidate c kind proof now s r') candidates) r
      rcases List.mem_cons.mp hmem with rfl | hmem
      · exact hrest _ _ (concluded_candidate hprovable hvalid)
      · rcases concludeCandidate_keeps (c := c) (.inl hprovable) with hprovable | hconcluded
        · exact ih hmem hprovable
        · exact hrest _ _ hconcluded

/-- A proof of the hash validates the receipt of the hash. -/
theorem validate_of_provesHash
    (h : provesHash c kind r.receipt.identity r.receipt.hash proof = true) (inner : Inner F K) :
    kind.validate c r.receipt proof inner now = markDelivered inner now := by
  cases kind with
  | plain =>
      obtain ⟨publicKey, hidentity, hproves⟩ := (Option.any_eq_true _ _).mp h
      simp only [Bool.or_eq_true, Bool.and_eq_true, decide_eq_true_eq, beq_iff_eq] at hproves
      change validateProof c r.receipt proof inner now = _
      unfold validateProof
      rw [hidentity]
      dsimp only
      rcases hproves with ⟨⟨hlength, hhash⟩, hvalid⟩ | ⟨hlength, hvalid⟩
      · rw [if_pos hlength, if_pos ⟨hhash, hvalid⟩]
      · rw [if_neg (by rw [hlength]; decide), if_pos hlength, if_pos hvalid]
  | link validate =>
      simp only [provesHash, Bool.and_eq_true, decide_eq_true_eq, beq_iff_eq] at h
      obtain ⟨⟨hlength, hhash⟩, hvalid⟩ := h
      change validateLinkProofWith r.receipt proof validate inner now = _
      unfold validateLinkProofWith
      rw [if_pos hlength, if_pos ⟨hhash, hvalid⟩]

theorem hash_of_provesHash {identity : Option Bytes} {hash : Bytes}
    (h : provesHash c kind identity hash proof = true) (hlength : proof.length = explLength) :
    proof.take 32 = hash := by
  cases kind with
  | plain =>
      obtain ⟨publicKey, -, hproves⟩ := (Option.any_eq_true _ _).mp h
      simp only [Bool.or_eq_true, Bool.and_eq_true, decide_eq_true_eq, beq_iff_eq] at hproves
      rcases hproves with ⟨⟨-, hhash⟩, -⟩ | ⟨himplicit, -⟩
      · exact hhash
      · rw [hlength] at himplicit
        cases himplicit
  | link validate =>
      simp only [provesHash, Bool.and_eq_true, decide_eq_true_eq, beq_iff_eq] at h
      exact h.1.2

/-- A tracked receipt that is provable is concluded by a proof of its hash. -/
theorem concludedBy_hash (hmem : r ∈ s.receipts) (hprovable : provable (s.cells r.cell) = true) :
    ConcludedBy c s r.receipt.hash r := by
  intro kind proof addressed now hproves haddressed
  refine concluded_of_mem (List.mem_filter.mpr ⟨hmem, ?_⟩) hprovable fun inner =>
    validate_of_provesHash hproves inner
  rw [hprovable, Bool.and_true]
  unfold proofFor
  split
  · rename_i hlength
    rw [hash_of_provesHash hproves hlength, beq_self_eq_true]
  · cases haddress : addressed with
    | none => rfl
    | some address =>
        rw [Option.all_some, r.truncated_eq, haddressed address haddress, beq_self_eq_true]

end Proof

/-! ## What holds between the steps -/

/-- A receipt that was made for the packet and is tracked in SENT is the one that the packet
carries. -/
structure Live (s : Sending F K) : Prop where
  formed : Formed s.packet.packet
  generates : s.packet.shouldGenerateReceipt = true
  used : ∀ r ∈ s.core.receipts, r.cell < s.core.next
  issued : ∀ cell ∈ s.issued, cell < s.core.next
  own : ∀ r, s.packet.receipt = some r → r.cell ∈ s.issued
  carried : ∀ r ∈ s.core.receipts, r.cell ∈ s.issued → (s.core.cells r.cell).status = .sent →
    ∃ carried, s.packet.receipt = some carried ∧ carried.cell = r.cell

/-- What a task does to the receipts: it makes none SENT, and a new one has a new cell. -/
structure Passes (s s' : Core F K) : Prop where
  next : s.next ≤ s'.next
  receipts : ∀ r ∈ s'.receipts, r ∈ s.receipts ∨ r.cell = s.next ∧ s.next < s'.next
  sent : ∀ cell < s.next, (s'.cells cell).status = .sent → (s.cells cell).status = .sent

section Step

variable {debug : Bool} {c : Crypto} {t : Clock F} {s : Core F K} {r : Tracked}

theorem Passes.refl (s : Core F K) : Passes s s := ⟨le_rfl, fun _ hr => .inl hr, fun _ _ h => h⟩

/-- One cell gets a state that is not SENT unless it was. -/
theorem passes_put {cell : Nat} {inner' : Inner F K}
    (h : inner'.status = .sent → (s.cells cell).status = .sent) : Passes s (s.put cell inner') := by
  refine ⟨le_rfl, fun _ hr => .inl hr, fun other _ hsent => ?_⟩
  change (Function.update s.cells cell inner' other).status = .sent at hsent
  by_cases heq : other = cell
  · subst heq
    rw [Function.update_self] at hsent
    exact h hsent
  · rwa [Function.update_of_ne heq] at hsent

theorem sent_checkReceipts {nows : Nat → F} {cell : Nat}
    (h : ((checkReceipts t nows s).cells cell).status = .sent) : (s.cells cell).status = .sent := by
  by_contra hne
  rw [cells_checkReceipts] at h
  refine absurd h (sweep_keeps (P := fun inner : Inner F K => inner.status ≠ .sent) ?_
    (sweep_keeps (P := fun inner : Inner F K => inner.status ≠ .sent) ?_ hne))
  · intro inner now hinner
    unfold checkTimeout
    rwa [if_pos hinner]
  · intro inner now hinner
    rwa [cull_of_ne hinner]

theorem passes_exec (task : Task F K) (nows : Nat → F) :
    Passes s (exec debug c t task nows s).core := by
  cases task with
  | select kind proof addressed => exact .refl s
  | validate kind proof r =>
      simp only [exec]
      obtain heq | ⟨-, inner', hstatus, heq⟩ := validateCandidate_cases c kind proof s r (nows r.cell)
      · rw [heq]
        exact .refl s
      · rw [heq]
        exact passes_put fun hsent => by rw [hstatus] at hsent; cases hsent
  | forget cell =>
      exact ⟨le_rfl, fun _ hr => .inl (List.mem_of_mem_filter hr), fun _ _ h => h⟩
  | send receipt sentAt timeout =>
      refine ⟨Nat.le_succ _, fun r hr => ?_, fun cell hcell hsent => ?_⟩
      · rcases List.mem_append.mp hr with hr | hr
        · exact .inl hr
        · rw [List.mem_singleton.mp hr]
          exact .inr ⟨rfl, Nat.lt_succ_self _⟩
      · change (Function.update s.cells s.next _ cell).status = .sent at hsent
        rwa [Function.update_of_ne (Nat.ne_of_lt hcell)] at hsent
  | check =>
      simp only [exec]
      refine ⟨le_of_eq (next_checkReceipts s).symm, fun r hr => .inl ?_, fun _ _ h =>
        sent_checkReceipts h⟩
      rw [receipts_checkReceipts] at hr
      exact List.mem_of_mem_drop (List.mem_of_mem_filter hr)
  | hold r event =>
      refine passes_put fun hsent => ?_
      cases hstep : step debug c t.toTimes r.receipt (s.cells r.cell) event with
      | none =>
          rw [hstep] at hsent
          exact hsent
      | some inner' =>
          rw [hstep, Option.getD_some] at hsent
          rcases moves_of_does (does_of_step hstep) with heq | hmoves
          · rw [← heq]
            exact hsent
          · rw [hsent] at hmoves
            generalize (s.cells r.cell).status = status at hmoves
            cases hmoves

/-- A task between two calls. -/
theorem live_task {s : Sending F K} (h : Live s) (task : Task F K) (nows : Nat → F) :
    Live { s with core := (exec debug c t task nows s.core).core } := by
  have hpasses : Passes s.core (exec debug c t task nows s.core).core := passes_exec task nows
  refine ⟨h.formed, h.generates, fun r hr => ?_, fun cell hcell => ?_, h.own, fun r hr hown hsent => ?_⟩
  · rcases hpasses.receipts r hr with hr | ⟨hr, hlt⟩
    · exact (h.used r hr).trans_le hpasses.next
    · rw [hr]
      exact hlt
  · exact (h.issued cell hcell).trans_le hpasses.next
  · have hcell : r.cell < s.core.next := h.issued r.cell hown
    rcases hpasses.receipts r hr with hr | ⟨hr, -⟩
    · exact h.carried r hr hown (hpasses.sent r.cell hcell hsent)
    · exact absurd hr (Nat.ne_of_lt hcell)

/-- A receipt that was just made is that of the frames. -/
theorem follows_pushed {a : Attempt F} {p p' : Outgoing} {issued : List Nat} {rest : Bytes}
    (hheaded : Wire.headerTypeOf p.packet.flags = p.packet.headerType)
    (hraw : p.packet.raw = p.packet.flags :: p.packet.hops :: rest)
    (hroutes : a.routes.isEmpty = false) :
    ReceiptFollows c a
      { result := .ok (some (newReceipt c p s))
        packet := p'
        core := pushReceipt s (newReceipt c p s).receipt a.now a.timeout
        frames := a.routes.map fun route => (route.1, frameFor p.packet route.2) } issued := by
  have hframes : a.routes.map (fun route => (route.1, frameFor p.packet route.2)) ≠ [] := by
    simpa using hroutes
  refine ⟨fun r hr => ?_, fun hnone => absurd hnone hframes⟩
  obtain rfl : newReceipt c p s = r := Option.some.inj (Except.ok.inj hr)
  have hcell : (pushReceipt s (newReceipt c p s).receipt a.now a.timeout).cells
      (newReceipt c p s).cell = Inner.fromParts a.now a.timeout := Function.update_self _ _ _
  have hmem : newReceipt c p s ∈
      (pushReceipt s (newReceipt c p s).receipt a.now a.timeout).receipts := by
    simp [pushReceipt, newReceipt]
  have hhash : ∀ frame ∈ a.routes.map (fun route => (route.1, frameFor p.packet route.2)),
      frameHash c frame.2 = (newReceipt c p s).receipt.hash := by
    intro frame hframe
    obtain ⟨route, -, rfl⟩ := List.mem_map.mp hframe
    exact frameHash_frameFor hheaded hraw route.2
  refine ⟨hframes, hmem, by rw [hcell]; rfl, by rw [hcell]; rfl, hhash, fun frame hframe => ?_⟩
  rw [hhash frame hframe]
  exact concludedBy_hash hmem (by rw [hcell]; rfl)

/-- After it the receipt is the one that the packet carries. -/
theorem live_pushed {s : Sending F K} (h : Live s) {now timeout : F} {p q : Outgoing}
    (hreceipt : s.packet.receipt = none) (hq : q.receipt = some (newReceipt c p s.core))
    (hkeeps : Keeps s.packet q) :
    Live
      { packet := q
        core := pushReceipt s.core (newReceipt c p s.core).receipt now timeout
        issued := s.issued ++ [s.core.next] } := by
  refine ⟨hkeeps.formed h.formed, hkeeps.generates.trans h.generates, fun r hr => ?_,
    fun cell hcell => ?_, fun r hr => ?_, fun r hr hown hsent => ?_⟩
  · rcases List.mem_append.mp hr with hr | hr
    · exact Nat.lt_succ_of_lt (h.used r hr)
    · rw [List.mem_singleton.mp hr]
      exact Nat.lt_succ_self _
  · rcases List.mem_append.mp hcell with hcell | hcell
    · exact Nat.lt_succ_of_lt (h.issued cell hcell)
    · rw [List.mem_singleton.mp hcell]
      exact Nat.lt_succ_self _
  · obtain rfl := Option.some.inj (hq.symm.trans hr)
    exact List.mem_append_right _ (List.mem_singleton.mpr rfl)
  · rcases List.mem_append.mp hr with hr | hr
    · -- An older receipt was tracked in SENT already.
      have hcell : r.cell < s.core.next := h.used r hr
      have hown : r.cell ∈ s.issued := by
        rcases List.mem_append.mp hown with hown | hown
        · exact hown
        · exact absurd (List.mem_singleton.mp hown) (Nat.ne_of_lt hcell)
      change (Function.update s.core.cells s.core.next _ r.cell).status = .sent at hsent
      rw [Function.update_of_ne (Nat.ne_of_lt hcell)] at hsent
      obtain ⟨carried, hcarried, -⟩ := h.carried r hr hown hsent
      rw [hreceipt] at hcarried
      cases hcarried
    · rw [List.mem_singleton.mp hr]
      exact ⟨_, hq, rfl⟩

/-- A call that finds no receipt follows the law. -/
theorem follows_of_finds {s : Sending F K} (h : Live s) (m : Method) (a : Attempt F)
    (hfinds : FindsNoReceipt c s (.call m a)) :
    CallFollows c s (.call m a) ∧ Live
      { packet := (call c m a s.packet s.core).packet, core := (call c m a s.packet s.core).core
        issued := s.issuedBy (call c m a s.packet s.core) } := by
  obtain ⟨-, hidle⟩ | ⟨htransmits, hroutes, packet, hhanded, heq⟩ := call_cases c m a s.packet s.core
  · -- Nothing is tracked in SENT for the packet, before and after.
    have hnone : ∀ r ∈ s.core.receipts, r.cell ∈ s.issued →
        (s.core.cells r.cell).status ≠ .sent := by
      intro r hr hown hsent
      obtain ⟨carried, hcarried, hcell⟩ := h.carried r hr hown hsent
      exact (hfinds carried hcarried).2 r hr hcell.symm (hcell.symm ▸ hsent)
    have hissued : s.issuedBy (call c m a s.packet s.core) = s.issued := by
      simp [Sending.issuedBy, hidle.core]
    dsimp only [CallFollows]
    rw [hissued]
    refine ⟨⟨fun r hr => absurd hr (hidle.result r), fun _ => ?_⟩, ?_⟩
    · rw [hidle.core]
      exact hnone
    · rw [hidle.core]
      refine ⟨hidle.keeps.formed h.formed, hidle.keeps.generates.trans h.generates, h.used, h.issued,
        fun r hr => ?_, fun r hr hown hsent => absurd hsent (hnone r hr hown)⟩
      rcases hidle.receipt with hsame | hgone
      · exact h.own r (hsame ▸ hr)
      · rw [hgone] at hr
        cases hr
  · have hreceipt : s.packet.receipt = none := by
      cases hcarried : s.packet.receipt with
      | none => rfl
      | some r => exact absurd (hfinds r hcarried).1 (by simp [htransmits])
    let p : Outgoing := { s.packet with packet := packet }
    have hkeeps : ∀ receipt, Keeps s.packet { p with sent := true, receipt := receipt } :=
      fun receipt => hhanded.keeps true receipt
    have hgenerates : p.shouldGenerateReceipt = true :=
      (hkeeps none).generates.trans h.generates
    have hcalled : call c m a s.packet s.core =
        { result := .ok (some (newReceipt c p s.core))
          packet := { p with sent := true, receipt := some (newReceipt c p s.core) }
          core := pushReceipt s.core (newReceipt c p s.core).receipt a.now a.timeout
          frames := a.routes.map fun route => (route.1, frameFor packet route.2) } := by
      rw [heq]
      unfold transmit
      rw [if_neg (by simp [hroutes])]
      dsimp only
      rw [if_pos (by rw [Bool.and_eq_true]; exact ⟨hgenerates, by rw [hreceipt]; rfl⟩)]
    have hissued : s.issuedBy (call c m a s.packet s.core) = s.issued ++ [s.core.next] := by
      simp [Sending.issuedBy, hcalled, pushReceipt]
    dsimp only [CallFollows]
    rw [hissued, hcalled]
    have hformed := (hkeeps none).formed h.formed
    obtain ⟨rest, hraw⟩ := hhanded.raw h.formed
    exact ⟨follows_pushed hformed.headed hraw hroutes, live_pushed h hreceipt rfl (hkeeps _)⟩

/-- The clock has moved on since the receipt that the packet carries was made. -/
def ClockMoved (s : Sending F K) : SendEvent F K → Prop
  | .call _ a => ∀ r, s.packet.receipt = some r → (s.core.cells r.cell).sentAt ≠ a.now
  | .task _ _ => True

/-- A call that follows the law finds no receipt, if the clock has moved on. -/
theorem finds_of_follows {s : Sending F K} (h : Live s) (m : Method) (a : Attempt F)
    (hclock : ClockMoved s (.call m a)) (hfollows : CallFollows c s (.call m a)) :
    FindsNoReceipt c s (.call m a) := by
  intro r hr
  obtain ⟨hidle, hcalled⟩ | ⟨-, hroutes, packet, -, heq⟩ := call_cases c m a s.packet s.core
  · refine ⟨hidle, fun r' hr' hcell => ?_⟩
    have hquiet := hfollows.2 hcalled.frames r' (by rw [hcalled.core]; exact hr')
      (List.mem_append_left _ (hcell ▸ h.own r hr))
    rwa [hcalled.core, hcell] at hquiet
  · have hcalled : (call c m a s.packet s.core).result = .ok (some r) ∧
        (call c m a s.packet s.core).core = s.core := by
      rw [heq]
      unfold transmit
      rw [if_neg (by simp [hroutes])]
      dsimp only
      rw [if_neg (by simp [hr]), hr]
      exact ⟨rfl, rfl⟩
    have hsince := (hfollows.1 r hcalled.1).since
    rw [hcalled.2] at hsince
    exact absurd hsince (hclock r hr)

end Step

/-! ## The runs of a packet -/

/-- A packet that generates receipts and carries none. -/
structure Starts (s : Sending F K) : Prop where
  formed : Formed s.packet.packet
  generates : s.packet.shouldGenerateReceipt = true
  receipt : s.packet.receipt = none
  issued : s.issued = []
  used : ∀ r ∈ s.core.receipts, r.cell < s.core.next

theorem Starts.live {s : Sending F K} (h : Starts s) : Live s := by
  have hissued : ∀ cell, cell ∉ s.issued := by simp [h.issued]
  refine ⟨h.formed, h.generates, h.used, fun cell hcell => absurd hcell (hissued cell), fun r hr => ?_,
    fun r _ hown => absurd hown (hissued r.cell)⟩
  rw [h.receipt] at hr
  cases hr

/-- A packet of `Packet::new` whose fields fit their places. -/
theorem formed_draft {d : Wire.Draft} (hd : d.WellFormed) : Formed d.packet := by
  refine ⟨?_, fun h => by cases h⟩
  rw [d.flags_packet]
  exact (Wire.fields_packFlags hd.headerType hd.contextFlag hd.transportType hd.packetType _).1

/-- In every run in which no call finds a receipt on the packet, the receipts follow the
frames; and a run in which they do, while the clock moves on, is such a run. -/
theorem receiptsFollow (debug : Bool) (c : Crypto) (t : Clock F) {s : Sending F K} (hs : Starts s)
    (es : List (SendEvent F K)) :
    (Runs.Meets (sendStep debug c t) (FindsNoReceipt c) s es →
      Runs.Meets (sendStep debug c t) (CallFollows c) s es) ∧
    (Runs.Meets (sendStep debug c t) ClockMoved s es →
      Runs.Meets (sendStep debug c t) (CallFollows c) s es →
      Runs.Meets (sendStep debug c t) (FindsNoReceipt c) s es) := by
  have hkeep : ∀ (s : Sending F K) e s', Live s → FindsNoReceipt c s e →
      sendStep debug c t s e = some s' → Live s' := by
    intro s e s' hlive hfinds hstep
    cases e with
    | call m a =>
        obtain rfl := Option.some.inj hstep
        exact (follows_of_finds hlive m a hfinds).2
    | task task nows =>
        obtain rfl := Option.some.inj hstep
        exact live_task hlive task nows
  have hfinds : ∀ (s : Sending F K) e, Live s → CallFollows c s e ∧ ClockMoved s e →
      FindsNoReceipt c s e := by
    intro s e hlive hboth
    cases e with
    | call m a => exact finds_of_follows hlive m a hboth.2 hboth.1
    | task task nows => exact True.intro
  constructor
  · refine Runs.meets_of_meets hkeep (fun s e hlive hcond => ?_) hs.live
    cases e with
    | call m a => exact (follows_of_finds hlive m a hcond).1
    | task task nows => exact True.intro
  · intro hclock hfollows
    exact Runs.meets_of_meets (fun s e s' hlive hboth => hkeep s e s' hlive (hfinds s e hlive hboth))
      hfinds hs.live (Runs.meets_and hfollows hclock)

section Samples

/-- Three bytes for a single destination. -/
def messageDraft : Wire.Draft :=
  { destination :=
      { hash := (Link.pad Wire.dstLen [1]).1, destType := .single, mtu := none, encrypt := .ok }
    data := [1, 2, 3], packetType := Wire.data, context := 0, transportType := 0
    headerType := Wire.header1, transportId := none, contextFlag := 0, hops := 0 }

/-- A new packet, and no tracked receipts. -/
def newMessage : Sending Int Nat :=
  { packet :=
      { packet := messageDraft.packet, identity := some (List.replicate 64 7), createReceipt := true
        sent := false, receipt := none }
    core := { receipts := [], cells := fun _ => Inner.fromParts 0 0, next := 0 }
    issued := [] }

/-- An attempt at a time, with some ciphertext, and an interface or none. -/
def attemptAt (now : Int) (ciphertext : Bytes) (interfaces : List String) : Attempt Int :=
  { encrypt := fun _ => .ok ciphertext, routes := interfaces.map fun name => (name, none)
    now := now, timeout := 6 }

theorem starts_newMessage : Starts newMessage := by
  have hd : messageDraft.WellFormed :=
    { hash := by decide
      packetType := by decide
      headerType := by decide
      transportType := by decide
      contextFlag := by decide
      hops := by decide
      transportId := fun h => absurd h (by decide)
      lrproof := fun h => absurd h (by decide) }
  exact ⟨formed_draft hd, by decide, rfl, rfl, by simp [newMessage]⟩

/-- A packet that no interface takes, and that is sent when there is one. -/
theorem receiptsFollow_sample :
    Runs.Meets (sendStep false (Link.sampleCrypto []) secondsClock)
      (CallFollows (Link.sampleCrypto [])) newMessage
      [.call .send (attemptAt 10 [5] []), .call .send (attemptAt 20 [6] ["lan"])] := by
  refine (receiptsFollow false (Link.sampleCrypto []) secondsClock starts_newMessage _).1 ?_
  intro s hs
  obtain rfl := Option.some.inj hs
  refine ⟨finds_of_none rfl, fun s' _ => ⟨finds_of_none rfl, True.intro⟩⟩

/-- A packet that is sent again: its receipt is that of the frame before. -/
theorem receiptsFollow_false :
    ¬ ∀ (debug : Bool) (c : Crypto) (t : Clock Int) (s : Sending Int Nat), Starts s →
      ∀ es, Runs.Meets (sendStep debug c t) (CallFollows c) s es := by
  intro h
  have hmeets := h false (Link.sampleCrypto []) secondsClock newMessage starts_newMessage
    [.call .send (attemptAt 10 [5] ["lan"]), .call .resend (attemptAt 100 [6] ["lan"])]
  obtain ⟨-, hrest⟩ := hmeets _ rfl
  obtain ⟨⟨hreceipt, -⟩, -⟩ := hrest _ rfl
  have hhash := (hreceipt _ rfl).hash _ List.mem_cons_self
  exact absurd hhash (by decide)

end Samples

end Reticulum.Receipt.Tracking
