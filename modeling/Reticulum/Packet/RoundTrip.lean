import Reticulum.Link.Rejection
import Reticulum.Packet.Frame

/-!
# The round trip of a packet

What `pack` writes is the frame of the packet's fields, so `unpack` reads them
back. In the other direction the fields that `unpack` reads give the bytes back,
but for the top bit of the flag byte, which belongs to no field
(`reserialise_unpack`). `roundTrip` has both directions.
-/

namespace Reticulum.Wire

open Bytes

/-- The arguments of `Packet::new`, and the hops of the packet. -/
structure Draft where
  destination : Destination
  data : Bytes
  packetType : UInt8
  context : UInt8
  transportType : UInt8
  headerType : UInt8
  transportId : Option Bytes
  contextFlag : UInt8
  hops : UInt8

namespace Draft

/-- The packet of a draft. -/
def packet (d : Draft) : Packet :=
  { Packet.new d.destination d.data d.packetType d.context d.transportType d.headerType
      d.transportId d.contextFlag with hops := d.hops }

/-- Every field fits its place in the frame, and a link proof has one
address. -/
structure WellFormed (d : Draft) : Prop where
  hash : d.destination.hash.length = dstLen
  packetType : d.packetType ≤ 3
  headerType : d.headerType ≤ 1
  transportType : d.transportType ≤ 1
  contextFlag : d.contextFlag ≤ 1
  hops : d.hops < pathfinderM
  transportId : d.headerType = header2 → ∃ id, d.transportId = some id ∧ id.length = dstLen
  lrproof : d.context = lrproof → d.headerType = header1

/-- The destination type that the flag byte carries. -/
def destType (d : Draft) : DestinationType :=
  if d.context = Wire.lrproof then .link else d.destination.destType

end Draft

/-! ## The flag byte -/

/-- The fields of a flag byte, read back. -/
theorem fields_packFlags_fin : ∀ (h f t : Fin 2) (d : DestinationType) (p : Fin 4),
    let flags := Packet.packFlags (.ofNat h) (.ofNat f) (.ofNat t) d (.ofNat p)
    headerTypeOf flags = .ofNat h ∧ (flags &&& 0x20) >>> 5 = .ofNat f ∧
      (flags &&& 0x10) >>> 4 = .ofNat t ∧
      DestinationType.ofUInt8 ((flags &&& 0x0C) >>> 2) = some d ∧ flags &&& 0x03 = .ofNat p := by
  intro h f t d p
  cases d <;> revert h f t p <;> decide

theorem exists_fin_of_lt {n : Nat} {x : UInt8} (h : x.toNat < n) : ∃ i : Fin n, x = .ofNat i :=
  ⟨⟨x.toNat, h⟩, by simp⟩

theorem fields_packFlags {h f t p : UInt8} (hh : h ≤ 1) (hf : f ≤ 1) (ht : t ≤ 1) (hp : p ≤ 3)
    (d : DestinationType) :
    headerTypeOf (Packet.packFlags h f t d p) = h ∧
      (Packet.packFlags h f t d p &&& 0x20) >>> 5 = f ∧
      (Packet.packFlags h f t d p &&& 0x10) >>> 4 = t ∧
      DestinationType.ofUInt8 ((Packet.packFlags h f t d p &&& 0x0C) >>> 2) = some d ∧
      Packet.packFlags h f t d p &&& 0x03 = p := by
  have hlt : ∀ {x : UInt8}, x ≤ 1 → x.toNat < 2 := fun hx => Nat.lt_succ_of_le hx
  obtain ⟨h, rfl⟩ := exists_fin_of_lt (hlt hh)
  obtain ⟨f, rfl⟩ := exists_fin_of_lt (hlt hf)
  obtain ⟨t, rfl⟩ := exists_fin_of_lt (hlt ht)
  obtain ⟨p, rfl⟩ := exists_fin_of_lt (Nat.lt_succ_of_le hp : p.toNat < 4)
  exact fields_packFlags_fin h f t d p

/-- The flag byte of the fields of a flag byte. -/
theorem packFlags_fields (flags : UInt8) (d : DestinationType)
    (hd : DestinationType.ofUInt8 ((flags &&& 0x0C) >>> 2) = some d) :
    Packet.packFlags (headerTypeOf flags) ((flags &&& 0x20) >>> 5) ((flags &&& 0x10) >>> 4) d
      (flags &&& 0x03) = flags &&& 0x7F := by
  obtain ⟨n, rfl⟩ := exists_fin_of_lt flags.toNat_lt
  revert hd n
  cases d <;> decide +kernel

/-! ## From the packet to the bytes and back -/

variable {c : Crypto} {d : Draft} {p q u : Packet}

theorem Draft.flags_packet (d : Draft) : d.packet.flags =
    Packet.packFlags d.headerType d.contextFlag d.transportType d.destType d.packetType := by
  unfold Draft.destType
  change Packet.getPackedFlags _ = _
  unfold Packet.getPackedFlags
  dsimp only
  split
  · rfl
  · rfl

/-- The addresses that `pack` writes. -/
def Draft.addresses (d : Draft) : Bytes :=
  (if d.headerType = header2 then d.transportId.getD [] else []) ++ d.destination.hash

theorem header_cases {x : UInt8} (h : x ≤ 1) : x = header1 ∨ x = header2 := by
  obtain ⟨i, rfl⟩ := exists_fin_of_lt (Nat.lt_succ_of_le h : x.toNat < 2)
  revert i
  decide

theorem addresses_of_packBody (hd : d.WellFormed) {addresses : Bytes} {ciphertext : Option Bytes}
    (h : d.packet.packBody d.destination = .ok (addresses, ciphertext)) :
    addresses = d.addresses := by
  unfold Packet.packBody at h
  unfold Draft.addresses
  change (if d.context = lrproof then _ else if d.headerType = header1 then _ else _) = _ at h
  split at h
  · rename_i hcontext
    rw [if_neg (by rw [hd.lrproof hcontext]; decide)]
    exact (congrArg Prod.fst (Except.ok.inj h)).symm
  split at h
  · rename_i hheader
    rw [if_neg (by rw [hheader]; decide)]
    split at h
    · exact (congrArg Prod.fst (Except.ok.inj h)).symm
    · cases hencrypt : d.destination.encrypt d.packet.data with
      | error e =>
          rw [hencrypt] at h
          cases h
      | ok encrypted =>
          rw [hencrypt] at h
          exact (congrArg Prod.fst (Except.ok.inj h)).symm
  · rename_i hheader
    have hheader2 : d.headerType = header2 := (header_cases hd.headerType).resolve_left hheader
    obtain ⟨id, hid, -⟩ := hd.transportId hheader2
    have hid' : d.packet.transportId = some id := hid
    rw [if_pos (show d.packet.headerType = header2 from hheader2), hid'] at h
    rw [if_pos hheader2, hid]
    exact (congrArg Prod.fst (Except.ok.inj h)).symm

/-- What a packed packet holds. -/
theorem raw_of_pack (hd : d.WellFormed) (h : d.packet.pack c = .ok q) :
    q.raw = d.packet.flags :: d.hops :: (d.addresses ++ d.context :: q.ciphertext.getD []) ∧
      q.headerType = d.headerType ∧ q.packetHash = some (q.getHash c) := by
  unfold Packet.pack at h
  change Except.bind (d.packet.packBody d.destination) _ = _ at h
  cases hbody : d.packet.packBody d.destination with
  | error e =>
      rw [hbody] at h
      cases h
  | ok body =>
      rw [hbody] at h
      obtain ⟨addresses, ciphertext⟩ := body
      obtain rfl := addresses_of_packBody hd hbody
      dsimp only [Except.bind] at h
      split at h
      · cases h
      · obtain rfl := Except.ok.inj h
        refine ⟨?_, rfl, rfl⟩
        change [d.packet.flags, d.hops] ++ d.addresses ++ [d.context] ++ ciphertext.getD [] =
          d.packet.flags :: d.hops :: (d.addresses ++ d.context :: ciphertext.getD [])
        simp

/-- A packed packet holds the frame of its draft. -/
theorem frame_of_pack {ciphertext : Bytes} (hd : d.WellFormed) (h : d.packet.pack c = .ok q)
    (hciphertext : q.ciphertext = some ciphertext) (hne : ciphertext ≠ []) :
    ∃ f : Frame, q.raw = f.encode ∧ f.flags = d.packet.flags ∧ f.hops = d.hops ∧
      f.transportId.map Subtype.val = (if d.headerType = header2 then d.transportId else none) ∧
      f.destinationHash.1 = d.destination.hash ∧ f.context = d.context ∧ f.data = ciphertext := by
  obtain ⟨hraw, -, -⟩ := raw_of_pack hd h
  rw [hciphertext] at hraw
  have hflags : headerTypeOf d.packet.flags = d.headerType := by
    rw [d.flags_packet]
    exact (fields_packFlags hd.headerType hd.contextFlag hd.transportType hd.packetType _).1
  by_cases hheader : d.headerType = header2
  · obtain ⟨id, hid, hlength⟩ := hd.transportId hheader
    refine ⟨{ flags := d.packet.flags, hops := d.hops, transportId := some ⟨id, hlength⟩
              destinationHash := ⟨d.destination.hash, hd.hash⟩, context := d.context
              data := ciphertext, headerType := by simpa [hflags] using hheader
              hops_lt := hd.hops, data_ne := hne }, ?_, rfl, rfl, ?_, rfl, rfl, rfl⟩
    · rw [hraw]
      unfold Draft.addresses
      rw [if_pos hheader, hid]
      rfl
    · rw [if_pos hheader, hid]
      rfl
  · refine ⟨{ flags := d.packet.flags, hops := d.hops, transportId := none
              destinationHash := ⟨d.destination.hash, hd.hash⟩, context := d.context
              data := ciphertext, headerType := by simpa [hflags] using hheader
              hops_lt := hd.hops, data_ne := hne }, ?_, rfl, rfl, ?_, rfl, rfl, rfl⟩
    · rw [hraw]
      unfold Draft.addresses
      rw [if_neg hheader]
      rfl
    · rw [if_neg hheader]
      rfl

/-- The fields of a packet, written in the order of the frame. -/
def Packet.reserialise (p : Packet) : Bytes :=
  packFlags p.headerType p.contextFlag p.transportType (p.destinationType.getD .plain)
      p.packetType ::
    p.hops :: (p.transportId.getD [] ++ p.destinationHash.getD [] ++ p.context :: p.data)

theorem exists_destType (flags : UInt8) :
    ∃ d, DestinationType.ofUInt8 ((flags &&& 0x0C) >>> 2) = some d := by
  obtain ⟨n, rfl⟩ := exists_fin_of_lt flags.toNat_lt
  have hsome : ∀ n : Fin (2 ^ 8),
      (DestinationType.ofUInt8 ((UInt8.ofNat n &&& 0x0C) >>> 2)).isSome = true := by
    decide +kernel
  exact Option.isSome_iff_exists.mp (hsome n)

/-- The fields that `unpack` reads give the bytes back, but for the top bit. -/
theorem reserialise_unpack (h : p.unpack c = some u) :
    ∃ flags rest, p.raw = flags :: rest ∧ u.flags = flags ∧
      u.reserialise = (flags &&& 0x7F) :: rest := by
  obtain ⟨f, hraw, rfl⟩ := Frame.unpack_eq_some_iff.mp h
  obtain ⟨d, hd⟩ := exists_destType f.flags
  refine ⟨f.flags, _, hraw, rfl, ?_⟩
  unfold Packet.reserialise
  rw [← packFlags_fields f.flags d hd]
  change Packet.packFlags _ _ _ ((DestinationType.ofUInt8 _).getD .plain) _ :: _ = _
  rw [hd]
  rfl

/-- A packet that was read has the fields of the draft it was packed from. A
frame of one address has no transport id. -/
structure Draft.ReadAs (d : Draft) (ciphertext : Bytes) (packetHash : Option Bytes)
    (u : Packet) : Prop where
  headerType : u.headerType = d.headerType
  contextFlag : u.contextFlag = d.contextFlag
  transportType : u.transportType = d.transportType
  packetType : u.packetType = d.packetType
  hops : u.hops = d.hops
  context : u.context = d.context
  transportId : u.transportId = if d.headerType = header2 then d.transportId else none
  destinationHash : u.destinationHash = some d.destination.hash
  data : u.data = ciphertext
  destinationType : u.destinationType = some d.destType
  packetHash : u.packetHash = packetHash

theorem readAs_of_pack {ciphertext : Bytes} (hd : d.WellFormed) (h : d.packet.pack c = .ok q)
    (hciphertext : q.ciphertext = some ciphertext) (hne : ciphertext ≠ []) (hraw : p.raw = q.raw) :
    ∃ u, p.unpack c = some u ∧ d.ReadAs ciphertext q.packetHash u := by
  obtain ⟨f, hencode, hflags, hhops, htransport, hdest, hcontext, hdata⟩ :=
    frame_of_pack hd h hciphertext hne
  obtain ⟨-, hheader, hhash⟩ := raw_of_pack hd h
  have hfields := fields_packFlags hd.headerType hd.contextFlag hd.transportType hd.packetType
    d.destType
  rw [← d.flags_packet, ← hflags] at hfields
  obtain ⟨hheaderType, hcontextFlag, htransportType, hdestType, hpacketType⟩ := hfields
  refine ⟨f.fill c p, Frame.unpack_encode (hraw.trans hencode), ?_⟩
  constructor
  · exact hheaderType
  · exact hcontextFlag
  · exact htransportType
  · exact hpacketType
  · exact hhops
  · exact hcontext
  · exact htransport
  · exact congrArg some hdest
  · exact hdata
  · exact hdestType
  · rw [hhash]
    unfold Packet.getHash
    rw [Frame.hashablePart_of_raw hencode (hheader.trans hheaderType.symm)]
    rfl

theorem top_bit_clear_iff (flags : UInt8) : flags &&& 0x7F = flags ↔ flags < 128 := by
  obtain ⟨n, rfl⟩ := exists_fin_of_lt flags.toNat_lt
  revert n
  decide +kernel

/-- A packet that was packed with data is read with the same fields, and a
packet that was read is written as it was, unless the top bit of its flag byte
is set. -/
theorem roundTrip (c : Crypto) :
    (∀ (d : Draft) (q p : Packet) (ciphertext : Bytes), d.WellFormed → d.packet.pack c = .ok q →
      q.ciphertext = some ciphertext → ciphertext ≠ [] → p.raw = q.raw →
      ∃ u, p.unpack c = some u ∧ d.ReadAs ciphertext q.packetHash u) ∧
    ∀ p u : Packet, p.unpack c = some u →
      ∃ flags rest, p.raw = flags :: rest ∧ u.reserialise = (flags &&& 0x7F) :: rest ∧
        (u.reserialise = p.raw ↔ flags < 128) := by
  constructor
  · intro d q p ciphertext hd h hciphertext hne hraw
    exact readAs_of_pack hd h hciphertext hne hraw
  · intro p u h
    obtain ⟨flags, rest, hraw, -, hserial⟩ := reserialise_unpack h
    refine ⟨flags, rest, hraw, hserial, ?_⟩
    rw [hserial, hraw, ← top_bit_clear_iff]
    simp

/-- A keepalive to a link, with a transport id that a frame of one address does
not carry. -/
def sampleDraft : Draft :=
  { destination :=
      { hash := (Link.pad dstLen [1]).1, destType := .link, mtu := some 500, encrypt := .ok }
    data := [0xFF], packetType := data, context := Reticulum.Packet.keepalive, transportType := 0
    headerType := header1, transportId := some (Link.pad dstLen [2]).1, contextFlag := 1, hops := 3 }

theorem wellFormed_sampleDraft : sampleDraft.WellFormed where
  hash := by decide
  packetType := by decide
  headerType := by decide
  transportType := by decide
  contextFlag := by decide
  hops := by decide
  transportId := nofun
  lrproof := nofun

/-- The keepalive is read as it was packed. -/
theorem roundTrip_keepalive : sampleDraft.WellFormed ∧ ∃ q u,
    sampleDraft.packet.pack (Link.sampleCrypto []) = .ok q ∧
    (Packet.holding q.raw none).unpack (Link.sampleCrypto []) = some u ∧
    sampleDraft.ReadAs [0xFF] q.packetHash u := by
  refine ⟨wellFormed_sampleDraft, ?_⟩
  obtain ⟨q, hq, hciphertext⟩ : ∃ q, sampleDraft.packet.pack (Link.sampleCrypto []) = .ok q ∧
      q.ciphertext = some [0xFF] := ⟨_, rfl, rfl⟩
  obtain ⟨u, hu, hread⟩ := (roundTrip (Link.sampleCrypto [])).1 sampleDraft q (.holding q.raw none)
    [0xFF] wellFormed_sampleDraft hq hciphertext (by decide) rfl
  exact ⟨q, u, hq, hu, hread⟩

/-- A frame of one address drops the transport id of its packet, and a frame
whose top bit is set is not written as it was read. -/
theorem roundTrip_false :
    (∃ q u, sampleDraft.packet.pack (Link.sampleCrypto []) = .ok q ∧
      (Packet.holding q.raw none).unpack (Link.sampleCrypto []) = some u ∧
      u.transportId ≠ sampleDraft.transportId) ∧
    ∃ u, (Packet.holding (0x80 :: 0 :: (Link.pad dstLen [1]).1 ++ [0, 7]) none).unpack
        (Link.sampleCrypto []) = some u ∧
      u.reserialise = 0x00 :: 0 :: (Link.pad dstLen [1]).1 ++ [0, 7] := by
  refine ⟨⟨_, _, rfl, rfl, ?_⟩, _, rfl, ?_⟩
  · exact nofun
  · decide

end Reticulum.Wire
