import Reticulum.Packet.Wire

/-!
# Frames

`Frame` is what a byte string says that `Packet::unpack` accepts: its fields,
with the invariants that `unpack` checks. `Frame.encode` writes it back. The
packet that `unpack` returns is the one that holds the fields of the frame
(`unpack_eq_some_iff`), so that a change of the bytes is a change of the frame.
-/

namespace Reticulum.Wire

open Bytes

/-- The fields of a well-formed frame. -/
structure Frame where
  flags : UInt8
  hops : UInt8
  transportId : Option (Block dstLen)
  destinationHash : Block dstLen
  context : UInt8
  data : Bytes
  headerType : headerTypeOf flags = header2 ↔ transportId.isSome = true
  hops_lt : hops < pathfinderM
  data_ne : data ≠ []

namespace Frame

/-- The transport id as bytes: none in a frame of one address. -/
def transportBytes (f : Frame) : Bytes := (f.transportId.map Subtype.val).getD []

/-- The bytes of a frame. -/
def encode (f : Frame) : Bytes :=
  f.flags :: f.hops :: (f.transportBytes ++ f.destinationHash.1 ++ f.context :: f.data)

/-- What the hash of a packet is taken over. -/
def hashable (f : Frame) : Bytes :=
  (f.flags &&& 0x0F) :: (f.destinationHash.1 ++ f.context :: f.data)

/-- The packet with the fields of a frame. -/
def fill (c : Crypto) (p : Packet) (f : Frame) : Packet :=
  { p with
    flags := f.flags, hops := f.hops
    headerType := headerTypeOf f.flags
    contextFlag := (f.flags &&& 0x20) >>> 5
    transportType := (f.flags &&& 0x10) >>> 4
    packetType := f.flags &&& 0x03
    destinationType := DestinationType.ofUInt8 ((f.flags &&& 0x0C) >>> 2)
    transportId := f.transportId.map Subtype.val
    destinationHash := some f.destinationHash.1
    context := f.context, data := f.data, packed := false
    packetHash := some (c.fullHash f.hashable).1 }

variable {c : Crypto} {p u : Packet} {f : Frame}

theorem hashablePart_of_raw (hraw : p.raw = f.encode)
    (htype : p.headerType = headerTypeOf f.flags) :
    p.getHashablePart = f.hashable := by
  have htransport := f.headerType
  unfold Packet.getHashablePart
  rw [hraw, htype]
  unfold encode hashable transportBytes
  dsimp only
  cases hid : f.transportId with
  | none =>
      rw [hid] at htransport
      rw [if_neg (by simpa using htransport)]
      rfl
  | some transportId =>
      rw [hid] at htransport
      rw [if_pos (by simpa using htransport)]
      have hlength : transportId.1.length = dstLen := transportId.2
      simp [hlength]

theorem updateHash_of_raw (hraw : p.raw = f.encode) (htype : p.headerType = headerTypeOf f.flags) :
    p.updateHash c = { p with packetHash := some (c.fullHash f.hashable).1 } := by
  unfold Packet.updateHash Packet.getHash
  rw [hashablePart_of_raw hraw htype]

/-- The end of `unpack` on bytes that are cut at the right places. -/
theorem unpackBody_append {front dest data : Bytes} {context : UInt8} {offset : Nat}
    (hraw : p.raw = front ++ (dest ++ context :: data)) (hfront : front.length = offset)
    (hdest : dest.length = dstLen) (hdata : data ≠ []) (transportId : Option Bytes) :
    p.unpackBody c transportId offset = some (Packet.updateHash c { p with
      transportId := transportId, destinationHash := some dest, context := context, data := data
      packed := false }) := by
  have hlength : p.raw.length = offset + dstLen + 1 + data.length := by
    rw [hraw]
    simp only [List.length_append, List.length_cons, hfront, hdest]
    omega
  have hdrop : p.raw.drop offset = dest ++ context :: data := by
    rw [hraw, ← hfront, List.drop_left]
  have hrest : p.raw.drop (offset + dstLen) = context :: data := by
    rw [← List.drop_drop, hdrop, ← hdest, List.drop_left]
  have hcontext : p.raw.getD (offset + dstLen) 0 = context := by
    rw [List.getD_eq_getElem?_getD, ← List.head?_drop, hrest]
    rfl
  have hdata' : p.raw.drop (offset + dstLen + 1) = data := by
    rw [← List.drop_drop, hrest]
    rfl
  have htake : (p.raw.drop offset).take dstLen = dest := by
    rw [hdrop, ← hdest, List.take_left]
  unfold Packet.unpackBody
  rw [if_neg (by omega)]
  simp only [hcontext, hdata', htake, if_neg hdata]

/-- `unpack` accepts the bytes of every frame, and reads its fields. -/
theorem unpack_encode (hraw : p.raw = f.encode) : p.unpack c = some (f.fill c p) := by
  have htransport := f.headerType
  have hdest : f.destinationHash.1.length = dstLen := f.destinationHash.2
  have hcons : p.raw = f.flags :: f.hops :: (f.transportBytes ++ f.destinationHash.1 ++
      f.context :: f.data) := hraw
  unfold Packet.unpack
  rw [hcons]
  dsimp only
  rw [if_neg (UInt8.not_le.mpr f.hops_lt)]
  cases hid : f.transportId with
  | none =>
      rw [hid] at htransport
      have htype : headerTypeOf f.flags ≠ header2 := by simpa using htransport
      have hcut : (p.readFlags f.flags f.hops).raw =
          [f.flags, f.hops] ++ (f.destinationHash.1 ++ f.context :: f.data) := by
        rw [transportBytes, hid] at hcons
        exact hcons
      have hfront : [f.flags, f.hops].length = 2 := rfl
      rw [if_neg htype, unpackBody_append hcut hfront hdest f.data_ne,
        updateHash_of_raw (f := f) (by exact hraw) (by rfl)]
      unfold fill
      rw [hid]
      rfl
  | some transportId =>
      rw [hid] at htransport
      have htype : headerTypeOf f.flags = header2 := by simpa using htransport
      have hcut : (p.readFlags f.flags f.hops).raw =
          f.flags :: f.hops :: transportId.1 ++ (f.destinationHash.1 ++ f.context :: f.data) := by
        rw [transportBytes, hid, List.append_assoc] at hcons
        exact hcons
      have hfront : (f.flags :: f.hops :: transportId.1).length = 2 + dstLen := by
        rw [List.length_cons, List.length_cons, transportId.2]
        rfl
      have htake : (f.transportBytes ++ f.destinationHash.1 ++ f.context :: f.data).take dstLen =
          transportId.1 := by
        simp [transportBytes, hid, transportId.2]
      rw [if_pos htype, htake, unpackBody_append hcut hfront hdest f.data_ne,
        updateHash_of_raw (f := f) (by exact hraw) (by rfl)]
      unfold fill
      rw [hid]
      rfl

/-- What the end of `unpack` accepts is cut at the right places. -/
theorem exists_of_unpackBody {transportId : Option Bytes} {offset : Nat}
    (h : p.unpackBody c transportId offset = some u) :
    ∃ front dest context data, p.raw = front ++ (dest ++ context :: data) ∧
      front.length = offset ∧ dest.length = dstLen ∧ data ≠ [] := by
  unfold Packet.unpackBody at h
  split at h
  · cases h
  rename_i hlength
  dsimp only at h
  split at h
  · cases h
  rename_i hdata
  have hfront : p.raw = p.raw.take offset ++ p.raw.drop offset :=
    (List.take_append_drop offset p.raw).symm
  have hdest : p.raw.drop offset =
      (p.raw.drop offset).take dstLen ++ p.raw.drop (offset + dstLen) := by
    rw [← List.drop_drop]
    exact (List.take_append_drop dstLen _).symm
  have hcontext : p.raw.drop (offset + dstLen) =
      p.raw[offset + dstLen] :: p.raw.drop (offset + dstLen + 1) :=
    List.drop_eq_getElem_cons (by omega)
  refine ⟨p.raw.take offset, (p.raw.drop offset).take dstLen, p.raw[offset + dstLen],
    p.raw.drop (offset + dstLen + 1), ?_, ?_, ?_, hdata⟩
  · rw [← hcontext, ← hdest, ← hfront]
  · rw [List.length_take]
    omega
  · rw [List.length_take, List.length_drop]
    omega

/-- `unpack` accepts only the bytes of frames. -/
theorem exists_frame_of_unpack (h : p.unpack c = some u) : ∃ f : Frame, p.raw = f.encode := by
  unfold Packet.unpack at h
  split at h
  swap
  · cases h
  rename_i flags hops rest hraw
  split at h
  · cases h
  rename_i hhops
  split at h
  · rename_i htype
    obtain ⟨front, dest, context, data, hcut, hfront, hdest, hdata⟩ := exists_of_unpackBody h
    have hfront' : front = flags :: hops :: front.drop 2 := by
      have hcut' : flags :: hops :: rest = front ++ (dest ++ context :: data) := hraw ▸ hcut
      match front, hfront, hcut' with
      | a :: b :: tail, _, hcut' =>
          obtain ⟨rfl, htail⟩ := List.cons.inj hcut'
          obtain ⟨rfl, -⟩ := List.cons.inj htail
          rfl
    have hlength : (front.drop 2).length = dstLen := by
      rw [List.length_drop, hfront]
      rfl
    refine ⟨{ flags := flags, hops := hops, transportId := some ⟨front.drop 2, hlength⟩
              destinationHash := ⟨dest, hdest⟩, context := context, data := data
              headerType := by simpa using htype
              hops_lt := UInt8.not_le.mp hhops, data_ne := hdata }, ?_⟩
    change p.raw = flags :: hops :: (front.drop 2 ++ dest ++ context :: data)
    change p.raw = _ at hcut
    rw [hcut, hfront']
    simp
  · rename_i htype
    obtain ⟨front, dest, context, data, hcut, hfront, hdest, hdata⟩ := exists_of_unpackBody h
    have hfront' : front = [flags, hops] := by
      have hcut' : flags :: hops :: rest = front ++ (dest ++ context :: data) := hraw ▸ hcut
      match front, hfront, hcut' with
      | [a, b], _, hcut' =>
          obtain ⟨rfl, htail⟩ := List.cons.inj hcut'
          obtain ⟨rfl, -⟩ := List.cons.inj htail
          rfl
    refine ⟨{ flags := flags, hops := hops, transportId := none
              destinationHash := ⟨dest, hdest⟩, context := context, data := data
              headerType := by simpa using htype
              hops_lt := UInt8.not_le.mp hhops, data_ne := hdata }, ?_⟩
    change p.raw = flags :: hops :: ([] ++ dest ++ context :: data)
    change p.raw = _ at hcut
    rw [hcut, hfront']
    simp

/-- The frames that a packet holds are what `unpack` reads. -/
theorem unpack_eq_some_iff :
    p.unpack c = some u ↔ ∃ f : Frame, p.raw = f.encode ∧ u = f.fill c p := by
  constructor
  · intro h
    obtain ⟨f, hraw⟩ := exists_frame_of_unpack h
    refine ⟨f, hraw, ?_⟩
    rw [unpack_encode hraw] at h
    exact (Option.some.inj h).symm
  · rintro ⟨f, hraw, rfl⟩
    exact unpack_encode hraw

end Frame

end Reticulum.Wire
