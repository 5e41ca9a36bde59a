import Reticulum.Link.Agreement
import Reticulum.Packet.RoundTrip
import Reticulum.Transport.Forward

/-!
# Rewriting headers

Forwarding changes the bytes of a frame in place: the hops are set, a transport
id is put in, replaced or taken out, and the signalling bytes of a link request
are lowered or cut off. Each of these takes the bytes of a frame to the bytes of
a frame, whose address, context and data are known.
-/

namespace Reticulum.Transport

open Wire (Frame)

/-- The packet has the bytes and the fields of a frame. -/
structure Reads (p : Wire.Packet) (f : Frame) : Prop where
  raw : p.raw = f.encode
  flags : p.flags = f.flags
  headerType : p.headerType = Wire.headerTypeOf f.flags
  data : p.data = f.data

/-- The half of the flag byte that is hashed, the address and the context are the same. -/
structure SameAddress (f g : Frame) : Prop where
  flags : g.flags &&& 0x0F = f.flags &&& 0x0F
  destinationHash : g.destinationHash = f.destinationHash
  context : g.context = f.context

theorem SameAddress.trans {f g h : Frame} (hfg : SameAddress f g) (hgh : SameAddress g h) :
    SameAddress f h where
  flags := hgh.flags.trans hfg.flags
  destinationHash := hgh.destinationHash.trans hfg.destinationHash
  context := hgh.context.trans hfg.context

/-- The hashed half of the flag byte has the types of the packet and its destination. -/
theorem fields_of_lowFlags {flags flags' : UInt8} (h : flags' &&& 0x0F = flags &&& 0x0F) :
    flags' &&& 0x03 = flags &&& 0x03 ∧ flags' &&& 0x0C = flags &&& 0x0C := by
  have hlow : ∀ x : UInt8, x &&& 0x03 = (x &&& 0x0F) &&& 0x03 ∧
      x &&& 0x0C = (x &&& 0x0F) &&& 0x0C := by
    intro x
    obtain ⟨n, rfl⟩ := Wire.exists_fin_of_lt x.toNat_lt
    revert n
    decide +kernel
  rw [(hlow flags').1, (hlow flags').2, h, ← (hlow flags).1, ← (hlow flags).2]
  exact ⟨rfl, rfl⟩

/-- The flag byte of a frame with a transport id. -/
theorem transportFlags (flags : UInt8) :
    let flags' := (Wire.header2 <<< 6) ||| (modeTransport <<< 4) ||| (flags &&& 0x0F)
    Wire.headerTypeOf flags' = Wire.header2 ∧ flags' &&& 0x0F = flags &&& 0x0F ∧
      flags' &&& 0x80 = 0 := by
  obtain ⟨n, rfl⟩ := Wire.exists_fin_of_lt flags.toNat_lt
  revert n
  decide +kernel

/-- The flag byte of a frame whose transport id was taken out. -/
theorem broadcastFlags (flags : UInt8) :
    let flags' := (Wire.header1 <<< 6) ||| (broadcast <<< 4) ||| (flags &&& 0x0F)
    Wire.headerTypeOf flags' ≠ Wire.header2 ∧ flags' &&& 0x0F = flags &&& 0x0F ∧
      flags' &&& 0x80 = 0 := by
  obtain ⟨n, rfl⟩ := Wire.exists_fin_of_lt flags.toNat_lt
  revert n
  decide +kernel

namespace Frames

variable {p : Wire.Packet} {f : Frame}

/-- The frame with other hops. -/
def withHops (f : Frame) (hops : UInt8) (h : hops < Wire.pathfinderM) : Frame :=
  { f with hops := hops, hops_lt := h }

theorem setHops_encode {hops : UInt8} (h : hops < Wire.pathfinderM) :
    setHops f.encode hops = (withHops f hops h).encode := rfl

theorem headerType_none {flags : UInt8} (h : Wire.headerTypeOf flags ≠ Wire.header2) :
    Wire.headerTypeOf flags = Wire.header2 ↔
      (none : Option (Bytes.Block Wire.dstLen)).isSome = true := by
  simpa using h

/-- The frame with this transport id, whose flag byte may be a new one. -/
def withTransport (f : Frame) (flags hops : UInt8) (transportId : Bytes.Block Wire.dstLen)
    (hflags : Wire.headerTypeOf flags = Wire.header2) (h : hops < Wire.pathfinderM) : Frame :=
  { f with
    flags := flags, hops := hops, transportId := some transportId
    headerType := by simpa using hflags
    hops_lt := h }

/-- The frame without a transport id. -/
def withoutTransport (f : Frame) (flags hops : UInt8)
    (hflags : Wire.headerTypeOf flags ≠ Wire.header2) (h : hops < Wire.pathfinderM) : Frame :=
  { f with
    flags := flags, hops := hops, transportId := none
    headerType := headerType_none hflags
    hops_lt := h }

/-- What follows the addresses of a frame of two addresses. -/
theorem drop_of_header2 (h : Wire.headerTypeOf f.flags = Wire.header2) :
    f.encode.drop (2 + Wire.dstLen) = f.destinationHash.1 ++ f.context :: f.data := by
  obtain ⟨transportId, hid⟩ := Option.isSome_iff_exists.mp (f.headerType.mp h)
  have hlength : transportId.1.length = Wire.dstLen := transportId.2
  have hcut : f.encode = [f.flags, f.hops] ++ transportId.1 ++
      (f.destinationHash.1 ++ f.context :: f.data) := by
    simp [Frame.encode, Frame.transportBytes, hid]
  rw [hcut, List.drop_left' (by simp [hlength]; omega)]

theorem drop_of_header1 (h : Wire.headerTypeOf f.flags ≠ Wire.header2) :
    f.encode.drop 2 = f.destinationHash.1 ++ f.context :: f.data := by
  have hid : f.transportId = none := by
    have hnone := mt f.headerType.mpr h
    simpa using hnone
  simp [Frame.encode, Frame.transportBytes, hid]

/-- A frame of two addresses is longer than them. -/
theorem length_of_header2 (h : Wire.headerTypeOf f.flags = Wire.header2) :
    2 + Wire.dstLen * 2 < f.encode.length := by
  have hdrop := congrArg List.length (drop_of_header2 h)
  have hdest : f.destinationHash.1.length = Wire.dstLen := f.destinationHash.2
  simp only [List.length_drop, List.length_append, List.length_cons, hdest] at hdrop
  omega

/-- What transit forwarding makes of a frame. -/
structure Transited (f : Frame) (nextHop : Bytes) (remainingHops hops : UInt8) (g : Frame) :
    Prop where
  address : SameAddress f g
  data : g.data = f.data
  transportId : 1 < remainingHops → g.transportId.map Subtype.val = some nextHop
  stripped : remainingHops = 1 → g.transportId = none
  hops : remainingHops ≠ 1 ∨ f.transportId.isSome → g.hops = hops
  access : f.flags &&& 0x80 = 0 → g.flags &&& 0x80 = 0

/-- Transit forwarding sends a frame, if the next hop of a longer route is an address. -/
theorem exists_transited (hp : Reads p f) (hhops : p.hops < Wire.pathfinderM) {nextHop : Bytes}
    {remainingHops : UInt8} (hnext : 1 < remainingHops → nextHop.length = Wire.dstLen) :
    ∃ g, transitRaw p nextHop remainingHops = g.encode ∧
      Transited f nextHop remainingHops p.hops g := by
  unfold transitRaw
  rw [hp.headerType, hp.flags, hp.raw]
  by_cases hmany : 1 < remainingHops
  · have hone : remainingHops ≠ 1 := fun h => absurd hmany (by rw [h]; decide)
    have hlength := hnext hmany
    rw [if_pos hmany]
    by_cases hheader : Wire.headerTypeOf f.flags = Wire.header2
    · have hlong := length_of_header2 hheader
      rw [if_pos hheader, if_pos ⟨by omega, hlength⟩]
      refine ⟨withTransport f f.flags p.hops ⟨nextHop, hlength⟩ hheader hhops, ?_, ?_⟩
      · rw [drop_of_header2 hheader]
        simp [withTransport, setHops, Frame.encode, Frame.transportBytes]
      · exact ⟨⟨rfl, rfl, rfl⟩, rfl, fun _ => rfl, fun h => absurd h hone, fun _ => rfl, id⟩
    · obtain ⟨htype, hlow, htop⟩ := transportFlags f.flags
      rw [if_neg hheader]
      refine ⟨withTransport f _ p.hops ⟨nextHop, hlength⟩ htype hhops, ?_, ?_⟩
      · rw [drop_of_header1 hheader]
        simp [withTransport, Frame.encode, Frame.transportBytes]
      · exact ⟨⟨hlow, rfl, rfl⟩, rfl, fun _ => rfl, fun h => absurd h hone, fun _ => rfl,
          fun _ => htop⟩
  · rw [if_neg hmany]
    by_cases hstrip : remainingHops = 1 ∧ Wire.headerTypeOf f.flags = Wire.header2
    · obtain ⟨htype, hlow, htop⟩ := broadcastFlags f.flags
      have hlong := length_of_header2 hstrip.2
      rw [if_pos hstrip, if_pos hlong]
      refine ⟨withoutTransport f _ p.hops htype hhops, ?_, ?_⟩
      · rw [drop_of_header2 hstrip.2]
        simp [withoutTransport, Frame.encode, Frame.transportBytes]
      · exact ⟨⟨hlow, rfl, rfl⟩, rfl, fun h => absurd h hmany, fun _ => rfl, fun _ => rfl,
          fun _ => htop⟩
    · rw [if_neg hstrip]
      by_cases hzero : remainingHops = 0
      · rw [if_pos hzero, setHops_encode hhops]
        refine ⟨_, rfl, ⟨⟨rfl, rfl, rfl⟩, rfl, fun h => absurd h hmany, ?_, fun _ => rfl, id⟩⟩
        intro hone
        rw [hzero] at hone
        exact absurd hone (by decide)
      · -- one hop remains and there is no transport id to take out: nothing is changed
        have hone : remainingHops = 1 := by
          rw [UInt8.lt_iff_toNat_lt] at hmany
          have hne := mt UInt8.toNat_inj.mp hzero
          apply UInt8.toNat_inj.mp
          simp only [UInt8.toNat_ofNat] at hmany hne ⊢
          omega
        have hnone : f.transportId = none := by
          have hheader := mt f.headerType.mpr fun h => hstrip ⟨hone, h⟩
          simpa using hheader
        rw [if_neg hzero]
        refine ⟨f, rfl, ⟨⟨rfl, rfl, rfl⟩, rfl, fun h => absurd h hmany, fun _ => hnone, ?_, id⟩⟩
        rintro (h | h)
        · exact absurd hone h
        · rw [hnone] at h
          cases h

/-- The frame with other data. -/
def withData (f : Frame) (data : Bytes) (h : data ≠ []) : Frame :=
  { f with data := data, data_ne := h }

/-- The end of the bytes of a frame is the end of its data. -/
theorem take_encode {n : Nat} (h : n ≤ f.data.length) (data : Bytes)
    (hne : f.data.take (f.data.length - n) ++ data ≠ []) :
    f.encode.take (f.encode.length - n) ++ data =
      (withData f (f.data.take (f.data.length - n) ++ data) hne).encode := by
  have hcut : f.encode = f.flags :: f.hops :: (f.transportBytes ++ f.destinationHash.1) ++
      [f.context] ++ f.data := by
    simp [Frame.encode]
  have htake : f.encode.take (f.encode.length - n) =
      f.flags :: f.hops :: (f.transportBytes ++ f.destinationHash.1) ++ [f.context] ++
        f.data.take (f.data.length - n) := by
    rw [hcut, List.length_append, Nat.add_sub_assoc h, List.take_length_add_append]
  rw [htake]
  simp [withData, Frame.encode, Frame.transportBytes]

/-- A request with signalling bytes has three of them after its keys. -/
theorem length_of_mtuFromLrPacket {data : Bytes} {mtu : Nat}
    (h : Link.mtuFromLrPacket data = some mtu) :
    data.length = Link.ecPubSize + Link.linkMtuSize := by
  unfold Link.mtuFromLrPacket Link.mtuAt at h
  split at h
  · rename_i a b c hdrop
    have hlength := congrArg List.length hdrop
    simp only [List.length_drop, List.length_cons, List.length_nil] at hlength
    unfold Link.ecPubSize Link.linkMtuSize at *
    omega
  · cases h

/-- The same frame, but for what follows the keys of a link request. -/
structure SameKeys (g g' : Frame) : Prop where
  keys : g'.data.take Link.ecPubSize = g.data.take Link.ecPubSize
  flags : g'.flags = g.flags
  hops : g'.hops = g.hops
  transportId : g'.transportId = g.transportId
  destinationHash : g'.destinationHash = g.destinationHash
  context : g'.context = g.context

/-- What the signalling bytes of a link request are changed to leaves its keys. -/
theorem exists_clamped {s : TransportState} {g : Frame} (hdata : g.data = p.data)
    (outbound : Option String) :
    ∃ g', clampSignalling s p outbound g.encode = g'.encode ∧ SameKeys g g' := by
  have hchange : ∀ (mtu : Nat) (signalling : Bytes), Link.mtuFromLrPacket p.data = some mtu →
      ∃ g' : Frame, g.encode.take (g.encode.length - Link.linkMtuSize) ++ signalling = g'.encode ∧
        SameKeys g g' := by
    intro mtu signalling hmtu
    have hlength := length_of_mtuFromLrPacket hmtu
    rw [← hdata] at hlength
    have hkeys : (g.data.take (g.data.length - Link.linkMtuSize)).length = Link.ecPubSize := by
      rw [List.length_take]
      omega
    have hne : g.data.take (g.data.length - Link.linkMtuSize) ++ signalling ≠ [] := by
      intro hnil
      rw [List.append_eq_nil_iff.mp hnil |>.1] at hkeys
      cases hkeys
    refine ⟨_, take_encode (by omega) signalling hne, ⟨?_, rfl, rfl, rfl, rfl, rfl⟩⟩
    change (g.data.take (g.data.length - Link.linkMtuSize) ++ signalling).take Link.ecPubSize = _
    rw [List.take_append_of_le_length (by omega), List.take_take]
    congr 1
    omega
  have hsame : ∃ g' : Frame, g.encode = g'.encode ∧ SameKeys g g' :=
    ⟨g, rfl, ⟨rfl, rfl, rfl, rfl, rfl, rfl⟩⟩
  unfold clampSignalling
  split
  · rename_i out mtu _ hmtu
    split
    · split
      · obtain ⟨g', heq, hkeys⟩ := hchange mtu [] hmtu
        rw [List.append_nil] at heq
        exact ⟨g', heq, hkeys⟩
      · exact hsame
    · split
      · split
        · split
          · exact hchange mtu _ hmtu
          · exact hsame
        · exact hsame
      · exact hsame
  · exact hsame

/-- Whatever the hops are, transit forwarding writes them where it counts them. -/
theorem hops_transitRaw (hp : Reads p f) {nextHop : Bytes} {remainingHops : UInt8}
    (hnext : 1 < remainingHops → nextHop.length = Wire.dstLen)
    (hcounted : remainingHops ≠ 1 ∨ Wire.headerTypeOf f.flags = Wire.header2) :
    ∃ flags rest, transitRaw p nextHop remainingHops = flags :: p.hops :: rest ∧
      f.data.length ≤ rest.length := by
  have hcut : f.encode = f.flags :: f.hops :: (f.transportBytes ++ f.destinationHash.1 ++
      f.context :: f.data) := rfl
  have hone : ∀ data : Bytes, f.data.length ≤
      (data ++ (f.destinationHash.1 ++ f.context :: f.data)).length := by
    intro data
    simp only [List.length_append, List.length_cons]
    omega
  unfold transitRaw
  rw [hp.headerType, hp.flags, hp.raw]
  by_cases hmany : 1 < remainingHops
  · rw [if_pos hmany]
    by_cases hheader : Wire.headerTypeOf f.flags = Wire.header2
    · have hlong := length_of_header2 hheader
      rw [if_pos hheader, if_pos ⟨by omega, hnext hmany⟩, drop_of_header2 hheader]
      exact ⟨f.flags, _, by simp [hcut, setHops], hone nextHop⟩
    · rw [if_neg hheader, drop_of_header1 hheader, List.append_assoc]
      exact ⟨_, _, rfl, hone nextHop⟩
  · rw [if_neg hmany]
    by_cases hstrip : remainingHops = 1 ∧ Wire.headerTypeOf f.flags = Wire.header2
    · have hlong := length_of_header2 hstrip.2
      rw [if_pos hstrip, if_pos hlong, drop_of_header2 hstrip.2]
      exact ⟨_, _, rfl, hone []⟩
    · have hzero : remainingHops = 0 := by
        have hone : remainingHops ≠ 1 := fun h =>
          hcounted.elim (fun hne => hne h) fun hheader => hstrip ⟨h, hheader⟩
        have hne := mt UInt8.toNat_inj.mp hone
        rw [UInt8.lt_iff_toNat_lt] at hmany
        apply UInt8.toNat_inj.mp
        simp only [UInt8.toNat_ofNat] at hmany hne ⊢
        omega
      rw [if_neg hstrip, if_pos hzero, hcut]
      refine ⟨f.flags, _, rfl, ?_⟩
      simp only [List.length_append, List.length_cons]
      omega

/-- The signalling bytes are not among the first two. -/
theorem hops_clampSignalling {s : TransportState} {flags hops : UInt8} {rest : Bytes}
    (hlength : p.data.length ≤ rest.length) (outbound : Option String) :
    ∃ rest', clampSignalling s p outbound (flags :: hops :: rest) = flags :: hops :: rest' := by
  have hchange : ∀ (mtu : Nat) (signalling : Bytes), Link.mtuFromLrPacket p.data = some mtu →
      ∃ rest', (flags :: hops :: rest).take ((flags :: hops :: rest).length -
        Link.linkMtuSize) ++ signalling = flags :: hops :: rest' := by
    intro mtu signalling hmtu
    have hdata := length_of_mtuFromLrPacket hmtu
    have htwo : (flags :: hops :: rest).length - Link.linkMtuSize =
        rest.length - Link.linkMtuSize + 1 + 1 := by
      unfold Link.ecPubSize Link.linkMtuSize at *
      simp only [List.length_cons]
      omega
    rw [htwo, List.take_succ_cons, List.take_succ_cons]
    exact ⟨_, rfl⟩
  unfold clampSignalling
  split
  · rename_i out mtu _ hmtu
    split
    · split
      · obtain ⟨rest', heq⟩ := hchange mtu [] hmtu
        rw [List.append_nil] at heq
        exact ⟨rest', heq⟩
      · exact ⟨rest, rfl⟩
    · split
      · split
        · split
          · exact hchange mtu _ hmtu
          · exact ⟨rest, rfl⟩
        · exact ⟨rest, rfl⟩
      · exact ⟨rest, rfl⟩
  · exact ⟨rest, rfl⟩

/-- A frame that transit forwarding sends and counts is read only below the limit. -/
theorem hops_lt_of_unpack {c : Crypto} {s : TransportState} {q u : Wire.Packet} (hp : Reads p f)
    {nextHop : Bytes} {remainingHops : UInt8}
    (hnext : 1 < remainingHops → nextHop.length = Wire.dstLen)
    (hcounted : remainingHops ≠ 1 ∨ Wire.headerTypeOf f.flags = Wire.header2)
    {outbound : Option String} (hraw : q.raw = transitFrame s p nextHop remainingHops outbound)
    (hunpack : q.unpack c = some u) : p.hops < Wire.pathfinderM := by
  obtain ⟨flags, rest, hbytes, hlength⟩ := hops_transitRaw hp hnext hcounted
  rw [← hp.data] at hlength
  have hframe : ∃ rest', q.raw = flags :: p.hops :: rest' := by
    rw [hraw]
    unfold transitFrame
    rw [hbytes]
    split
    · exact hops_clampSignalling hlength outbound
    · exact ⟨rest, rfl⟩
  obtain ⟨rest', hframe⟩ := hframe
  unfold Wire.Packet.unpack at hunpack
  rw [hframe] at hunpack
  by_contra hlimit
  rw [UInt8.not_lt] at hlimit
  simp [hlimit] at hunpack

/-- What the link id of a request is a hash of: the frame without hops, transport id and
signalling bytes. -/
theorem linkIdPart_of_reads (hp : Reads p f) :
    Link.linkIdPart (linkPacket p) =
      (f.flags &&& 0x0F) :: (f.destinationHash.1 ++ f.context :: f.data.take Link.ecPubSize) := by
  have hpart : (linkPacket p).getHashablePart = f.hashable := by
    rw [← Wire.Frame.hashablePart_of_raw hp.raw hp.headerType]
    unfold Reticulum.Packet.getHashablePart Wire.Packet.getHashablePart linkPacket
    simp only [decide_eq_true_eq]
    rfl
  have hframed : (linkPacket p).getHashablePart =
      ((f.flags &&& 0x0F) :: (f.destinationHash.1 ++ [f.context])) ++ (linkPacket p).data := by
    rw [hpart]
    change f.hashable = _ ++ p.data
    rw [hp.data]
    simp [Frame.hashable]
  rw [Link.linkIdPart_of_framed hframed]
  change _ ++ p.data.take Link.ecPubSize = _
  rw [hp.data]
  simp

end Frames

end Reticulum.Transport
