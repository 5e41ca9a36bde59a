import Reticulum.Channel.Interleaving

/-!
# An envelope through `send`

`Envelope::pack` writes the length of a payload as 16 bits, and `send` compares the packed bytes
with the outlet's `mdu` alone; `Channel::mdu` has a bound for the length, but `send` does not ask
it. What `send` hands to the outlet is unpacked to what was packed exactly when the length fits
(`passed_recovers_iff`).

## Implementation notes

`send` hands bytes over when its number is taken and they are packed, which is one piece of the
call. Its wait for its own lock comes after.
-/

namespace Reticulum.Channel

open Lock Lock.Call

variable {Msg Packet : Type} [MessageBase Msg]

/-- `send` takes this number, packs the message into these bytes and goes on to hand them to the
outlet. -/
def Passes (outlet : Outlet Packet) (c : Shared Msg Packet) (message : Msg) (sequence : Nat)
    (raw : Bytes) : Prop :=
  ((Piece.number message : Piece Msg Packet).exec outlet c).next = [.transmit sequence raw]

/-- Whoever has registered the type of the message reads its type, this number and all of its
payload. -/
def Recovers (message : Msg) (sequence : Nat) (raw : Bytes) : Prop :=
  ∀ (R : Type) (_ : MessageBase R) (factories : Factories R) (ctor : R),
    factories (MessageBase.msgtype message) = some ctor →
    ∃ envelope : Envelope R, (Envelope.ofRaw raw : Envelope R).unpack factories = .ok envelope ∧
      envelope.sequence = sequence ∧
      envelope.message = some (MessageBase.unpack ctor (MessageBase.pack message))

/-- A message that keeps its payload as it is. -/
structure Note where
  payload : Bytes

instance : MessageBase Note where
  msgtype _ := 1
  msgtype_lt _ := by decide
  pack m := m.payload
  unpack _ data := { payload := data }

section Passes

variable {outlet : Outlet Packet} {c : Shared Msg Packet} {message : Msg} {sequence : Nat}
  {raw : Bytes}

/-- The bytes that are handed over are the packed message, and fit the outlet. -/
theorem passes_iff : Passes outlet c message sequence raw ↔
    c.stuck = false ∧ sequence = c.inner.nextSequence ∧
      Envelope.pack (some message) sequence = .ok raw ∧ raw.length ≤ outlet.mdu := by
  unfold Passes Piece.exec Shared.run
  dsimp only
  cases hstuck : c.stuck with
  | true => simp [takeSequence]
  | false =>
      simp only [takeSequence, withLock_free, bind_apply, read_apply, Option.bind_some,
        update_apply, pure_apply, true_and]
      cases hpack : Envelope.pack (some message) c.inner.nextSequence with
      | error err =>
          simp only [afterNumber, List.nil_eq, reduceCtorEq, false_iff, not_and]
          rintro rfl hok
          rw [hpack] at hok
          cases hok
      | ok packed =>
          unfold afterNumber
          dsimp only
          split
          · rename_i hbig
            simp only [List.nil_eq, reduceCtorEq, false_iff, not_and, not_le]
            rintro rfl hok
            rw [hpack] at hok
            cases hok
            exact hbig
          · rename_i hfits
            simp only [List.cons.injEq, Piece.transmit.injEq, and_true]
            constructor
            · rintro ⟨rfl, rfl⟩
              exact ⟨rfl, hpack, not_lt.mp hfits⟩
            · rintro ⟨rfl, hok, -⟩
              rw [hpack] at hok
              exact ⟨rfl, Except.ok.inj hok⟩

/-- What a receiver reads from a packed message. -/
theorem unpack_packed {R : Type} [MessageBase R] {factories : Factories R} {ctor : R}
    (hseq : sequence < seqModulus) (hpack : Envelope.pack (some message) sequence = .ok raw)
    (hctor : factories (MessageBase.msgtype message) = some ctor) :
    (Envelope.ofRaw raw : Envelope R).unpack factories = .ok
      { sequence := sequence, raw := raw, unpacked := true
        message := some (MessageBase.unpack ctor ((MessageBase.pack message).take
          ((MessageBase.pack message).length % 65536))) } := by
  unfold Envelope.pack at hpack
  dsimp only at hpack
  split at hpack
  · cases hpack
  · obtain rfl := Except.ok.inj hpack
    have htype := Bytes.toU16_ofNat (MessageBase.msgtype_lt message)
    have hnumber := Bytes.toU16_ofNat (n := sequence) hseq
    have hlength := Bytes.toU16_ofNat
      (Nat.mod_lt (MessageBase.pack message).length (show 65536 > 0 by decide))
    have hle := Nat.mod_le (MessageBase.pack message).length 65536
    simp only [Envelope.ofRaw, Envelope.unpack, Bytes.ofU16, List.cons_append, List.nil_append,
      htype, hnumber, hlength, Nat.not_lt.mpr hle, if_false, hctor]

theorem unpack_recovers_iff (hseq : sequence < seqModulus)
    (hpack : Envelope.pack (some message) sequence = .ok raw) :
    Recovers message sequence raw ↔ (MessageBase.pack message).length < 65536 := by
  constructor
  · intro h
    let factories : Factories Note := fun _ => some { payload := [] }
    have hctor : factories (MessageBase.msgtype message) = some { payload := [] } := rfl
    obtain ⟨envelope, hunpack, -, hmessage⟩ :=
      h Note inferInstance factories { payload := [] } hctor
    rw [unpack_packed hseq hpack hctor] at hunpack
    obtain rfl := Except.ok.inj hunpack
    have hwhole : (MessageBase.pack message).take ((MessageBase.pack message).length % 65536) =
        MessageBase.pack message := congrArg Note.payload (Option.some.inj hmessage)
    have hlength := congrArg List.length hwhole
    rw [List.length_take] at hlength
    have hmod := Nat.mod_lt (MessageBase.pack message).length (show 65536 > 0 by decide)
    omega
  · intro hfits R _ factories ctor hctor
    refine ⟨_, unpack_packed hseq hpack hctor, rfl, ?_⟩
    rw [Nat.mod_eq_of_lt hfits, List.take_length]

end Passes

/-- What `send` passes to the outlet is unpacked to what was packed if and only if the payload has
fewer than 65536 bytes. -/
theorem passed_recovers_iff (outlet : Outlet Packet) (c : Shared Msg Packet) (message : Msg)
    (sequence : Nat) (raw : Bytes) (hseq : c.inner.nextSequence < seqModulus)
    (hpasses : Passes outlet c message sequence raw) :
    Recovers message sequence raw ↔ (MessageBase.pack message).length < 65536 := by
  obtain ⟨-, rfl, hpack, -⟩ := passes_iff.mp hpasses
  exact unpack_recovers_iff hseq hpack

section Samples

/-- An outlet whose packets hold more than 65536 bytes. -/
def wideOutlet : Outlet Unit :=
  { isUsable := true, mdu := 70000, rtt := 0, getPacketState := fun _ => .sent
    getPacketId := fun _ => some [], send := fun _ => () }

/-- A channel before its first message. -/
def sampleShared : Shared Note Unit := { inner := Inner.new (fun _ => none) [] 0, stuck := false }

/-- A message of `n` zeros is packed under the number 0. -/
theorem passes_zeros {n : Nat} (h : n ≤ 69994) :
    ∃ raw, Passes wideOutlet sampleShared { payload := List.replicate n 0 } 0 raw := by
  refine ⟨_, passes_iff.mpr ⟨rfl, rfl, rfl, ?_⟩⟩
  rw [List.length_append, List.length_append, List.length_append, Bytes.length_ofU16,
    Bytes.length_ofU16, Bytes.length_ofU16]
  have hpayload : (MessageBase.pack ({ payload := List.replicate n 0 } : Note)).length = n :=
    List.length_replicate
  have hmdu : wideOutlet.mdu = 70000 := rfl
  rw [hpayload, hmdu]
  omega

/-- Five bytes are passed on, and arrive whole. -/
theorem passed_recovers_iff_five :
    ∃ raw, Passes wideOutlet sampleShared { payload := List.replicate 5 0 } 0 raw ∧
      Recovers ({ payload := List.replicate 5 0 } : Note) 0 raw := by
  obtain ⟨raw, hpasses⟩ := passes_zeros (n := 5) (by decide)
  have hiff := passed_recovers_iff wideOutlet sampleShared { payload := List.replicate 5 0 } 0 raw
    (by decide) hpasses
  exact ⟨raw, hpasses, hiff.mpr (show 5 < 65536 by decide)⟩

/-- A payload of 65536 bytes is passed on, and arrives empty. -/
theorem passed_recovers_false :
    ¬∀ (Msg Packet : Type) (_ : MessageBase Msg) (outlet : Outlet Packet) (c : Shared Msg Packet)
        (message : Msg) (sequence : Nat) (raw : Bytes), c.inner.nextSequence < seqModulus →
      Passes outlet c message sequence raw → Recovers message sequence raw := by
  intro hall
  obtain ⟨raw, hpasses⟩ := passes_zeros (n := 65536) (by decide)
  have hrecovers := hall Note Unit inferInstance wideOutlet sampleShared
    { payload := List.replicate 65536 0 } 0 raw (by decide) hpasses
  obtain ⟨-, -, hpack, -⟩ := passes_iff.mp hpasses
  have hlength : (List.replicate 65536 (0 : UInt8)).length < 65536 :=
    (unpack_recovers_iff (by decide) hpack).mp hrecovers
  rw [List.length_replicate] at hlength
  exact absurd hlength (lt_irrefl _)

end Samples

end Reticulum.Channel
