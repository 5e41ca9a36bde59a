import Reticulum.Ble.Wire

/-!
# Packets in fragments

The fragments of a packet, put together one after the other, give the packet back, and
what a reassembler puts out is made of consecutive fragments whatever it is fed.

## Implementation notes

A fragment is fed as its bytes, and one that cannot be decoded is not fed at all. The
number of the next fragment wraps only for a packet that claims to have no fragments.
-/

namespace Reticulum.Ble

/-! ## The pieces of a packet -/

variable (packet : Bytes) {r : Reassembler}

theorem chunk_eq (cap index : Nat) :
    chunk packet cap index = (packet.take ((index + 1) * cap)).drop (index * cap) := by
  unfold chunk
  have htake : packet.take (min ((index + 1) * cap) packet.length) =
      packet.take ((index + 1) * cap) := by
    rw [← List.take_take, List.take_length]
  rw [htake]
  by_cases hshort : index * cap ≤ packet.length
  · rw [Nat.min_eq_left hshort]
  · have hend : (packet.take ((index + 1) * cap)).length ≤ packet.length :=
      List.length_take_le' _ _
    rw [Nat.min_eq_right (by omega), List.drop_eq_nil_of_le hend,
      List.drop_eq_nil_of_le (hend.trans (by omega))]

theorem take_append_chunk (cap index : Nat) :
    packet.take (index * cap) ++ chunk packet cap index = packet.take ((index + 1) * cap) := by
  have hle : index * cap ≤ (index + 1) * cap := Nat.mul_le_mul_right cap (Nat.le_succ index)
  rw [chunk_eq]
  conv_rhs => rw [← List.take_append_drop (index * cap) (packet.take ((index + 1) * cap))]
  rw [List.take_take, Nat.min_eq_left hle]

theorem length_chunk_le (cap index : Nat) : (chunk packet cap index).length ≤ cap := by
  rw [chunk_eq, List.length_drop, List.length_take, Nat.succ_mul]
  omega

theorem fragmentCap_pos (fragmentSize : Nat) : 0 < fragmentCap fragmentSize :=
  Nat.lt_of_lt_of_le Nat.one_pos (Nat.le_max_right _ _)

theorem fragmentTotal_pos (cap : Nat) : 0 < fragmentTotal packet cap :=
  Nat.lt_of_lt_of_le Nat.one_pos (Nat.le_max_right _ _)

/-- The fragments hold the whole packet. -/
theorem length_le_total {cap : Nat} (hcap : 0 < cap) :
    packet.length ≤ fragmentTotal packet cap * cap := by
  have hround : packet.length ≤ (packet.length + cap - 1) / cap * cap := by
    have hdiv := Nat.div_add_mod (packet.length + cap - 1) cap
    have hmod := Nat.mod_lt (packet.length + cap - 1) hcap
    rw [Nat.mul_comm] at hdiv
    omega
  exact hround.trans (Nat.mul_le_mul_right cap (Nat.le_max_left _ _))

/-- There are no more fragments than bytes, but for the one of an empty packet. -/
theorem fragmentTotal_le {cap : Nat} (hcap : 0 < cap) :
    fragmentTotal packet cap ≤ max packet.length 1 := by
  have hdiv : (packet.length + cap - 1) / cap ≤ packet.length := by
    rw [Nat.div_le_iff_le_mul_add_pred hcap]
    have hmul := Nat.mul_le_mul_right packet.length hcap
    omega
  unfold fragmentTotal
  omega

/-- A fragment is read back. -/
theorem decode_fragment (cap total index : Nat) (hindex : index < 65536) (htotal : total < 65536) :
    decodeFragment (fragment packet cap total index) =
      some { seq := index, total := total, data := chunk packet cap index } := by
  unfold fragment decodeFragment
  simp only [Bytes.ofU16, List.cons_append, List.nil_append]
  rw [Bytes.toU16_ofNat hindex, Bytes.toU16_ofNat htotal, if_pos]
  split
  · exact .inl rfl
  split
  · exact .inr (.inr rfl)
  · exact .inr (.inl rfl)

theorem length_fragment (cap total index : Nat) :
    (fragment packet cap total index).length = fragmentHeaderLen + (chunk packet cap index).length := by
  simp [fragment, fragmentHeaderLen]
  omega

/-- A fragment fits the fragment size. -/
theorem length_fragment_le {fragmentSize : Nat} (hsize : fragmentHeaderLen < fragmentSize)
    (total index : Nat) :
    (fragment packet (fragmentCap fragmentSize) total index).length ≤ fragmentSize := by
  have hchunk := length_chunk_le packet (fragmentCap fragmentSize) index
  rw [length_fragment]
  unfold fragmentCap at hchunk ⊢
  omega

namespace Reassembler

/-! ## Feeding fragments -/

/-- The packet that is complete after the bytes of a fragment, if any. -/
def receive (r : Reassembler) (bytes : Bytes) : Option Bytes × Reassembler :=
  match decodeFragment bytes with
  | none => (none, r)
  | some fragment =>
      match r.absorb fragment with
      | (.ok packet, r) => (packet, r)
      | (.error _, r) => (none, r)

/-- The packets that are complete after the bytes of several fragments. -/
def receiveAll : Reassembler → List Bytes → List Bytes × Reassembler
  | r, [] => ([], r)
  | r, bytes :: rest =>
      ((r.receive bytes).1.toList ++ (receiveAll (r.receive bytes).2 rest).1,
        (receiveAll (r.receive bytes).2 rest).2)

theorem receiveAll_append (r : Reassembler) (first rest : List Bytes) :
    r.receiveAll (first ++ rest) =
      ((r.receiveAll first).1 ++ ((r.receiveAll first).2.receiveAll rest).1,
        ((r.receiveAll first).2.receiveAll rest).2) := by
  induction first generalizing r with
  | nil => rfl
  | cons bytes first ih =>
      simp only [List.cons_append, receiveAll]
      rw [ih]
      simp

/-- What a reassembler holds after the first fragments of a packet. -/
def partway (packet : Bytes) (cap count : Nat) : Reassembler where
  buf := packet.take (count * cap)
  nextSeq := count
  total := fragmentTotal packet cap
  active := true

/-- The next fragment of a packet is added, and the last one completes the packet. -/
theorem receive_fragment {packet : Bytes} {cap index : Nat} (hcap : 0 < cap)
    (hlength : packet.length ≤ hwMtu) (hindex : index < fragmentTotal packet cap)
    (hr : index = 0 ∨ r = partway packet cap index) :
    (index + 1 = fragmentTotal packet cap →
      (r.receive (fragment packet cap (fragmentTotal packet cap) index)).1 = some packet) ∧
    (index + 1 ≠ fragmentTotal packet cap →
      r.receive (fragment packet cap (fragmentTotal packet cap) index) =
        (none, partway packet cap (index + 1))) := by
  have htotal := fragmentTotal_le packet hcap
  have hsmall : fragmentTotal packet cap < 65536 := by
    unfold hwMtu at hlength
    omega
  have hstarted : r.started ⟨index, fragmentTotal packet cap, chunk packet cap index⟩ =
      partway packet cap index := by
    unfold started
    split
    · rename_i hzero
      dsimp only at hzero
      subst hzero
      simp [partway]
    · rename_i hnonzero
      exact hr.resolve_left hnonzero
  have hbuf := take_append_chunk packet cap index
  have hfits : ¬ hwMtu < (packet.take (index * cap)).length + (chunk packet cap index).length := by
    rw [← List.length_append, hbuf, List.length_take]
    omega
  have hnext : (index + 1) % 65536 = index + 1 := Nat.mod_eq_of_lt (by omega)
  unfold receive
  rw [decode_fragment packet cap _ index (by omega) hsmall]
  dsimp only
  unfold absorb
  dsimp only
  rw [hstarted]
  simp only [partway, Bool.not_true, Bool.false_eq_true, if_false, ne_eq, not_true_eq_false,
    or_self, hfits, hnext, hbuf]
  constructor
  · intro hlast
    rw [if_pos hlast, hlast, List.take_of_length_le (length_le_total packet hcap)]
  · intro hmore
    rw [if_neg hmore]

/-- The number of the next fragment goes past its 16 bits: a fragment is added to a packet that
claims to have none, after 65535 others. -/
def wraps (r : Reassembler) (fragment : Fragment) : Bool :=
  r.active && r.nextSeq == 65535 && r.total == 0 && fragment.seq == 65535 && fragment.total == 0 &&
    r.buf.length + fragment.data.length ≤ hwMtu

end Reassembler

/-! ## Arbitrary bytes -/

/-- A reassembler that is fed: the fragments that could be decoded, the packets that were put out,
each with the fragments that had been fed then, and whether the number of the next fragment has
overflowed. -/
structure Feed where
  reassembler : Reassembler
  fed : List Fragment
  outputs : List (Bytes × List Fragment)
  overflowed : Bool

namespace Feed

/-- A reassembler that was fed nothing. -/
def start : Feed := { reassembler := .empty, fed := [], outputs := [], overflowed := false }

/-- The packet of a result, with the fragments that were fed. -/
def output (fed : List Fragment) : Except String (Option Bytes) → List (Bytes × List Fragment)
  | .ok (some packet) => [(packet, fed)]
  | .ok none => []
  | .error _ => []

/-- The number of the next fragment was 65535 and one was added. -/
def overflows (r : Reassembler) (fragment : Fragment) : Bool :=
  match (r.absorb fragment).1 with
  | .ok _ => (r.started fragment).nextSeq + 1 == 65536
  | .error _ => false

/-- Some bytes are fed. -/
def step (w : Feed) (bytes : Bytes) : Option Feed :=
  match decodeFragment bytes with
  | none => some w
  | some fragment =>
      some
        { reassembler := (w.reassembler.absorb fragment).2
          fed := w.fed ++ [fragment]
          outputs := w.outputs ++
            output (w.fed ++ [fragment]) (w.reassembler.absorb fragment).1
          overflowed := w.overflowed || overflows w.reassembler fragment }

/-- Consecutive fragments from number zero on, all of one total. -/
def Consecutive (count total : Nat) (fragments : List Fragment) : Prop :=
  fragments.map (fun f => (f.seq, f.total)) = (List.range count).map fun seq => (seq, total)

/-- What holds of a reassembler: its buffer is within the hardware MTU, the number of the next
fragment has not overflowed, and every packet is made of the fragments fed last, which are all
those of one packet. -/
structure WellFed (w : Feed) : Prop where
  buf : w.reassembler.buf.length ≤ hwMtu
  nextSeq : w.reassembler.nextSeq < 65536 ∧ w.overflowed = false
  outputs : ∀ out ∈ w.outputs, ∃ fragments total, fragments <:+ out.2 ∧
    Consecutive total total fragments ∧ out.1 = fragments.flatMap Fragment.data

/-- No bytes are fed that would continue a packet that claims to have no fragments after 65535
others. -/
def NoWrap (w : Feed) (bytes : Bytes) : Prop :=
  ∀ fragment, decodeFragment bytes = some fragment → w.reassembler.wraps fragment = false

/-- The packet that a reassembler is putting together. -/
structure InProgress (r : Reassembler) (fed : List Fragment) : Prop where
  fragments : ∃ fragments, fragments <:+ fed ∧ Consecutive r.nextSeq r.total fragments ∧
    r.buf = fragments.flatMap Fragment.data
  total : r.total < 65536
  more : r.nextSeq < r.total ∨ r.total = 0

/-- What feeding keeps. -/
structure Feeding (w : Feed) : Prop where
  wellFed : WellFed w
  inProgress : w.reassembler.active = true → InProgress w.reassembler w.fed

theorem feeding_start : Feeding start where
  wellFed := ⟨Nat.zero_le _, ⟨by decide, rfl⟩, fun _ hmem => by cases hmem⟩
  inProgress := fun hactive => by cases hactive

end Feed

theorem toU16_lt (high low : UInt8) : Bytes.toU16 high low < 65536 := by
  have hhigh := high.toNat_lt
  have hlow := low.toNat_lt
  unfold Bytes.toU16
  omega

theorem total_lt_of_decode {bytes : Bytes} {fragment : Fragment}
    (h : decodeFragment bytes = some fragment) : fragment.total < 65536 := by
  unfold decodeFragment at h
  split at h
  · split at h
    · obtain rfl := Option.some.inj h
      exact toU16_lt _ _
    · cases h
  · cases h

namespace Reassembler

/-- What a fragment does: it is refused and no packet is in progress, or it is the next one. -/
theorem absorb_cases (r : Reassembler) (fragment : Fragment) :
    (∃ e, (r.absorb fragment).1 = .error e ∧ (r.absorb fragment).2.active = false ∧
      (r.absorb fragment).2.buf = (r.started fragment).buf ∧
      (r.absorb fragment).2.nextSeq = (r.started fragment).nextSeq) ∨
    ((r.started fragment).active = true ∧ fragment.seq = (r.started fragment).nextSeq ∧
      fragment.total = (r.started fragment).total ∧
      (r.started fragment).buf.length + fragment.data.length ≤ hwMtu ∧
      r.absorb fragment =
        if ((r.started fragment).nextSeq + 1) % 65536 = (r.started fragment).total then
          (.ok (some ((r.started fragment).buf ++ fragment.data)),
            { buf := [], nextSeq := ((r.started fragment).nextSeq + 1) % 65536
              total := (r.started fragment).total, active := false })
        else
          (.ok none,
            { r.started fragment with
              buf := (r.started fragment).buf ++ fragment.data
              nextSeq := ((r.started fragment).nextSeq + 1) % 65536 })) := by
  unfold absorb
  dsimp only
  generalize r.started fragment = s
  cases hactive : s.active with
  | false =>
      left
      exact ⟨_, rfl, hactive, rfl, rfl⟩
  | true =>
      by_cases hother : fragment.seq ≠ s.nextSeq ∨ fragment.total ≠ s.total
      · left
        rw [if_neg (by simp), if_pos hother]
        exact ⟨_, rfl, rfl, rfl, rfl⟩
      · by_cases hlong : hwMtu < s.buf.length + fragment.data.length
        · left
          rw [if_neg (by simp), if_neg hother, if_pos hlong]
          exact ⟨_, rfl, rfl, rfl, rfl⟩
        · right
          push Not at hother
          refine ⟨rfl, hother.1, hother.2, Nat.le_of_not_lt hlong, ?_⟩
          rw [if_neg (by simp), if_neg (by simp [hother.1, hother.2]), if_neg hlong]

theorem started_buf_le (h : r.buf.length ≤ hwMtu) (fragment : Fragment) :
    (r.started fragment).buf.length ≤ hwMtu := by
  unfold started
  split
  · exact Nat.zero_le _
  · exact h

theorem started_nextSeq_lt (h : r.nextSeq < 65536) (fragment : Fragment) :
    (r.started fragment).nextSeq < 65536 := by
  unfold started
  split
  · exact Nat.zero_lt_succ _
  · exact h

theorem started_of_ne {f : Fragment} (h : f.seq ≠ 0) : r.started f = r :=
  if_neg h

end Reassembler

namespace Feed

variable {w w' : Feed} {fragment : Fragment}

/-- A packet that is started is in progress. -/
theorem InProgress.started {fed : List Fragment} (h : r.active = true → InProgress r fed)
    (htotal : fragment.total < 65536) (hactive : (r.started fragment).active = true) :
    InProgress (r.started fragment) fed := by
  unfold Reassembler.started at hactive ⊢
  split
  · refine ⟨⟨[], List.nil_suffix, rfl, rfl⟩, htotal, ?_⟩
    dsimp only
    omega
  · rename_i hcontinues
    rw [if_neg hcontinues] at hactive
    exact h hactive

/-- The next fragment continues the packet. -/
theorem InProgress.extend {fed : List Fragment} (h : InProgress r fed)
    (hseq : fragment.seq = r.nextSeq) (htotal : fragment.total = r.total) :
    ∃ fragments, fragments <:+ fed ++ [fragment] ∧ Consecutive (r.nextSeq + 1) r.total fragments ∧
      r.buf ++ fragment.data = fragments.flatMap Fragment.data := by
  obtain ⟨fragments, ⟨before, hfed⟩, hconsecutive, hbuf⟩ := h.fragments
  refine ⟨fragments ++ [fragment], ⟨before, by rw [← hfed, List.append_assoc]⟩, ?_, ?_⟩
  · unfold Consecutive at hconsecutive ⊢
    rw [List.map_append, hconsecutive, List.range_succ, List.map_append]
    simp [hseq, htotal]
  · rw [List.flatMap_append, ← hbuf]
    simp

/-- The number of the next fragment overflows exactly when `wraps` says so. -/
theorem overflows_eq_wraps (h : Feeding w) (htotal : fragment.total < 65536) :
    overflows w.reassembler fragment = w.reassembler.wraps fragment := by
  have hprogress := InProgress.started h.inProgress htotal
  rw [Bool.eq_iff_iff]
  obtain ⟨e, herror, -⟩ | ⟨hactive, hseq, htotals, hfits, habsorb⟩ :=
    Reassembler.absorb_cases w.reassembler fragment
  · constructor
    · intro hoverflows
      unfold overflows at hoverflows
      rw [herror] at hoverflows
      cases hoverflows
    · intro hwraps
      simp only [Reassembler.wraps, Bool.and_eq_true, beq_iff_eq, decide_eq_true_eq] at hwraps
      obtain ⟨⟨⟨⟨⟨hactive, hnext⟩, htotal⟩, hseq⟩, hzero⟩, hfits⟩ := hwraps
      unfold Reassembler.absorb at herror
      rw [Reassembler.started_of_ne (by omega)] at herror
      dsimp only at herror
      rw [if_neg (by simp [hactive]), if_neg (by omega), if_neg (by omega), hnext, htotal] at herror
      cases herror
  · have hoverflows : overflows w.reassembler fragment =
        ((w.reassembler.started fragment).nextSeq + 1 == 65536) := by
      unfold overflows
      rw [habsorb]
      split <;> rename_i heq
      · rfl
      · split at heq <;> cases heq
    rw [hoverflows]
    simp only [Reassembler.wraps, Bool.and_eq_true, beq_iff_eq, decide_eq_true_eq]
    have hpacket := hprogress hactive
    constructor
    · intro hlast
      have hsame : w.reassembler.started fragment = w.reassembler :=
        Reassembler.started_of_ne (by omega)
      rw [hsame] at hpacket hactive hseq htotals hfits hlast
      have hmore := hpacket.more
      have hlimit := hpacket.total
      exact ⟨⟨⟨⟨⟨hactive, by omega⟩, by omega⟩, by omega⟩, by omega⟩, hfits⟩
    · rintro ⟨⟨⟨⟨⟨-, hnext⟩, -⟩, hlast⟩, -⟩, -⟩
      rw [← hseq, hlast]

/-- Bytes that do not overflow the number of the next fragment keep what feeding keeps. -/
theorem feeding_step (w : Feed) (bytes : Bytes) (w' : Feed) (h : Feeding w)
    (hevent : NoWrap w bytes) (hstep : step w bytes = some w') : Feeding w' := by
  unfold step at hstep
  cases hdecode : decodeFragment bytes with
  | none =>
      rw [hdecode] at hstep
      obtain rfl := Option.some.inj hstep
      exact h
  | some fragment =>
      rw [hdecode] at hstep
      obtain rfl := Option.some.inj hstep
      have htotal := total_lt_of_decode hdecode
      have hoverflows : overflows w.reassembler fragment = false := by
        rw [overflows_eq_wraps h htotal]
        exact hevent fragment hdecode
      have hflag : (w.overflowed || overflows w.reassembler fragment) = false := by
        rw [h.wellFed.nextSeq.2, hoverflows]
        rfl
      have hbuf := Reassembler.started_buf_le h.wellFed.buf fragment
      have hnext := Reassembler.started_nextSeq_lt h.wellFed.nextSeq.1 fragment
      obtain ⟨e, herror, hinactive, hsameBuf, hsameNext⟩ | ⟨hactive, hseq, htotals, hfits, habsorb⟩ :=
        Reassembler.absorb_cases w.reassembler fragment
      · rw [herror]
        refine ⟨⟨?_, ⟨?_, hflag⟩, ?_⟩, fun hactive => ?_⟩
        · dsimp only
          rw [hsameBuf]
          exact hbuf
        · dsimp only
          rw [hsameNext]
          exact hnext
        · dsimp only
          rw [output, List.append_nil]
          exact h.wellFed.outputs
        · exact absurd (hactive.symm.trans hinactive) (by decide)
      · have hpacket := InProgress.started h.inProgress htotal hactive
        obtain ⟨fragments, hfed, hconsecutive, hdata⟩ := hpacket.extend hseq htotals
        have hmore := hpacket.more
        have hsmall : (w.reassembler.started fragment).nextSeq + 1 < 65536 := by
          unfold overflows at hoverflows
          rw [habsorb] at hoverflows
          split at hoverflows <;> rename_i heq
          · have hne := beq_eq_false_iff_ne.mp hoverflows
            omega
          · split at heq <;> cases heq
        have hmod : ((w.reassembler.started fragment).nextSeq + 1) % 65536 =
            (w.reassembler.started fragment).nextSeq + 1 := Nat.mod_eq_of_lt hsmall
        rw [hmod] at habsorb
        rw [habsorb]
        split
        · rename_i hlast
          refine ⟨⟨Nat.zero_le _, ⟨hsmall, hflag⟩, ?_⟩, fun hactive => ?_⟩
          · intro out hmem
            rcases List.mem_append.mp hmem with hmem | hmem
            · exact h.wellFed.outputs out hmem
            · obtain rfl := List.mem_singleton.mp hmem
              refine ⟨fragments, (w.reassembler.started fragment).total, hfed, ?_, hdata⟩
              rw [hlast] at hconsecutive
              exact hconsecutive
          · exact absurd hactive Bool.false_ne_true
        · rename_i hmiddle
          refine ⟨⟨?_, ⟨hsmall, hflag⟩, ?_⟩, fun _ => ?_⟩
          · dsimp only
            rw [List.length_append]
            exact hfits
          · dsimp only
            rw [output, List.append_nil]
            exact h.wellFed.outputs
          · refine ⟨⟨fragments, hfed, hconsecutive, hdata⟩, hpacket.total, ?_⟩
            dsimp only
            omega

theorem not_wellFed_of_wrap (w : Feed) (bytes : Bytes) (w' : Feed) (h : Feeding w)
    (hevent : ¬ NoWrap w bytes) (hstep : step w bytes = some w') : ¬ WellFed w' := by
  unfold NoWrap at hevent
  push Not at hevent
  obtain ⟨fragment, hdecode, hwraps⟩ := hevent
  rw [ne_eq, Bool.not_eq_false, ← overflows_eq_wraps h (total_lt_of_decode hdecode)] at hwraps
  unfold step at hstep
  rw [hdecode] at hstep
  obtain rfl := Option.some.inj hstep
  intro hwell
  have hflag := hwell.nextSeq.2
  dsimp only at hflag
  rw [hwraps, Bool.or_true] at hflag
  cases hflag

/-- A reassembler that is fed arbitrary bytes does what it should exactly when it is never fed a
fragment that continues a packet of no fragments after 65535 others. -/
theorem wellFed_iff (inputs : List Bytes) :
    Runs.Always step WellFed start inputs ↔ Runs.Meets step NoWrap start inputs :=
  Runs.always_iff_meets (fun _ h => h.wellFed) feeding_step not_wellFed_of_wrap feeding_start inputs

/-- Only a fragment with the last number can make the number of the next one overflow. -/
theorem noWrap_of_seq (w : Feed) {bytes : Bytes}
    (h : (decodeFragment bytes).all fun fragment => fragment.seq != 65535) : NoWrap w bytes := by
  intro fragment hdecode
  rw [hdecode, Option.all_some, bne_iff_ne] at h
  simp [Reassembler.wraps, h]

/-! ## Fragments of a packet that claims to have none -/

/-- An empty fragment with a number, of a packet with no fragments. -/
def zeroTotal (index : Nat) : Bytes := fragmentContinue :: (Bytes.ofU16 index ++ Bytes.ofU16 0)

theorem decode_zeroTotal {index : Nat} (h : index < 65536) :
    decodeFragment (zeroTotal index) = some { seq := index, total := 0, data := [] } := by
  unfold zeroTotal decodeFragment
  simp only [Bytes.ofU16, List.cons_append, List.nil_append]
  rw [Bytes.toU16_ofNat h, Bytes.toU16_ofNat (by decide), if_pos (by simp)]

theorem step_of_decode {bytes : Bytes} (w : Feed) (h : decodeFragment bytes = some fragment) :
    step w bytes = some
      { reassembler := (w.reassembler.absorb fragment).2
        fed := w.fed ++ [fragment]
        outputs := w.outputs ++ output (w.fed ++ [fragment]) (w.reassembler.absorb fragment).1
        overflowed := w.overflowed || overflows w.reassembler fragment } := by
  unfold step
  rw [h]

/-- After so many of them the reassembler waits for the next. -/
theorem exec_zeroTotal (count : Nat) (h : count < 65535) :
    ∃ w, Runs.exec step start ((List.range (count + 1)).map zeroTotal) = some w ∧
      w.reassembler = { buf := [], nextSeq := count + 1, total := 0, active := true } := by
  induction count with
  | zero => exact ⟨_, rfl, by decide⟩
  | succ count ih =>
      obtain ⟨w, hrun, hw⟩ := ih (by omega)
      rw [List.range_succ, List.map_append, Runs.exec_append_of_eq hrun, List.map_singleton]
      refine ⟨_, Runs.exec_cons_eq_some.mpr
        ⟨_, step_of_decode w (decode_zeroTotal (by omega)), rfl⟩, ?_⟩
      · have hstarted := Reassembler.started_of_ne
          (r := { buf := [], nextSeq := count + 1, total := 0, active := true })
          (f := { seq := count + 1, total := 0, data := [] }) (Nat.succ_ne_zero count)
        have hmod : (count + 1 + 1) % 65536 = count + 1 + 1 := Nat.mod_eq_of_lt (by omega)
        dsimp only
        rw [hw, Reassembler.absorb]
        dsimp only
        rw [hstarted]
        simp [hmod, hwMtu]

theorem exec_zeroTotal_all :
    ∃ w, Runs.exec step start ((List.range 65536).map zeroTotal) = some w ∧ w.overflowed = true := by
  obtain ⟨w, hrun, hw⟩ := exec_zeroTotal 65534 (by decide)
  rw [List.range_succ, List.map_append, Runs.exec_append_of_eq hrun, List.map_singleton]
  refine ⟨_, Runs.exec_cons_eq_some.mpr
    ⟨_, step_of_decode w (decode_zeroTotal (by decide)), rfl⟩, ?_⟩
  · have hlast : overflows w.reassembler { seq := 65535, total := 0, data := [] } = true := by
      rw [hw]
      decide
    dsimp only
    rw [hlast, Bool.or_true]

end Feed

end Reticulum.Ble
