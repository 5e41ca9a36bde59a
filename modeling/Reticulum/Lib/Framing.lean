import Mathlib.Data.List.ReduceOption
import Mathlib.Tactic.Common
import Reticulum.Lib.Emit

/-!
# Streams cut by flags

A reader keeps a buffer between reads. After each read it takes the frames between
flags out of its buffer, two flags at a time, and then drops what is left when that can
only be noise. A frame's closing flag stays in the buffer when it may open the next one.

The buffer holds at most one flag between reads. So a reader is a machine on single
symbols, `put`, with a pause, `rest`, wherever a read ends (`receiveAll_eq`). One that
keeps closing flags is back in step after the first frame that follows any noise
(`frames_of_ready`); one that does not keep them pairs the flags by their position.

## Implementation notes

A stream with the ends of its reads is a list of options, `none` for the end of a read.
-/

namespace Framing

variable {α F : Type*} [DecidableEq α]

/-- What stands before the first flag, and what follows it. -/
def splitAtFlag (flag : α) : List α → Option (List α × List α)
  | [] => none
  | b :: buffer =>
      if b = flag then some ([], buffer)
      else (splitAtFlag flag buffer).map fun split => (b :: split.1, split.2)

theorem splitAtFlag_eq_none {flag : α} {buffer : List α} (h : flag ∉ buffer) :
    splitAtFlag flag buffer = none := by
  induction buffer with
  | nil => rfl
  | cons b buffer ih =>
      rw [List.mem_cons, not_or] at h
      obtain ⟨hb, hbuffer⟩ := h
      rw [splitAtFlag, if_neg (Ne.symm hb), ih hbuffer]
      rfl

theorem splitAtFlag_append {flag : α} {before : List α} (h : flag ∉ before) (after : List α) :
    splitAtFlag flag (before ++ flag :: after) = some (before, after) := by
  induction before with
  | nil => simp [splitAtFlag]
  | cons b before ih =>
      rw [List.mem_cons, not_or] at h
      obtain ⟨hb, hbefore⟩ := h
      rw [List.cons_append, splitAtFlag, if_neg (Ne.symm hb), ih hbefore]
      rfl

theorem splitAtFlag_length {flag : α} {buffer before after : List α}
    (h : splitAtFlag flag buffer = some (before, after)) : after.length + 1 ≤ buffer.length := by
  induction buffer generalizing before after with
  | nil => cases h
  | cons b buffer ih =>
      rw [splitAtFlag] at h
      split at h
      · cases h
        exact Nat.le_refl _
      · obtain ⟨split, hsplit, heq⟩ := Option.map_eq_some_iff.mp h
        cases heq
        exact Nat.le_succ_of_le (ih hsplit)

/-- How a reader takes frames out of its buffer: what it makes of the symbols between two flags,
whether it keeps the closing flag, and when it drops what is left, by its length, with no flag in
it or with one. -/
structure Reader (α F : Type*) where
  flag : α
  decode : List α → Option F
  keepsFlag : Bool
  dropsBare : Nat → Bool
  dropsOpen : Nat → Bool

namespace Reader

variable (r : Reader α F)

theorem drain_decreases {flag : α} {keeps : Bool} {buffer before rest frame after : List α}
    (h : splitAtFlag flag buffer = some (before, rest))
    (h' : splitAtFlag flag rest = some (frame, after)) :
    (if keeps then flag :: after else after).length < buffer.length := by
  have hrest := splitAtFlag_length h
  have hafter := splitAtFlag_length h'
  split
  · rw [List.length_cons]
    omega
  · omega

/-- The frames in a buffer, and what is left of it. -/
def drain (buffer : List α) : List F × List α :=
  match _hfirst : splitAtFlag r.flag buffer with
  | none => ([], if r.dropsBare buffer.length then [] else buffer)
  | some (_, rest) =>
      match _hsecond : splitAtFlag r.flag rest with
      | none => ([], if r.dropsOpen buffer.length then [] else buffer)
      | some (frame, after) =>
          let left := drain (if r.keepsFlag then r.flag :: after else after)
          ((r.decode frame).toList ++ left.1, left.2)
  termination_by buffer.length
  decreasing_by exact drain_decreases _hfirst _hsecond

/-- A read comes in. -/
def receive (buffer data : List α) : List F × List α := r.drain (buffer ++ data)

variable {r} {junk frame : List α}

theorem drain_bare (h : r.flag ∉ junk) :
    r.drain junk = ([], if r.dropsBare junk.length then [] else junk) := by
  have hnone := splitAtFlag_eq_none h
  unfold drain
  split
  · rfl
  · rename_i hsome
    rw [hnone] at hsome
    cases hsome

theorem drain_open (h : r.flag ∉ junk) (hframe : r.flag ∉ frame) :
    r.drain (junk ++ r.flag :: frame) =
      ([], if r.dropsOpen (junk ++ r.flag :: frame).length then []
        else junk ++ r.flag :: frame) := by
  have hsplit := splitAtFlag_append h frame
  have hnone := splitAtFlag_eq_none hframe
  unfold drain
  split
  · rename_i hsome
    rw [hsplit] at hsome
    cases hsome
  · rename_i hsome
    rw [hsplit] at hsome
    cases hsome
    split
    · rfl
    · rename_i hnot
      rw [hnone] at hnot
      cases hnot

theorem drain_frame (h : r.flag ∉ junk) (hframe : r.flag ∉ frame) (after : List α) :
    r.drain (junk ++ r.flag :: (frame ++ r.flag :: after)) =
      ((r.decode frame).toList ++ (r.drain (if r.keepsFlag then r.flag :: after else after)).1,
        (r.drain (if r.keepsFlag then r.flag :: after else after)).2) := by
  have hsplit := splitAtFlag_append h (frame ++ r.flag :: after)
  have hsecond := splitAtFlag_append hframe after
  rw [drain]
  split
  · rename_i hsome
    rw [hsplit] at hsome
    cases hsome
  · rename_i hsome
    rw [hsplit] at hsome
    cases hsome
    split
    · rename_i hnot
      rw [hsecond] at hnot
      cases hnot
    · rename_i hnot
      rw [hsecond] at hnot
      cases hnot
      rfl

/-! ## One symbol at a time -/

end Reader

/-- What a buffer holds between reads: symbols before any flag, or a flag between two rows. -/
inductive Held (α : Type*)
  | outside (junk : List α)
  | inside (junk frame : List α)

namespace Held

/-- The buffer. -/
def buffer (flag : α) : Held α → List α
  | outside junk => junk
  | inside junk frame => junk ++ flag :: frame

/-- There is no other flag. -/
def Clean (flag : α) : Held α → Prop
  | outside junk => flag ∉ junk
  | inside junk frame => flag ∉ junk ∧ flag ∉ frame

/-- Nothing is held but a flag. -/
def Between (held : Held α) : Prop := held = outside [] ∨ held = inside [] []

/-- The next flag opens a frame, and no frame is lost by it. -/
def Ready (held : Held α) : Prop := held = outside [] ∨ ∃ junk, held = inside junk []

end Held

variable {held : Held α} {reads : List (List α)} {items : List (Option α)} {data : List α}

namespace Reader

open Held

variable (r : Reader α F)

/-- A symbol comes in. -/
def put : Held α → α → List F × Held α
  | outside junk, b =>
      if b = r.flag then ([], inside junk []) else ([], outside (junk ++ [b]))
  | inside junk frame, b =>
      if b = r.flag then
        ((r.decode frame).toList, if r.keepsFlag then inside [] [] else outside [])
      else ([], inside junk (frame ++ [b]))

/-- A read ends. -/
def rest : Held α → Held α
  | outside junk => if r.dropsBare junk.length then outside [] else outside junk
  | inside junk frame =>
      if r.dropsOpen (junk ++ r.flag :: frame).length then outside [] else inside junk frame

/-- A symbol comes in, or a read ends. -/
def take (held : Held α) : Option α → List F × Held α
  | some b => r.put held b
  | none => ([], r.rest held)

/-- A stream with the ends of its reads. -/
def marked (reads : List (List α)) : List (Option α) :=
  reads.flatMap fun data => data.map some ++ [none]

variable {r}

theorem put_clean (h : held.Clean r.flag) (b : α) : (r.put held b).2.Clean r.flag := by
  cases held with
  | outside junk =>
      rw [put]
      split
      · exact ⟨h, List.not_mem_nil⟩
      · rename_i hb
        exact fun hmem => (List.mem_append.mp hmem).elim h
          fun hlast => hb (List.mem_singleton.mp hlast).symm
  | inside junk frame =>
      rw [put]
      split
      · cases r.keepsFlag with
        | false => exact List.not_mem_nil
        | true => exact ⟨List.not_mem_nil, List.not_mem_nil⟩
      · rename_i hb
        exact ⟨h.1, fun hmem => (List.mem_append.mp hmem).elim h.2
          fun hlast => hb (List.mem_singleton.mp hlast).symm⟩

section

variable (h : held.Clean r.flag)

include h

omit [DecidableEq α] in
theorem rest_clean : (r.rest held).Clean r.flag := by
  cases held with
  | outside junk =>
      rw [rest]
      split
      · exact List.not_mem_nil
      · exact h
  | inside junk frame =>
      rw [rest]
      split
      · exact List.not_mem_nil
      · exact h

theorem drain_buffer :
    r.drain (held.buffer r.flag) = ([], (r.rest held).buffer r.flag) := by
  cases held with
  | outside junk =>
      refine (drain_bare h).trans ?_
      rw [rest]
      split <;> rfl
  | inside junk frame =>
      refine (drain_open h.1 h.2).trans ?_
      rw [rest]
      split <;> rfl

/-- A symbol at the front of a read is taken first. -/
theorem drain_cons (b : α) (data : List α) :
    r.drain (held.buffer r.flag ++ b :: data) =
      ((r.put held b).1 ++ (r.drain ((r.put held b).2.buffer r.flag ++ data)).1,
        (r.drain ((r.put held b).2.buffer r.flag ++ data)).2) := by
  cases held with
  | outside junk =>
      rw [put]
      split
      · rename_i hb
        subst hb
        simp [Held.buffer]
      · simp [Held.buffer]
  | inside junk frame =>
      rw [put]
      split
      · rename_i hb
        subst hb
        have hframe := drain_frame h.1 h.2 data
        cases hkeeps : r.keepsFlag <;> rw [hkeeps] at hframe <;>
          simpa [Held.buffer] using hframe
      · simp [Held.buffer]

/-- A read is taken symbol by symbol, and then it ends. -/
theorem receive_eq (data : List α) :
    r.receive (held.buffer r.flag) data =
      ((Emit.run r.take held (data.map some ++ [none])).1,
        (Emit.run r.take held (data.map some ++ [none])).2.buffer r.flag) := by
  unfold receive
  induction data generalizing held with
  | nil =>
      rw [List.append_nil, drain_buffer h]
      rfl
  | cons b data ih =>
      rw [drain_cons h, ih (put_clean h b), List.map_cons, List.cons_append, Emit.run_cons]
      rfl

theorem take_clean (item : Option α) :
    (r.take held item).2.Clean r.flag := by
  cases item with
  | none => exact rest_clean h
  | some b => exact put_clean h b

/-- The reads of a stream are taken symbol by symbol. -/
theorem receiveAll_eq (reads : List (List α)) :
    Emit.run r.receive (held.buffer r.flag) reads =
      ((Emit.run r.take held (marked reads)).1,
        (Emit.run r.take held (marked reads)).2.buffer r.flag) := by
  induction reads generalizing held with
  | nil => rfl
  | cons data reads ih =>
      have hmarked : marked (data :: reads) = (data.map some ++ [none]) ++ marked reads := rfl
      have hnext : (Emit.run r.take held (data.map some ++ [none])).2.Clean r.flag :=
        Emit.run_invariant (P := Held.Clean r.flag) (fun _ item hheld => take_clean hheld item) h _
      rw [hmarked, Emit.run_append (data.map some ++ [none]) (marked reads), Emit.run_cons,
        receive_eq h]
      dsimp only
      rw [ih hnext]

end

theorem receiveAll_start (reads : List (List α)) :
    Emit.run r.receive [] reads = ((Emit.run r.take (outside []) (marked reads)).1,
      (Emit.run r.take (outside []) (marked reads)).2.buffer r.flag) := by
  have hclean : (outside [] : Held α).Clean r.flag := List.not_mem_nil
  have hrun := receiveAll_eq hclean reads
  rwa [Held.buffer] at hrun

omit [DecidableEq α] in
theorem reduceOption_marked (reads : List (List α)) :
    (marked reads).reduceOption = reads.flatten := by
  induction reads with
  | nil => rfl
  | cons data reads ih =>
      have hmarked : marked (data :: reads) = (data.map some ++ [none]) ++ marked reads := rfl
      rw [hmarked, List.reduceOption_append, List.reduceOption_append, ih, List.flatten_cons]
      simp [List.reduceOption]

/-! ## Frames in a stream -/

/-- The symbols of frames, each between its flags. -/
def framed (flag : α) (frames : List (List α)) : List α :=
  frames.flatMap fun frame => flag :: (frame ++ [flag])

omit [DecidableEq α] in
theorem exists_of_reduceOption_cons {b : α} (h : items.reduceOption = b :: data) :
    ∃ n later, items = List.replicate n none ++ some b :: later ∧ later.reduceOption = data := by
  induction items with
  | nil => cases h
  | cons item items ih =>
      cases item with
      | none =>
          rw [List.reduceOption_cons_of_none] at h
          obtain ⟨n, later, hitems, hlater⟩ := ih h
          exact ⟨n + 1, later, by rw [hitems, List.replicate_succ, List.cons_append], hlater⟩
      | some other =>
          rw [List.reduceOption_cons_of_some] at h
          cases h
          exact ⟨0, items, rfl, rfl⟩

theorem run_pauses {P : Held α → Prop} (hrest : ∀ held, P held → P (r.rest held)) (h : P held)
    (n : Nat) : ∃ held', Emit.run r.take held (List.replicate n none) = ([], held') ∧ P held' := by
  induction n generalizing held with
  | zero => exact ⟨held, rfl, h⟩
  | succ n ih =>
      obtain ⟨held', hrun, hheld'⟩ := ih (hrest held h)
      refine ⟨held', ?_, hheld'⟩
      rw [List.replicate_succ, Emit.run_cons]
      exact congrArg (fun result => ([] ++ result.1, result.2)) hrun

/-- What stands inside a frame is kept, as long as it is not dropped for its length. -/
theorem run_body (junk frame : List α) (hdata : r.flag ∉ data) (hitems : items.reduceOption = data)
    (hopen : ∀ n ≤ junk.length + frame.length + data.length + 1, r.dropsOpen n = false) :
    Emit.run r.take (inside junk frame) items = ([], inside junk (frame ++ data)) := by
  induction items generalizing frame data with
  | nil =>
      cases hitems
      simp
  | cons item items ih =>
      cases item with
      | none =>
          rw [List.reduceOption_cons_of_none] at hitems
          have hkept : r.take (inside junk frame) none = ([], inside junk frame) := by
            rw [take, rest, hopen _ (by simp; omega)]
            rfl
          rw [Emit.run_cons, hkept, ih _ hdata hitems hopen]
          rfl
      | some b =>
          rw [List.reduceOption_cons_of_some] at hitems
          subst hitems
          rw [List.mem_cons, not_or] at hdata
          obtain ⟨hb, hdata⟩ := hdata
          have hput : r.take (inside junk frame) (some b) = ([], inside junk (frame ++ [b])) := by
            rw [take, put, if_neg (Ne.symm hb)]
          have hlater := ih (frame ++ [b]) hdata rfl fun n hn =>
            hopen n (by simp at hn ⊢; omega)
          rw [Emit.run_cons, hput, hlater, List.append_assoc]
          rfl

/-! ## Closing flags that are kept -/

omit [DecidableEq α] in
theorem rest_cases (held : Held α) : r.rest held = outside [] ∨ r.rest held = held := by
  cases held with
  | outside junk | inside junk frame =>
      rw [rest]
      split
      · exact .inl rfl
      · exact .inr rfl

omit [DecidableEq α] in
theorem ready_rest (h : held.Ready) : (r.rest held).Ready := by
  rcases rest_cases (r := r) held with hrest | hrest
  · exact .inl hrest
  · exact hrest.symm ▸ h

omit [DecidableEq α] in
theorem between_rest (h : held.Between) : (r.rest held).Between := by
  rcases rest_cases (r := r) held with hrest | hrest
  · exact .inl hrest
  · exact hrest.symm ▸ h

omit [DecidableEq α] in
theorem ready_of_between (h : held.Between) : held.Ready :=
  h.imp_right fun hinside => ⟨[], hinside⟩

theorem ready_put_flag (held : Held α) : (r.put held r.flag).2.Ready := by
  cases held with
  | outside junk =>
      rw [put, if_pos rfl]
      exact .inr ⟨junk, rfl⟩
  | inside junk frame =>
      rw [put, if_pos rfl]
      cases r.keepsFlag with
      | false => exact .inl rfl
      | true => exact .inr ⟨[], rfl⟩

/-- After a flag the next one opens a frame, whatever came before. -/
theorem ready_of_flag (held : Held α) (hitems : items.reduceOption = data ++ [r.flag]) :
    (Emit.run r.take held items).2.Ready := by
  obtain ⟨before, after, rfl, -, hafter⟩ := (List.reduceOption_eq_append_iff _ _ _).mp hitems
  obtain ⟨n, m, rfl⟩ := (List.reduceOption_eq_singleton_iff _ _).mp hafter
  rw [Emit.run_append, Emit.run_append, Emit.run_cons]
  obtain ⟨held', hrun, hready⟩ := run_pauses (r := r) (P := Held.Ready) (fun _ => ready_rest)
    (ready_put_flag (Emit.run r.take (Emit.run r.take held before).2
      (List.replicate n none)).2) m
  have htake : ∀ other, r.take other (some r.flag) = r.put other r.flag := fun _ => rfl
  dsimp only
  rw [htake, hrun]
  exact hready

/-- The opening flag of a frame. -/
theorem put_flag_of_ready (hkeeps : r.keepsFlag = true) (hempty : r.decode [] = none)
    (h : held.Ready) : r.put held r.flag = ([], inside [] []) := by
  rcases h with rfl | ⟨junk, rfl⟩
  · rw [put, if_pos rfl]
  · rw [put, if_pos rfl, if_pos hkeeps, hempty]
    rfl

theorem frame_of_ready (hkeeps : r.keepsFlag = true) (hempty : r.decode [] = none)
    (hframe : r.flag ∉ frame) (hopen : ∀ n ≤ frame.length + 1, r.dropsOpen n = false)
    (h : held.Ready) (hitems : items.reduceOption = r.flag :: (frame ++ [r.flag])) :
    ∃ held', Emit.run r.take held items = ((r.decode frame).toList, held') ∧ held'.Between := by
  obtain ⟨n, later, rfl, hlater⟩ := exists_of_reduceOption_cons hitems
  obtain ⟨body, close, rfl, hbody, hclose⟩ := (List.reduceOption_eq_append_iff _ _ _).mp hlater
  obtain ⟨m, after, rfl, hafter⟩ := exists_of_reduceOption_cons hclose
  obtain ⟨k, rfl⟩ := (List.reduceOption_eq_nil_iff _).mp hafter
  obtain ⟨ready, hready, hheld⟩ := run_pauses (r := r) (P := Held.Ready) (fun _ => ready_rest) h n
  have hpaused : (body ++ List.replicate m none).reduceOption = frame := by
    rw [List.reduceOption_append, hbody, List.reduceOption_replicate_none, List.append_nil]
  have hinside := run_body [] [] hframe hpaused fun n hn => hopen n (by simpa using hn)
  rw [List.nil_append] at hinside
  obtain ⟨held', hend, hheld'⟩ := run_pauses (r := r) (P := Held.Between) (fun _ => between_rest)
    (Or.inr rfl : (inside [] [] : Held α).Between) k
  refine ⟨held', ?_, hheld'⟩
  have hfirst : Emit.run r.take ready [some r.flag] = ([], inside [] []) :=
    (Emit.run_singleton _).trans (put_flag_of_ready hkeeps hempty hheld)
  have hlast : Emit.run r.take (inside [] frame) [some r.flag] =
      ((r.decode frame).toList, inside [] []) := by
    rw [Emit.run_singleton, take, put, if_pos rfl, if_pos hkeeps]
  have hparts : List.replicate n none ++ some r.flag ::
      (body ++ (List.replicate m none ++ some r.flag :: List.replicate k none)) =
      List.replicate n none ++ ([some r.flag] ++ ((body ++ List.replicate m none) ++
        ([some r.flag] ++ List.replicate k none))) := by
    simp
  rw [hparts, Emit.run_append_of_eq hready, Emit.run_append_of_eq hfirst,
    Emit.run_append_of_eq hinside, Emit.run_append_of_eq hlast, hend]
  simp

/-- Nothing is held, or the beginning of a frame. -/
def CutOff (held : Held α) : Prop := held = outside [] ∨ ∃ frame, held = inside [] frame

omit [DecidableEq α] in
theorem cutOff_rest (h : CutOff held) : CutOff (r.rest held) := by
  rcases rest_cases (r := r) held with hrest | hrest
  · exact .inl hrest
  · exact hrest.symm ▸ h

theorem between_pauses (h : held.Between) (n : Nat) :
    ∃ held', Emit.run r.take held (List.replicate n none) = ([], held') ∧ held'.Between :=
  run_pauses (P := Held.Between) (fun _ => between_rest) h n

omit [DecidableEq α] in
theorem cutOff_of_between (h : held.Between) : CutOff held :=
  h.imp_right fun hinside => ⟨[], hinside⟩

/-- A buffer that frames leave behind when they break off. -/
def LeftOver (flag : α) (buffer : List α) : Prop :=
  ∃ held : Held α, CutOff held ∧ held.Clean flag ∧ held.buffer flag = buffer

section
variable (hkeeps : r.keepsFlag = true) (hempty : r.decode [] = none)
  {frames : List (List α)} (hframes : ∀ frame ∈ frames, r.flag ∉ frame)
  (hopen : ∀ frame ∈ frames, ∀ n ≤ frame.length + 1, r.dropsOpen n = false)
include hkeeps hempty hframes hopen

/-- Frames come one after another. -/
theorem frames_of_ready (h : held.Ready) (hitems : items.reduceOption = framed r.flag frames) :
    (Emit.run r.take held items).1 = frames.flatMap fun frame => (r.decode frame).toList := by
  induction frames generalizing held items with
  | nil =>
      obtain ⟨n, rfl⟩ := (List.reduceOption_eq_nil_iff _).mp hitems
      obtain ⟨held', hrun, -⟩ := run_pauses (r := r) (P := Held.Ready) (fun _ => ready_rest) h n
      rw [hrun]
      rfl
  | cons frame frames ih =>
      obtain ⟨first, later, rfl, hfirst, hlater⟩ :=
        (List.reduceOption_eq_append_iff _ _ _).mp hitems
      obtain ⟨held', hrun, hheld'⟩ := frame_of_ready hkeeps hempty
        (hframes frame List.mem_cons_self) (hopen frame List.mem_cons_self) h hfirst
      have hrest := ih (fun other hother => hframes other (List.mem_cons_of_mem _ hother))
        (fun other hother => hopen other (List.mem_cons_of_mem _ hother))
        (ready_of_between hheld') hlater
      rw [Emit.run_append_of_eq hrun, hrest, List.flatMap_cons]

/-- The reads of a stream of frames hand over what each frame says. -/
theorem receiveAll_frames (hreads : reads.flatten = framed r.flag frames) :
    (Emit.run r.receive [] reads).1 = frames.flatMap fun frame => (r.decode frame).toList := by
  rw [receiveAll_start]
  exact frames_of_ready hkeeps hempty hframes hopen (.inl rfl)
    ((reduceOption_marked reads).trans hreads)

/-- Frames that are in are handed over, whatever has come in of the next one. -/
theorem prefix_receiveAll {more : List α} (hreads : reads.flatten = framed r.flag frames ++ more) :
    (frames.flatMap fun frame => (r.decode frame).toList) <+: (Emit.run r.receive [] reads).1 := by
  obtain ⟨first, later, hmarked, hfirst, -⟩ :=
    (List.reduceOption_eq_append_iff _ _ _).mp ((reduceOption_marked reads).trans hreads)
  rw [receiveAll_start, hmarked, Emit.run_append,
    ← frames_of_ready hkeeps hempty hframes hopen (.inl rfl) hfirst]
  exact List.prefix_append _ _

/-- After any noise and one frame, whatever becomes of it, every frame is handed over. -/
theorem receiveAll_recovers {noise : List α}
    (hreads : reads.flatten = (noise ++ [r.flag]) ++ framed r.flag frames) :
    ∃ early, (Emit.run r.receive [] reads).1 =
      early ++ frames.flatMap fun frame => (r.decode frame).toList := by
  obtain ⟨before, after, hmarked, hbefore, hafter⟩ := (List.reduceOption_eq_append_iff _ _ _).mp
    ((reduceOption_marked reads).trans hreads)
  rw [receiveAll_start, hmarked, Emit.run_append]
  exact ⟨_, congrArg _ (frames_of_ready hkeeps hempty hframes hopen
    (ready_of_flag _ hbefore) hafter)⟩

/-! ## Frames that break off -/

/-- Frames that break off leave the beginning of one. -/
theorem cutOff_run (h : held.Between) (hitems : items.reduceOption <+: framed r.flag frames) :
    CutOff (Emit.run r.take held items).2 := by
  induction frames generalizing held items with
  | nil =>
      obtain ⟨n, rfl⟩ := (List.reduceOption_eq_nil_iff _).mp (List.prefix_nil.mp hitems)
      obtain ⟨held', hrun, hheld'⟩ := between_pauses h n
      rw [hrun]
      exact cutOff_of_between hheld'
  | cons frame frames ih =>
      have hfirst := hopen frame List.mem_cons_self
      have hclean := hframes frame List.mem_cons_self
      rw [framed, List.flatMap_cons] at hitems
      rcases List.prefix_or_prefix_of_prefix hitems (List.prefix_append _ _) with hshort | hlong
      · -- the first frame is not complete
        cases hreduced : items.reduceOption with
        | nil =>
            obtain ⟨n, rfl⟩ := (List.reduceOption_eq_nil_iff _).mp hreduced
            obtain ⟨held', hrun, hheld'⟩ := between_pauses h n
            rw [hrun]
            exact cutOff_of_between hheld'
        | cons b begun =>
            rw [hreduced, List.cons_prefix_cons, List.prefix_concat_iff] at hshort
            obtain ⟨rfl, rfl | hbegun⟩ := hshort
            · obtain ⟨held', hrun, hheld'⟩ := frame_of_ready hkeeps hempty hclean hfirst
                (ready_of_between h) hreduced
              rw [hrun]
              exact cutOff_of_between hheld'
            · obtain ⟨n, later, rfl, hlater⟩ := exists_of_reduceOption_cons hreduced
              obtain ⟨held', hrun, hheld'⟩ := between_pauses h n
              have hput : r.take held' (some r.flag) = ([], inside [] []) :=
                put_flag_of_ready hkeeps hempty (ready_of_between hheld')
              have hbody := run_body [] [] (fun hmem => hclean (hbegun.subset hmem)) hlater
                fun n hn => hfirst n (by have := hbegun.length_le; simp at hn; omega)
              rw [Emit.run_append_of_eq hrun, Emit.run_cons, hput, hbody]
              exact .inr ⟨_, rfl⟩
      · obtain ⟨more, hmore⟩ := hlong
        obtain ⟨first, later, rfl, hdone, hlater⟩ :=
          (List.reduceOption_eq_append_iff _ _ _).mp hmore.symm
        obtain ⟨held', hrun, hheld'⟩ := frame_of_ready hkeeps hempty hclean hfirst
          (ready_of_between h) hdone
        rw [← hmore, List.prefix_append_right_inj] at hitems
        rw [Emit.run_append_of_eq hrun]
        exact ih (fun other hother => hframes other (List.mem_cons_of_mem _ hother))
          (fun other hother => hopen other (List.mem_cons_of_mem _ hother)) hheld'
          (hlater ▸ hitems)

theorem leftOver_receiveAll (hreads : reads.flatten <+: framed r.flag frames) :
    LeftOver r.flag (Emit.run r.receive [] reads).2 := by
  have hclean : (outside [] : Held α).Clean r.flag := List.not_mem_nil
  refine ⟨_, cutOff_run hkeeps hempty hframes hopen (.inl rfl)
    ((reduceOption_marked reads).symm ▸ hreads), ?_,
    (congrArg Prod.snd (receiveAll_start reads)).symm⟩
  exact Emit.run_invariant (P := Held.Clean r.flag) (fun _ item hheld => take_clean hheld item)
    hclean _

end

/-- A flag ends what was cut off, and the reader goes on as one that starts. -/
theorem run_of_cutOff (hkeeps : r.keepsFlag = true) (h : CutOff held)
    (hitems : items.reduceOption = r.flag :: data) :
    ∃ early, early.length ≤ 1 ∧ (held = outside [] → early = []) ∧
      Emit.run r.take held items = (early ++ (Emit.run r.take (outside []) items).1,
        (Emit.run r.take (outside []) items).2) := by
  obtain ⟨n, later, rfl, -⟩ := exists_of_reduceOption_cons hitems
  obtain ⟨start, hstart, rfl⟩ := run_pauses (r := r) (P := fun held => held = outside [])
    (fun held hheld => by
      subst hheld
      rw [rest]
      split <;> rfl) rfl n
  have hput : r.take (outside []) (some r.flag) = ([], inside [] []) := if_pos rfl
  obtain ⟨held', hrun, hheld'⟩ := run_pauses (r := r) (P := CutOff) (fun _ => cutOff_rest) h n
  rcases hheld' with rfl | ⟨frame, rfl⟩
  · exact ⟨[], Nat.zero_le _, fun _ => rfl, by
      rw [Emit.run_append_of_eq hrun, Emit.run_append_of_eq hstart]; rfl⟩
  · have hclose : r.take (inside [] frame) (some r.flag) =
        ((r.decode frame).toList, inside [] []) := by
      rw [take, put, if_pos rfl, if_pos hkeeps]
    refine ⟨(r.decode frame).toList, Option.length_toList_le, ?_, ?_⟩
    · rintro rfl
      exact absurd (hrun.symm.trans hstart) (by simp)
    · rw [Emit.run_append_of_eq hrun, Emit.run_append_of_eq hstart, Emit.run_cons, Emit.run_cons,
        hclose, hput]
      rfl

/-- After a buffer with the beginning of a frame a stream of frames is read as from the start, but
for what the buffer held. -/
theorem receiveAll_leftOver (hkeeps : r.keepsFlag = true) {buffer : List α}
    (h : LeftOver r.flag buffer) (hreads : reads.flatten = r.flag :: data) :
    ∃ early, early.length ≤ 1 ∧ (buffer = [] → early = []) ∧
      Emit.run r.receive buffer reads =
        (early ++ (Emit.run r.receive [] reads).1, (Emit.run r.receive [] reads).2) := by
  obtain ⟨held, hcut, hclean, rfl⟩ := h
  obtain ⟨early, hlength, hnone, hrun⟩ := run_of_cutOff hkeeps hcut
    ((reduceOption_marked reads).trans hreads)
  refine ⟨early, hlength, fun hbuffer => hnone ?_, ?_⟩
  · rcases hcut with rfl | ⟨frame, rfl⟩
    · rfl
    · cases hbuffer
  · rw [receiveAll_eq hclean, hrun, receiveAll_start]

/-- What is left of the buffer is short, when long rests are dropped. -/
theorem length_drain_le {limit : Nat} (hbare : ∀ n, limit < n → r.dropsBare n = true)
    (hopen : ∀ n, limit < n → r.dropsOpen n = true) (buffer : List α) :
    (r.drain buffer).2.length ≤ limit := by
  have hkept : ∀ (drops : Nat → Bool) (buffer : List α),
      (∀ n, limit < n → drops n = true) →
        (if drops buffer.length then [] else buffer).length ≤ limit := by
    intro drops buffer hdrops
    split
    · exact Nat.zero_le _
    · rename_i hnot
      exact Nat.le_of_not_lt fun hlong => hnot (hdrops _ hlong)
  fun_induction drain r buffer with
  | case1 buffer hnone => exact hkept _ _ hbare
  | case2 buffer junk rest hsome hnone => exact hkept _ _ hopen
  | case3 buffer junk rest hsome frame after hframe left ih => exact ih

end Reader

end Framing
