import Reticulum.Lib.Framing

/-!
# Flags paired by position

A reader that does not keep closing flags takes every second flag for a closing one. It
hands over the frames that follow some noise exactly when the flags before them pair up
and no read ends inside one of them with too much in the buffer (`handed_iff`).

## Implementation notes

Reads are not empty, so a stream with the ends of its reads is a list of symbols, each
with a mark that says whether a read ends after it. What was handed over for the first
symbols of a stream is what its reads hand over when the last of them is cut short.
-/

namespace Framing

variable {α F : Type*} [DecidableEq α]

/-! ## Marked streams -/

/-- The symbols of a read; the last one is marked. -/
def mark : List α → List (α × Bool)
  | [] => []
  | [b] => [(b, true)]
  | b :: next :: data => (b, false) :: mark (next :: data)

/-- The symbols of a stream, each marked when a read ends after it. -/
def marks (reads : List (List α)) : List (α × Bool) := reads.flatMap mark

/-- The reads of the first `n` symbols. -/
def upTo : Nat → List (List α) → List (List α)
  | 0, _ => []
  | _, [] => []
  | n, data :: reads =>
      if n ≤ data.length then [data.take n] else data :: upTo (n - data.length) reads

/-- A read ends when exactly `data` has come in. -/
def EndsAt (reads : List (List α)) (data : List α) : Prop :=
  ∃ done, done <+: reads ∧ done.flatten = data

/-- The same of a marked stream. -/
def EndsIn (stream : List (α × Bool)) (data : List α) : Prop :=
  ∃ before b, before ++ [(b, true)] <+: stream ∧ (before ++ [(b, true)]).map Prod.fst = data

omit [DecidableEq α] in
theorem mark_append (before : List α) (b : α) (after : List α) :
    mark (before ++ b :: after) = before.map (·, false) ++ (b, after.isEmpty) :: mark after := by
  induction before with
  | nil => cases after <;> rfl
  | cons first before ih =>
      cases before with
      | nil =>
          rw [List.cons_append, List.nil_append, mark, ← List.nil_append (b :: after), ih]
          rfl
      | cons next before =>
          rw [List.cons_append, List.cons_append, mark, ← List.cons_append, ih]
          rfl

omit [DecidableEq α] in
theorem map_fst_mark (data : List α) : (mark data).map Prod.fst = data := by
  induction data with
  | nil => rfl
  | cons b data ih =>
      rw [← List.nil_append (b :: data), mark_append, List.map_append, List.map_cons, ih]
      rfl

omit [DecidableEq α] in
theorem length_mark (data : List α) : (mark data).length = data.length := by
  rw [← List.length_map Prod.fst, map_fst_mark]

omit [DecidableEq α] in
theorem marks_cons (data : List α) (reads : List (List α)) :
    marks (data :: reads) = mark data ++ marks reads := List.flatMap_cons

omit [DecidableEq α] in
theorem map_fst_marks (reads : List (List α)) : (marks reads).map Prod.fst = reads.flatten := by
  induction reads with
  | nil => rfl
  | cons data reads ih =>
      rw [marks_cons, List.map_append, map_fst_mark, List.flatten_cons, ih]

variable {held : Held α} {reads : List (List α)} {stream : List (α × Bool)} {data : List α}

omit [DecidableEq α] in
/-- Cutting the last read short only moves its mark. -/
theorem marks_upTo {n : Nat} (hpos : 0 < n) (hle : n ≤ reads.flatten.length) :
    ∃ before b ends, (marks reads).take n = before ++ [(b, ends)] ∧
      marks (upTo n reads) = before ++ [(b, true)] := by
  induction reads generalizing n with
  | nil => exact absurd hle (Nat.not_le.mpr hpos)
  | cons data reads ih =>
      obtain ⟨k, rfl⟩ : ∃ k, n = k + 1 := ⟨n - 1, by omega⟩
      rw [List.flatten_cons, List.length_append] at hle
      by_cases hdata : k + 1 ≤ data.length
      · have hlt : k < data.length := hdata
        have hparts : data = data.take k ++ data[k] :: data.drop (k + 1) := by simp
        have hcut : data.take (k + 1) = data.take k ++ [data[k]] := by simp
        refine ⟨(data.take k).map (·, false), data[k], (data.drop (k + 1)).isEmpty, ?_, ?_⟩
        · rw [marks_cons, List.take_append_of_le_length (by rw [length_mark]; exact hdata),
            congrArg mark hparts, mark_append]
          simp [List.take_append, List.take_of_length_le, Nat.le_of_lt hlt]
        · rw [upTo, if_pos hdata, marks_cons, hcut, mark_append]
          · simp [mark, marks]
          · simp
      · obtain ⟨before, b, ends, htake, hmarks⟩ := ih (n := k + 1 - data.length) (by omega) (by omega)
        refine ⟨mark data ++ before, b, ends, ?_, ?_⟩
        · rw [marks_cons, List.take_append, length_mark, htake,
            List.take_of_length_le (by rw [length_mark]; omega), List.append_assoc]
        · rw [upTo, if_neg hdata, marks_cons, hmarks, List.append_assoc]
          simp

omit [DecidableEq α] in
theorem exists_marked (h : reads.flatten ≠ []) :
    ∃ before b, marks reads = before ++ [(b, true)] := by
  have hpos : 0 < reads.flatten.length := List.length_pos_iff.mpr h
  induction reads with
  | nil => exact absurd rfl h
  | cons data reads ih =>
      rw [marks_cons]
      by_cases hreads : reads.flatten = []
      · have hmarks : marks reads = [] := by
          rw [← List.map_eq_nil_iff (f := Prod.fst), map_fst_marks, hreads]
        rw [List.flatten_cons, hreads, List.append_nil] at h
        obtain ⟨before, b, hdata⟩ := (List.eq_nil_or_concat data).resolve_left h
        rw [List.concat_eq_append] at hdata
        rw [hmarks, hdata, mark_append, List.append_nil]
        exact ⟨_, b, rfl⟩
      · obtain ⟨before, b, hmarks⟩ := ih hreads (List.length_pos_iff.mpr hreads)
        exact ⟨mark data ++ before, b, by rw [hmarks, List.append_assoc]⟩

omit [DecidableEq α] in
theorem endsIn_marks (hdata : data ≠ []) (h : EndsAt reads data) : EndsIn (marks reads) data := by
  obtain ⟨done, ⟨more, rfl⟩, rfl⟩ := h
  obtain ⟨before, b, hmarks⟩ := exists_marked hdata
  refine ⟨before, b, ⟨marks more, ?_⟩, by rw [← hmarks, map_fst_marks]⟩
  rw [← hmarks, marks, marks, marks, List.flatMap_append]

omit [DecidableEq α] in
/-- Only the last symbol of a read is marked. -/
theorem eq_nil_of_mark {before after : List (α × Bool)} {b : α}
    (h : mark data = before ++ (b, true) :: after) : after = [] := by
  have hdata : data = before.map Prod.fst ++ b :: after.map Prod.fst := by
    rw [← map_fst_mark data, h, List.map_append, List.map_cons]
  rw [hdata, mark_append] at h
  have hsame := (List.append_inj h (by simp)).2
  have hempty : (after.map Prod.fst).isEmpty = true := congrArg Prod.snd (List.cons_eq_cons.mp hsame).1
  rwa [List.isEmpty_iff, List.map_eq_nil_iff] at hempty

omit [DecidableEq α] in
theorem endsAt_of_marks (h : EndsIn (marks reads) data) : EndsAt reads data := by
  obtain ⟨before, b, ⟨after, hmarks⟩, rfl⟩ := h
  induction reads generalizing before with
  | nil => simp [marks] at hmarks
  | cons read reads ih =>
      have hlater : ∀ tail, marks reads = tail ++ ([(b, true)] ++ after) →
          EndsAt (read :: reads) ((mark read ++ tail ++ [(b, true)]).map Prod.fst) := by
        intro tail htail
        obtain ⟨done, hdone, hflatten⟩ := ih tail (by rw [List.append_assoc, htail])
        refine ⟨read :: done, List.cons_prefix_cons.mpr ⟨rfl, hdone⟩, ?_⟩
        simp only [List.flatten_cons, hflatten, List.map_append, map_fst_mark, List.append_assoc]
      rw [marks_cons, List.append_assoc] at hmarks
      rcases List.append_eq_append_iff.mp hmarks with ⟨tail, hread, htail⟩ | ⟨tail, hbefore, htail⟩
      · cases tail with
        | nil =>
            rw [List.append_nil] at hread
            rw [← hread]
            simpa using hlater [] htail.symm
        | cons first tail =>
            obtain ⟨rfl, -⟩ := List.cons_eq_cons.mp htail
            rw [eq_nil_of_mark hread] at hread
            rw [← hread, map_fst_mark]
            exact ⟨[read], List.cons_prefix_cons.mpr ⟨rfl, List.nil_prefix⟩, by simp⟩
      · rw [hbefore]
        exact hlater tail htail

/-! ## The reader on a marked stream -/

/-- How many flags a buffer holds. -/
def Held.flags : Held α → Nat
  | .outside _ => 0
  | .inside _ _ => 1

omit [DecidableEq α] in
theorem ne_nil_of_mem_upTo (h : ∀ data ∈ reads, data ≠ []) (n : Nat) :
    ∀ data ∈ upTo n reads, data ≠ [] := by
  induction reads generalizing n with
  | nil => cases n <;> simp [upTo]
  | cons read reads ih =>
      have hread := h read List.mem_cons_self
      have hlater := ih fun data hdata => h data (List.mem_cons_of_mem _ hdata)
      cases n with
      | zero => simp [upTo]
      | succ n =>
          rw [upTo]
          · split
            · simp [hread]
            · intro data hdata
              rcases List.mem_cons.mp hdata with rfl | hdata
              · exact hread
              · exact hlater _ data hdata
          · simp

namespace Reader

open Held

variable (r : Reader α F)

/-- A symbol comes in, and a read may end after it. -/
def step (held : Held α) (item : α × Bool) : List F × Held α :=
  let next := r.put held item.1
  (next.1, if item.2 then r.rest next.2 else next.2)

/-- What waits in the buffer when `n` symbols have come in: reads that have ended have been
searched for frames, one that has not ended yet is not searched. -/
def waiting : List α → List (List α) → Nat → List α
  | buffer, [], _ => buffer
  | buffer, data :: reads, n =>
      if data.length ≤ n then waiting (r.receive buffer data).2 reads (n - data.length)
      else buffer ++ data.take n

variable {r}

omit [DecidableEq α] in
theorem rest_outside_nil : r.rest (outside []) = outside [] := by
  rw [rest]
  split <;> rfl

section

variable (h : held.Clean r.flag)

include h

theorem step_clean (item : α × Bool) :
    (r.step held item).2.Clean r.flag := by
  unfold step
  dsimp only
  split
  · exact rest_clean (put_clean h _)
  · exact put_clean h _

theorem run_step_clean (stream : List (α × Bool)) :
    (Emit.run r.step held stream).2.Clean r.flag :=
  Emit.run_invariant (P := Held.Clean r.flag) (fun _ item hheld => step_clean hheld item) h stream

theorem receive_mark (hdata : data ≠ []) :
    r.receive (held.buffer r.flag) data =
      ((Emit.run r.step held (mark data)).1,
        (Emit.run r.step held (mark data)).2.buffer r.flag) := by
  unfold receive
  induction data generalizing held with
  | nil => exact absurd rfl hdata
  | cons b data ih =>
      rw [drain_cons h]
      cases data with
      | nil =>
          rw [List.append_nil, drain_buffer (put_clean h b), mark, Emit.run_singleton,
            List.append_nil]
          rfl
      | cons next data =>
          rw [ih (put_clean h b) (List.cons_ne_nil _ _), mark, Emit.run_cons]
          rfl

theorem receiveAll_marks (hreads : ∀ data ∈ reads, data ≠ []) :
    Emit.run r.receive (held.buffer r.flag) reads =
      ((Emit.run r.step held (marks reads)).1,
        (Emit.run r.step held (marks reads)).2.buffer r.flag) := by
  induction reads generalizing held with
  | nil => rfl
  | cons data reads ih =>
      have hlater := ih (run_step_clean h (mark data)) fun other hother =>
        hreads other (List.mem_cons_of_mem _ hother)
      rw [marks_cons, Emit.run_append, Emit.run_cons,
        receive_mark h (hreads data List.mem_cons_self)]
      dsimp only
      rw [hlater]

end

/-- What was handed over for the first symbols. -/
theorem handed_upTo (hreads : ∀ data ∈ reads, data ≠ []) {n : Nat} (hpos : 0 < n)
    (hle : n ≤ reads.flatten.length) :
    (Emit.run r.receive [] (upTo n reads)).1 =
      (Emit.run r.step (outside []) ((marks reads).take n)).1 := by
  have hclean : (outside [] : Held α).Clean r.flag := List.not_mem_nil
  have hrun := receiveAll_marks hclean (ne_nil_of_mem_upTo hreads n)
  obtain ⟨before, b, ends, htake, hmarks⟩ := marks_upTo hpos hle
  rw [Held.buffer] at hrun
  rw [hrun, hmarks, htake, Emit.run_append, Emit.run_append, Emit.run_singleton,
    Emit.run_singleton]
  rfl

/-! ## Pairs of flags -/

theorem count_clean (h : held.Clean r.flag) : (held.buffer r.flag).count r.flag = held.flags := by
  cases held with
  | outside junk => exact List.count_eq_zero.mpr h
  | inside junk frame =>
      rw [Held.buffer, List.count_append, List.count_cons_self, List.count_eq_zero.mpr h.1,
        List.count_eq_zero.mpr h.2]
      rfl

section

variable (hkeeps : r.keepsFlag = false)

include hkeeps

/-- A symbol leaves as many flags as it finds, up to pairs. -/
theorem count_put (h : held.Clean r.flag) (b : α) :
    ((held.buffer r.flag).count r.flag + [b].count r.flag) % 2 =
      (((r.put held b).2.buffer r.flag).count r.flag) % 2 := by
  rw [count_clean h, count_clean (put_clean h b)]
  by_cases hb : b = r.flag
  · subst hb
    cases held with
    | outside junk => simp [put, Held.flags]
    | inside junk frame => simp [put, hkeeps, Held.flags]
  · have hcount : [b].count r.flag = 0 := by
      rw [List.count_eq_zero, List.mem_singleton]
      exact Ne.symm hb
    rw [hcount]
    cases held with
    | outside junk => simp [put, hb, Held.flags]
    | inside junk frame => simp [put, hb, Held.flags]

theorem count_symbols (h : held.Clean r.flag) (data : List α) :
    ((held.buffer r.flag ++ data).count r.flag) % 2 =
      (((Emit.run r.step held (data.map (·, false))).2.buffer r.flag).count r.flag) % 2 := by
  induction data generalizing held with
  | nil => simp
  | cons b data ih =>
      have hput := count_put hkeeps h b
      have hlater := ih (put_clean h b)
      rw [List.count_append] at hlater ⊢
      rw [List.map_cons, Emit.run_cons, ← List.singleton_append, List.count_append]
      refine Eq.trans ?_ hlater
      omega

/-- The flags that wait pair up exactly when no frame is open. -/
theorem count_waiting (h : held.Clean r.flag)
    (hreads : ∀ data ∈ reads, data ≠ []) (n : Nat) :
    ((r.waiting (held.buffer r.flag) reads n).count r.flag) % 2 =
      (((Emit.run r.step held ((marks reads).take n)).2.buffer r.flag).count r.flag) % 2 := by
  induction reads generalizing held n with
  | nil => simp [waiting, marks]
  | cons data reads ih =>
      rw [waiting, marks_cons]
      split
      · rename_i hle
        have hlater := ih (run_step_clean h (mark data))
          (fun other hother => hreads other (List.mem_cons_of_mem _ hother)) (n - data.length)
        rw [receive_mark h (hreads data List.mem_cons_self)]
        rw [List.take_append, List.take_of_length_le (by rw [length_mark]; exact hle), length_mark,
          Emit.run_append]
        exact hlater
      · rename_i hgt
        have hlt : n < data.length := Nat.lt_of_not_le hgt
        have hparts : data = data.take n ++ data[n] :: data.drop (n + 1) := by simp
        have htake : (mark data ++ marks reads).take n = (data.take n).map (·, false) := by
          rw [List.take_append_of_le_length (by rw [length_mark]; exact Nat.le_of_lt hlt),
            congrArg mark hparts, mark_append]
          simp [Nat.le_of_lt hlt]
        rw [htake]
        exact count_symbols hkeeps h _

end

/-! ## Frames that follow one another -/

omit [DecidableEq α] in
theorem endsIn_iff {before stream : List (α × Bool)} {b : α} {ends : Bool}
    (h : before ++ [(b, ends)] <+: stream) :
    EndsIn stream ((before ++ [(b, ends)]).map Prod.fst) ↔ ends = true := by
  constructor
  · rintro ⟨other, last, hprefix, hsame⟩
    have hlength := congrArg List.length hsame
    rw [List.length_map, List.length_map] at hlength
    have heq := (List.prefix_of_prefix_length_le hprefix h (Nat.le_of_eq hlength)).eq_of_length hlength
    exact (congrArg Prod.snd (List.cons_eq_cons.mp (List.append_inj' heq rfl).2).1).symm
  · rintro rfl
    exact ⟨before, b, h, rfl⟩

omit [DecidableEq α] in
theorem endsIn_append {first later : List (α × Bool)} (hdata : data ≠ []) :
    EndsIn (first ++ later) (first.map Prod.fst ++ data) ↔ EndsIn later data := by
  constructor
  · rintro ⟨before, b, hprefix, hsame⟩
    have hlength := congrArg List.length hsame
    have hpos := List.length_pos_iff.mpr hdata
    rw [List.length_map, List.length_append, List.length_append, List.length_map,
      List.length_singleton] at hlength
    have hfirst : first <+: before := List.prefix_of_prefix_length_le (List.prefix_append _ _)
      ((List.prefix_append before _).trans hprefix) (by omega)
    obtain ⟨rest, rfl⟩ := hfirst
    rw [List.append_assoc] at hprefix hsame
    rw [List.map_append] at hsame
    exact ⟨rest, b, (List.prefix_append_right_inj first).mp hprefix,
      List.append_cancel_left hsame⟩
  · rintro ⟨before, b, hprefix, rfl⟩
    refine ⟨first ++ before, b, ?_, by simp⟩
    rw [List.append_assoc]
    exact (List.prefix_append_right_inj first).mpr hprefix

theorem step_body (junk frame : List α) (hdata : r.flag ∉ data)
    (hstream : stream.map Prod.fst = data)
    (hopen : ∀ n ≤ junk.length + frame.length + data.length + 1, r.dropsOpen n = false) :
    Emit.run r.step (inside junk frame) stream = ([], inside junk (frame ++ data)) := by
  induction stream generalizing frame data with
  | nil =>
      subst hstream
      simp
  | cons item stream ih =>
      subst hstream
      rw [List.map_cons, List.mem_cons, not_or] at hdata
      obtain ⟨hb, hdata⟩ := hdata
      have hput : r.put (inside junk frame) item.1 = ([], inside junk (frame ++ [item.1])) := by
        rw [put, if_neg (Ne.symm hb)]
      have hstep : r.step (inside junk frame) item = ([], inside junk (frame ++ [item.1])) := by
        unfold step
        rw [hput]
        dsimp only
        rw [rest, hopen _ (by simp; omega)]
        split <;> rfl
      have hlater := ih (frame ++ [item.1]) hdata rfl fun n hn =>
        hopen n (by simp at hn ⊢; omega)
      rw [Emit.run_cons, hstep, hlater, List.append_assoc]
      rfl

variable {limit : Nat}

/-- The opening flag and the symbols of a frame: the frame is held, unless a read ends after them
and they are too many. -/
theorem step_opening (hopen : ∀ n, r.dropsOpen n = decide (limit < n)) {frame : List α}
    (hframe : r.flag ∉ frame) (hne : frame ≠ []) (hlen : frame.length ≤ limit)
    {before : List (α × Bool)} {b : α} {ends : Bool}
    (hbefore : (before ++ [(b, ends)]).map Prod.fst = r.flag :: frame) :
    Emit.run r.step (outside []) (before ++ [(b, ends)]) =
      ([], if ends = true ∧ limit < frame.length + 1 then outside [] else inside [] frame) := by
  have hpos := List.length_pos_iff.mpr hne
  cases before with
  | nil =>
      rw [List.nil_append, List.map_singleton] at hbefore
      exact absurd (List.cons_eq_cons.mp hbefore).2.symm hne
  | cons first before =>
      rw [List.cons_append, List.map_cons, List.map_append, List.map_singleton] at hbefore
      obtain ⟨hflag, hsplit⟩ := List.cons_eq_cons.mp hbefore
      have hsize := congrArg List.length hsplit
      rw [List.length_append, List.length_map, List.length_singleton] at hsize
      have hbody : r.flag ∉ before.map Prod.fst := fun hmem =>
        hframe (by rw [← hsplit]; exact List.mem_append_left _ hmem)
      have hb : b ≠ r.flag := by
        rintro rfl
        exact hframe (by rw [← hsplit]; simp)
      have hfirst : r.step (outside []) first = ([], inside [] []) := by
        unfold step
        rw [hflag, put, if_pos rfl]
        dsimp only
        rw [rest, hopen, decide_eq_false (by simp; omega)]
        split <;> rfl
      have hmiddle : Emit.run r.step (inside [] []) before = ([], inside [] (before.map Prod.fst)) :=
        step_body [] [] hbody rfl fun n hn => by
          rw [hopen]
          exact decide_eq_false (by simp at hn; omega)
      have hlast : r.step (inside [] (before.map Prod.fst)) (b, ends) =
          ([], if ends = true ∧ limit < frame.length + 1 then outside [] else inside [] frame) := by
        unfold step
        rw [put, if_neg hb, hsplit]
        dsimp only
        rw [rest, hopen]
        cases ends <;> simp
      rw [List.cons_append, Emit.run_cons, hfirst]
      dsimp only
      rw [Emit.run_append_of_eq hmiddle, Emit.run_singleton, hlast]
      rfl

omit [DecidableEq α] in
/-- The parts of a frame in a marked stream. -/
theorem exists_opening {flag : α} {frame data : List α}
    (hstream : stream.map Prod.fst = flag :: (frame ++ [flag]) ++ data) :
    ∃ before b ends close later, stream = before ++ [(b, ends)] ++ [(flag, close)] ++ later ∧
      (before ++ [(b, ends)]).map Prod.fst = flag :: frame ∧ later.map Prod.fst = data := by
  obtain ⟨first, later, rfl, hfirst, hlater⟩ := List.map_eq_append_iff.mp hstream
  have hparts : first.map Prod.fst = (flag :: frame) ++ [flag] := hfirst
  obtain ⟨opening, close, rfl, hopening, hclose⟩ := List.map_eq_append_iff.mp hparts
  obtain ⟨item, rfl, hitem⟩ := List.map_eq_singleton_iff.mp hclose
  have hne : opening ≠ [] := by
    rintro rfl
    cases hopening
  obtain ⟨before, last, hlast⟩ := (List.eq_nil_or_concat opening).resolve_left hne
  rw [List.concat_eq_append] at hlast
  subst hlast
  exact ⟨before, last.1, last.2, item.2, later, by rw [← hitem], hopening, hlater⟩

omit [DecidableEq α] in
theorem framed_cons (flag : α) (frame : List α) (frames : List (List α)) :
    framed flag (frame :: frames) = framed flag [frame] ++ framed flag frames := by
  simp [framed]

/-- A frame that was dropped before its closing flag is not handed over. -/
theorem run_lost {first : List (α × Bool)} {close : Bool}
    (hopening : Emit.run r.step (outside []) first = ([], outside [])) :
    (Emit.run r.step (outside []) (first ++ [(r.flag, close)])).1 = [] := by
  rw [Emit.run_append_of_eq hopening, Emit.run_singleton]
  unfold step
  rw [put, if_pos rfl]
  rfl

/-- The closing flag hands a frame over. -/
theorem run_closed (hkeeps : r.keepsFlag = false) {first : List (α × Bool)} {frame : List α}
    {close : Bool} (hopening : Emit.run r.step (outside []) first = ([], inside [] frame)) :
    Emit.run r.step (outside []) (first ++ [(r.flag, close)]) =
      ((r.decode frame).toList, outside []) := by
  rw [Emit.run_append_of_eq hopening, Emit.run_singleton]
  unfold step
  rw [put, if_pos rfl, hkeeps]
  simp [rest_outside_nil]

omit [DecidableEq α] in
/-- What holds of the prefixes of a list, from what holds of those of its tail. -/
theorem forall_prefix_cons {β : Type*} {a : β} {l : List β} {X X' : List β → Prop}
    {E E' : List β → β → Prop} {L : β → Prop} (hnil : X [])
    (hcons : ∀ done, X (a :: done) ↔ X' done) (hhead : E [] a → L a)
    (htail : ∀ done b, E (a :: done) b ↔ E' done b)
    (h : (∀ done, done <+: l → X' done) ↔
      ∀ done b more, l = done ++ b :: more → E' done b → L b) :
    (∀ done, done <+: a :: l → X done) ↔
      ∀ done b more, a :: l = done ++ b :: more → E done b → L b := by
  constructor
  · intro hall done b more hsplit hends
    cases done with
    | nil =>
        obtain ⟨rfl, -⟩ := List.cons_eq_cons.mp hsplit
        exact hhead hends
    | cons first done =>
        obtain ⟨rfl, hrest⟩ := List.cons_eq_cons.mp hsplit
        refine h.mp (fun others hothers => ?_) done b more hrest ((htail done b).mp hends)
        exact (hcons others).mp (hall (a :: others) (List.cons_prefix_cons.mpr ⟨rfl, hothers⟩))
  · intro hall done hdone
    cases done with
    | nil => exact hnil
    | cons first done =>
        obtain ⟨rfl, hrest⟩ := List.cons_prefix_cons.mp hdone
        refine (hcons done).mpr (h.mpr (fun others b more hsplit hends => ?_) done hrest)
        exact hall (first :: others) b more (by rw [hsplit]; rfl) ((htail others b).mpr hends)

section Frames

variable {frames : List (List α)} (hkeeps : r.keepsFlag = false) (hempty : r.decode [] = none)
  (hopen : ∀ n, r.dropsOpen n = decide (limit < n))
  (hframes : ∀ frame ∈ frames, r.flag ∉ frame ∧ frame.length ≤ limit ∧ (r.decode frame).isSome)

include hkeeps hempty hopen hframes

/-- Frames that come when no frame is open are handed over as long as no read ends before a closing
flag with too much in the buffer. -/
theorem framed_iff (hstream : stream.map Prod.fst = framed r.flag frames) :
    (∀ done, done <+: frames →
      (Emit.run r.step (outside []) (stream.take (framed r.flag done).length)).1 =
        done.flatMap fun frame => (r.decode frame).toList) ↔
    ∀ done frame more, frames = done ++ frame :: more →
      EndsIn stream (framed r.flag done ++ r.flag :: frame) → frame.length + 1 ≤ limit := by
  induction frames generalizing stream with
  | nil =>
      refine iff_of_true ?_ ?_
      · rintro done hdone
        rw [List.prefix_nil.mp hdone]
        rfl
      · intro done frame more hsplit
        simp at hsplit
  | cons frame frames ih =>
      obtain ⟨hflag, hlen, hsome⟩ := hframes frame List.mem_cons_self
      obtain ⟨packet, hpacket⟩ := Option.isSome_iff_exists.mp hsome
      have hne : frame ≠ [] := by
        rintro rfl
        rw [hempty] at hpacket
        cases hpacket
      obtain ⟨before, b, ends, close, later, rfl, hbefore, hlater⟩ := exists_opening hstream
      have hopening := step_opening hopen hflag hne hlen hbefore
      have hends : EndsIn (before ++ [(b, ends)] ++ [(r.flag, close)] ++ later) (r.flag :: frame) ↔
          ends = true := by
        rw [← hbefore]
        exact endsIn_iff
          ((List.prefix_append _ [(r.flag, close)]).trans (List.prefix_append _ later))
      have hfirst : framed r.flag [frame] =
          (before ++ [(b, ends)] ++ [(r.flag, close)]).map Prod.fst := by
        rw [List.map_append, hbefore]
        simp [framed]
      by_cases hlost : ends = true ∧ limit < frame.length + 1
      · -- The frame is dropped before its closing flag, which then opens another.
        rw [if_pos hlost] at hopening
        refine iff_of_false (fun h => ?_) fun h =>
          absurd (h [] frame frames rfl (hends.mpr hlost.1)) (Nat.not_le.mpr hlost.2)
        have hframe := h [frame] (List.cons_prefix_cons.mpr ⟨rfl, List.nil_prefix⟩)
        rw [hfirst, List.length_map, List.take_left, run_lost hopening, List.flatMap_singleton,
          hpacket] at hframe
        cases hframe
      · rw [if_neg hlost] at hopening
        refine forall_prefix_cons rfl (fun done => ?_)
          (fun hin => Nat.le_of_not_lt fun hlong => hlost ⟨hends.mp hin, hlong⟩)
          (fun done other => ?_)
          (ih (fun other hother => hframes other (List.mem_cons_of_mem _ hother)) hlater)
        · rw [framed_cons, hfirst, List.length_append, List.length_map,
            List.take_length_add_append, Emit.run_append_of_eq (run_closed hkeeps hopening),
            List.flatMap_cons]
          exact List.append_right_inj _
        · rw [framed_cons, hfirst, List.append_assoc (List.map Prod.fst _)]
          exact endsIn_append (by simp)

end Frames

theorem step_junk (hdata : r.flag ∉ data) (hstream : stream.map Prod.fst = data) (junk : List α) :
    ∃ more, Emit.run r.step (outside junk) stream = ([], outside more) := by
  induction stream generalizing junk data with
  | nil => exact ⟨junk, rfl⟩
  | cons item stream ih =>
      subst hstream
      rw [List.map_cons, List.mem_cons, not_or] at hdata
      obtain ⟨hb, hdata⟩ := hdata
      obtain ⟨kept, hstep⟩ : ∃ kept, r.step (outside junk) item = ([], outside kept) := by
        unfold step
        rw [put, if_neg (Ne.symm hb)]
        dsimp only
        split
        · rw [rest]
          split
          · exact ⟨[], rfl⟩
          · exact ⟨_, rfl⟩
        · exact ⟨_, rfl⟩
      obtain ⟨more, hmore⟩ := ih hdata rfl kept
      refine ⟨more, ?_⟩
      rw [Emit.run_cons, hstep, hmore]
      rfl

/-- A frame that comes when another is open closes that one, and is not handed over. -/
theorem step_missed (hkeeps : r.keepsFlag = false) (hempty : r.decode [] = none) (junk : List α)
    {frame : List α} (hframe : r.flag ∉ frame)
    (hstream : stream.map Prod.fst = r.flag :: (frame ++ [r.flag])) :
    (Emit.run r.step (inside junk []) stream).1 = [] := by
  cases stream with
  | nil => cases hstream
  | cons item stream =>
      obtain ⟨hflag, hrest⟩ := List.cons_eq_cons.mp hstream
      obtain ⟨body, close, rfl, hbody, hclose⟩ := List.map_eq_append_iff.mp hrest
      obtain ⟨last, rfl, hlast⟩ := List.map_eq_singleton_iff.mp hclose
      have hfirst : r.step (inside junk []) item = ([], outside []) := by
        unfold step
        rw [hflag, put, if_pos rfl, hempty, hkeeps]
        simp [rest_outside_nil]
      obtain ⟨more, hmore⟩ := step_junk hframe hbody []
      rw [Emit.run_cons, hfirst]
      dsimp only
      rw [Emit.run_append_of_eq hmore, Emit.run_singleton]
      unfold step
      rw [hlast, put, if_pos rfl]
      rfl

/-- After a flag. -/
theorem ready_step_flag (held : Held α) (ends : Bool) : (r.step held (r.flag, ends)).2.Ready := by
  unfold step
  cases ends with
  | false => exact ready_put_flag held
  | true => exact ready_rest (ready_put_flag held)

section

variable (hkeeps : r.keepsFlag = false)

include hkeeps

/-- When another frame is open, the first of these is not handed over. -/
theorem framed_inside_iff (hempty : r.decode [] = none)
    {frames : List (List α)} (hflags : ∀ frame ∈ frames, r.flag ∉ frame)
    (hsome : ∀ frame ∈ frames, (r.decode frame).isSome) (junk : List α)
    (hstream : stream.map Prod.fst = framed r.flag frames) :
    (∀ done, done <+: frames →
      (Emit.run r.step (inside junk []) (stream.take (framed r.flag done).length)).1 =
        done.flatMap fun frame => (r.decode frame).toList) ↔ frames = [] := by
  cases frames with
  | nil =>
      refine iff_of_true (fun done hdone => ?_) rfl
      rw [List.prefix_nil.mp hdone]
      rfl
  | cons frame frames =>
      refine iff_of_false (fun h => ?_) (List.cons_ne_nil _ _)
      obtain ⟨packet, hpacket⟩ := Option.isSome_iff_exists.mp (hsome frame List.mem_cons_self)
      have hframe := h [frame] (List.cons_prefix_cons.mpr ⟨rfl, List.nil_prefix⟩)
      rw [framed_cons] at hstream
      obtain ⟨opening, later, rfl, hopening, -⟩ := List.map_eq_append_iff.mp hstream
      rw [← hopening, List.length_map, List.take_left,
        step_missed hkeeps hempty junk (hflags frame List.mem_cons_self)
          (hopening.trans (by simp [framed])), List.flatMap_singleton, hpacket] at hframe
      cases hframe

/-- The flags that wait up to some flag are those that the reader holds there. -/
theorem count_waiting_flag (hreads : ∀ data ∈ reads, data ≠ [])
    {first later : List (α × Bool)} (hmarks : marks reads = first ++ later) :
    (r.waiting [] reads first.length).count r.flag % 2 =
      (Emit.run r.step (outside []) first).2.flags % 2 := by
  have hclean : (outside [] : Held α).Clean r.flag := List.not_mem_nil
  have hwaiting := count_waiting hkeeps hclean hreads first.length
  rw [Held.buffer] at hwaiting
  rw [hwaiting, hmarks, List.take_left, count_clean]
  exact run_step_clean hclean _

/-- The frames that follow a flag are handed over, each as it comes, exactly when the flags that
wait pair up before them and no read ends before one of their closing flags with too much in the
buffer. -/
theorem handed_iff (hempty : r.decode [] = none)
    (hopen : ∀ n, r.dropsOpen n = decide (limit < n)) {frames : List (List α)}
    (hframes : ∀ frame ∈ frames,
      r.flag ∉ frame ∧ frame.length ≤ limit ∧ (r.decode frame).isSome)
    (hreads : ∀ data ∈ reads, data ≠ []) {noise : List α}
    (hstream : reads.flatten = (noise ++ [r.flag]) ++ framed r.flag frames) :
    (∀ done, done <+: frames →
      (Emit.run r.receive [] (upTo (noise ++ [r.flag] ++ framed r.flag done).length reads)).1 =
        (Emit.run r.receive [] (upTo (noise ++ [r.flag]).length reads)).1 ++
          done.flatMap fun frame => (r.decode frame).toList) ↔
    frames = [] ∨
      ((r.waiting [] reads (noise ++ [r.flag]).length).count r.flag % 2 = 0 ∧
        ∀ done frame more, frames = done ++ frame :: more →
          EndsAt reads (noise ++ [r.flag] ++ (framed r.flag done ++ r.flag :: frame)) →
            frame.length + 1 ≤ limit) := by
  obtain ⟨first, later, hmarks, hfirst, hlater⟩ :=
    List.map_eq_append_iff.mp ((map_fst_marks reads).trans hstream)
  have hlength : (noise ++ [r.flag]).length = first.length := by
    rw [← hfirst, List.length_map]
  obtain ⟨before, last, rfl, -, hlast⟩ := List.map_eq_append_iff.mp hfirst
  obtain ⟨⟨flag, ends⟩, rfl, rfl⟩ := List.map_eq_singleton_iff.mp hlast
  obtain ⟨held, hheld⟩ : ∃ held,
      (Emit.run r.step (outside []) (before ++ [(r.flag, ends)])).2 = held := ⟨_, rfl⟩
  have hready : held.Ready := by
    rw [← hheld, Emit.run_append, Emit.run_singleton]
    exact ready_step_flag _ ends
  have hhanded : ∀ done, done <+: frames →
      (Emit.run r.receive [] (upTo (noise ++ [r.flag] ++ framed r.flag done).length reads)).1 =
        (Emit.run r.step (outside []) (before ++ [(r.flag, ends)])).1 ++
          (Emit.run r.step held (later.take (framed r.flag done).length)).1 := by
    rintro done ⟨more, rfl⟩
    have htotal : (noise ++ [r.flag] ++ framed r.flag done).length ≤ reads.flatten.length := by
      rw [hstream]
      simp [framed]
    rw [handed_upTo hreads (by simp only [List.length_append, List.length_singleton]; omega) htotal,
      hmarks, List.length_append, hlength, List.take_length_add_append, Emit.run_append, hheld]
  have hnoise : (Emit.run r.receive [] (upTo (noise ++ [r.flag]).length reads)).1 =
      (Emit.run r.step (outside []) (before ++ [(r.flag, ends)])).1 := by
    have hnil := hhanded [] List.nil_prefix
    simpa [framed] using hnil
  have hsame : (∀ done, done <+: frames →
      (Emit.run r.receive [] (upTo (noise ++ [r.flag] ++ framed r.flag done).length reads)).1 =
        (Emit.run r.receive [] (upTo (noise ++ [r.flag]).length reads)).1 ++
          done.flatMap fun frame => (r.decode frame).toList) ↔
      ∀ done, done <+: frames →
        (Emit.run r.step held (later.take (framed r.flag done).length)).1 =
          done.flatMap fun frame => (r.decode frame).toList := by
    refine forall_congr' fun done => forall_congr' fun hdone => ?_
    rw [hhanded done hdone, hnoise]
    exact List.append_right_inj _
  have hends : ∀ done frame,
      EndsAt reads (noise ++ [r.flag] ++ (framed r.flag done ++ r.flag :: frame)) ↔
        EndsIn later (framed r.flag done ++ r.flag :: frame) := by
    intro done frame
    have hmarked : EndsAt reads (noise ++ [r.flag] ++ (framed r.flag done ++ r.flag :: frame)) ↔
        EndsIn (marks reads) (noise ++ [r.flag] ++ (framed r.flag done ++ r.flag :: frame)) :=
      ⟨endsIn_marks (by simp), endsAt_of_marks⟩
    rw [hmarked, hmarks, ← hfirst]
    exact endsIn_append (by simp)
  rw [hsame, hlength, count_waiting_flag hkeeps hreads hmarks, hheld]
  rcases hready with rfl | ⟨junk, rfl⟩
  · rw [framed_iff hkeeps hempty hopen hframes hlater]
    simp only [hends]
    constructor
    · exact fun h => .inr ⟨rfl, h⟩
    · rintro (rfl | ⟨-, h⟩)
      · intro done frame more hsplit
        simp at hsplit
      · exact h
  · rw [framed_inside_iff hkeeps hempty (fun frame hframe => (hframes frame hframe).1)
      (fun frame hframe => (hframes frame hframe).2.2) junk hlater]
    refine ⟨.inl, ?_⟩
    rintro (hnil | ⟨hflags, -⟩)
    · exact hnil
    · cases hflags

end

end Reader

end Framing
