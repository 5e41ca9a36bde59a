import Mathlib.Data.List.Basic
import Mathlib.Tactic.Common

/-!
# Stuffing

A flag marks the ends of a frame, so it may not stand inside. It is replaced by an
escape and a code, and so is the escape itself. A reader goes over the stuffed symbols
with one bit, whether the last symbol was an escape, and with what it has read so far.

## Implementation notes

Readers differ in what they do with a symbol that no writer sends after an escape, and
in how they stop at `cap` symbols. `Stuffing.Fills` asks nothing of either.
-/

/-- A flag, an escape, and the codes that follow an escape in their place. -/
structure Stuffing (α : Type*) where
  flag : α
  esc : α
  flagCode : α
  escCode : α
  esc_ne_flag : esc ≠ flag
  flagCode_ne_flag : flagCode ≠ flag
  escCode_ne_flag : escCode ≠ flag
  flagCode_ne_esc : flagCode ≠ esc
  escCode_ne_esc : escCode ≠ esc
  escCode_ne_flagCode : escCode ≠ flagCode

namespace Stuffing

variable {α : Type*} [DecidableEq α] (c : Stuffing α)

/-- What is sent for a symbol. -/
def stuff (b : α) : List α :=
  if b = c.esc then [c.esc, c.escCode]
  else if b = c.flag then [c.esc, c.flagCode]
  else [b]

/-- What is sent for a row of symbols. -/
def escape (data : List α) : List α := data.flatMap c.stuff

@[simp] theorem escape_nil : c.escape [] = [] := rfl

theorem escape_cons (b : α) (data : List α) :
    c.escape (b :: data) = c.stuff b ++ c.escape data := rfl

theorem flag_notMem_stuff (b : α) : c.flag ∉ c.stuff b := by
  unfold stuff
  split
  · simp [c.esc_ne_flag.symm, c.escCode_ne_flag.symm]
  · split
    · simp [c.esc_ne_flag.symm, c.flagCode_ne_flag.symm]
    · rename_i hflag
      simp [Ne.symm hflag]

/-- A flag does not stand inside a frame. -/
theorem flag_notMem_escape (data : List α) : c.flag ∉ c.escape data := by
  intro hmem
  obtain ⟨b, -, hb⟩ := List.mem_flatMap.mp hmem
  exact c.flag_notMem_stuff b hb

theorem length_stuff (b : α) : 1 ≤ (c.stuff b).length ∧ (c.stuff b).length ≤ 2 := by
  unfold stuff
  split
  · simp
  · split <;> simp

theorem length_le_escape (data : List α) : data.length ≤ (c.escape data).length := by
  induction data with
  | nil => exact Nat.le_refl 0
  | cons b data ih =>
      have hb := (c.length_stuff b).1
      rw [escape_cons, List.length_append, List.length_cons]
      omega

theorem length_escape_le (data : List α) : (c.escape data).length ≤ 2 * data.length := by
  induction data with
  | nil => exact Nat.le_refl 0
  | cons b data ih =>
      have hb := (c.length_stuff b).2
      rw [escape_cons, List.length_append, List.length_cons]
      omega

/-! ## Readers -/

/-- A reader of stuffed symbols, as long as it holds fewer than `cap`. -/
structure Fills (put : Bool × List α → α → Bool × List α) (cap : Nat) : Prop where
  plain : ∀ out b, out.length < cap → b ≠ c.esc → b ≠ c.flag →
    put (false, out) b = (false, out ++ [b])
  esc : ∀ out, out.length < cap → put (false, out) c.esc = (true, out)
  flagCode : ∀ out, out.length < cap → put (true, out) c.flagCode = (false, out ++ [c.flag])
  escCode : ∀ out, out.length < cap → put (true, out) c.escCode = (false, out ++ [c.esc])

variable {c} {put : Bool × List α → α → Bool × List α} {cap : Nat}

theorem Fills.stuff (h : c.Fills put cap) {out : List α} (hroom : out.length < cap) (b : α) :
    (c.stuff b).foldl put (false, out) = (false, out ++ [b]) := by
  unfold Stuffing.stuff
  split
  · rename_i hesc
    rw [List.foldl_cons, List.foldl_cons, List.foldl_nil, h.esc out hroom, h.escCode out hroom,
      hesc]
  · split
    · rename_i hflag
      rw [List.foldl_cons, List.foldl_cons, List.foldl_nil, h.esc out hroom, h.flagCode out hroom,
        hflag]
    · rename_i hesc hflag
      rw [List.foldl_cons, List.foldl_nil, h.plain out b hroom hesc hflag]

/-- What was stuffed is read back. -/
theorem Fills.escape (h : c.Fills put cap) (out data : List α)
    (hroom : out.length + data.length ≤ cap) :
    (c.escape data).foldl put (false, out) = (false, out ++ data) := by
  induction data generalizing out with
  | nil => simp
  | cons b data ih =>
      rw [List.length_cons] at hroom
      have hnext : (out ++ [b]).length + data.length ≤ cap := by
        rw [List.length_append, List.length_singleton]
        omega
      rw [escape_cons, List.foldl_append, h.stuff (by omega), ih _ hnext, List.append_assoc]
      rfl

/-! ## A reader that takes other symbols after an escape for themselves -/

variable (c) (cap)

/-- What a symbol stands for after an escape. -/
def unescaped (b : α) : α :=
  if b = c.flagCode then c.flag else if b = c.escCode then c.esc else b

/-- A symbol is read, if there is room. -/
def fill (s : Bool × List α) (b : α) : Bool × List α :=
  if s.2.length < cap then
    if b = c.esc then (true, s.2) else (false, s.2 ++ [if s.1 then c.unescaped b else b])
  else s

variable {c cap}

theorem unescaped_eq_self_iff (b : α) : c.unescaped b = b ↔ b ≠ c.flagCode ∧ b ≠ c.escCode := by
  unfold unescaped
  by_cases hflag : b = c.flagCode
  · rw [if_pos hflag]
    exact iff_of_false (fun h => c.flagCode_ne_flag (hflag.symm.trans h.symm)) fun h => h.1 hflag
  · rw [if_neg hflag]
    by_cases hesc : b = c.escCode
    · rw [if_pos hesc]
      exact iff_of_false (fun h => c.escCode_ne_esc (hesc.symm.trans h.symm)) fun h => h.2 hesc
    · rw [if_neg hesc]
      exact iff_of_true rfl ⟨hflag, hesc⟩

theorem fill_esc {out : List α} (hroom : out.length < cap) (escape : Bool) :
    c.fill cap (escape, out) c.esc = (true, out) := by
  rw [fill, if_pos hroom, if_pos rfl]

theorem fill_other {out : List α} (hroom : out.length < cap) (escape : Bool) {b : α}
    (hb : b ≠ c.esc) :
    c.fill cap (escape, out) b = (false, out ++ [if escape then c.unescaped b else b]) := by
  rw [fill, if_pos hroom, if_neg hb]

variable (c cap)

theorem fills_fill : c.Fills (c.fill cap) cap where
  plain := fun out b hroom hesc _ => by
    rw [fill_other hroom false hesc]
    rfl
  esc := fun _ hroom => fill_esc hroom false
  flagCode := fun out hroom => by
    rw [fill_other hroom true c.flagCode_ne_esc, unescaped, if_pos rfl, if_pos rfl]
  escCode := fun out hroom => by
    rw [fill_other hroom true c.escCode_ne_esc, unescaped, if_neg c.escCode_ne_flagCode,
      if_pos rfl, if_pos rfl]

/-- What a reader makes of a row of symbols when the escape bit was left set before it. -/
theorem fill_escape_of_leak (b : α) {data : List α} (hroom : data.length + 1 ≤ cap) :
    (c.escape (b :: data)).foldl (c.fill cap) (true, []) =
      (false, (if b = c.esc ∨ b = c.flag then b else c.unescaped b) :: data) := by
  have hempty : ([] : List α).length < cap := by
    rw [List.length_nil]
    omega
  have hfills := c.fills_fill cap
  have hstuff : (c.stuff b).foldl (c.fill cap) (true, []) =
      (false, [if b = c.esc ∨ b = c.flag then b else c.unescaped b]) := by
    unfold stuff
    split
    · rename_i hesc
      rw [List.foldl_cons, fill_esc hempty, List.foldl_cons, hfills.escCode [] hempty,
        if_pos (.inl hesc), hesc]
      rfl
    · rename_i hesc
      split
      · rename_i hflag
        rw [List.foldl_cons, fill_esc hempty, List.foldl_cons, hfills.flagCode [] hempty,
          if_pos (.inr hflag), hflag]
        rfl
      · rename_i hflag
        rw [List.foldl_cons, fill_other hempty true hesc, if_neg (not_or.mpr ⟨hesc, hflag⟩)]
        rfl
  rw [escape_cons, List.foldl_append, hstuff, hfills.escape _ data (by simp; omega)]
  rfl

/-- The row is read unharmed unless it begins with one of the codes. -/
theorem fill_leak_eq_iff (b : α) {data : List α} (hroom : data.length + 1 ≤ cap) :
    ((c.escape (b :: data)).foldl (c.fill cap) (true, [])).2 = b :: data ↔
      b ≠ c.flagCode ∧ b ≠ c.escCode := by
  rw [fill_escape_of_leak c cap b hroom, List.cons_eq_cons]
  split
  · rename_i hb
    refine iff_of_true ⟨rfl, rfl⟩ ?_
    rcases hb with rfl | rfl
    · exact ⟨c.flagCode_ne_esc.symm, c.escCode_ne_esc.symm⟩
    · exact ⟨c.flagCode_ne_flag.symm, c.escCode_ne_flag.symm⟩
  · rw [unescaped_eq_self_iff]
    exact and_iff_left rfl

end Stuffing
