import Mathlib.Data.List.DropRight
import Reticulum.Configuration.Basic

/-!
# Trimming and splitting

What the passes over a line leave of it.
-/

namespace Reticulum.Configuration

open Discovery

variable {p : Char → Bool} {a b front back chars : List Char} {c sign : Char}

/-! ## Trimming -/

theorem dropEndWhile_append_cons (hc : p c = false) :
    dropEndWhile p (a ++ c :: b) = a ++ c :: dropEndWhile p b := by
  have hstop : ∀ x : List Char, (x ++ c :: a.reverse).dropWhile p =
      x.dropWhile p ++ c :: a.reverse := by
    intro x
    rw [List.dropWhile_append]
    split
    · next hempty =>
      rw [List.isEmpty_iff.mp hempty, List.dropWhile_cons_of_neg (by simp [hc]), List.nil_append]
    · rfl
  unfold dropEndWhile
  rw [List.reverse_append, List.reverse_cons, List.append_assoc, List.singleton_append, hstop]
  simp

theorem dropEndWhile_eq_nil (h : ∀ c ∈ chars, p c = true) : dropEndWhile p chars = [] := by
  unfold dropEndWhile
  rw [List.dropWhile_eq_nil_iff.mpr fun c hc => h c (List.mem_reverse.mp hc), List.reverse_nil]

/-- A letter is taken off with all that follows, or stays. -/
theorem dropEndWhile_cons : dropEndWhile p (c :: chars) =
    if (c :: chars).all p then [] else c :: dropEndWhile p chars := by
  split
  · next hall => exact dropEndWhile_eq_nil (List.all_eq_true.mp hall)
  · next hsome =>
    unfold dropEndWhile
    rw [List.reverse_cons, List.dropWhile_append]
    split
    · next hempty =>
      have hrest : ∀ d ∈ chars, p d = true := by
        intro d hd
        exact List.dropWhile_eq_nil_iff.mp (List.isEmpty_iff.mp hempty) d (List.mem_reverse.mpr hd)
      have hc : p c = false := by
        rw [← Bool.not_eq_true]
        exact fun hc => hsome (List.all_eq_true.mpr (List.forall_mem_cons.mpr ⟨hc, hrest⟩))
      rw [List.isEmpty_iff.mp hempty, List.dropWhile_cons_of_neg (by simp [hc])]
      rfl
    · rw [List.reverse_append]
      rfl

theorem dropWhile_dropEndWhile :
    (dropEndWhile p chars).dropWhile p = dropEndWhile p (chars.dropWhile p) := by
  induction chars with
  | nil => rfl
  | cons c chars ih =>
      cases hc : p c with
      | false =>
          have hstay : dropEndWhile p (c :: chars) = c :: dropEndWhile p chars :=
            dropEndWhile_append_cons (a := []) hc
          have hneg : ¬ p c = true := by simp [hc]
          rw [List.dropWhile_cons_of_neg hneg, hstay, List.dropWhile_cons_of_neg hneg]
      | true =>
          rw [List.dropWhile_cons_of_pos hc, dropEndWhile_cons]
          split
          · next hall =>
            have hrest : ∀ d ∈ chars, p d = true :=
              (List.forall_mem_cons.mp (List.all_eq_true.mp hall)).2
            rw [List.dropWhile_eq_nil_iff.mpr hrest]
            rfl
          · rw [List.dropWhile_cons_of_pos hc, ih]

theorem dropEndWhile_idem : dropEndWhile p (dropEndWhile p chars) = dropEndWhile p chars := by
  unfold dropEndWhile
  rw [List.reverse_reverse, List.dropWhile_idempotent]

theorem trim_dropEndWhile : trim (dropEndWhile isWhitespace chars) = trim chars := by
  unfold trim
  rw [dropWhile_dropEndWhile, dropEndWhile_idem]

theorem trim_dropWhile : trim (chars.dropWhile isWhitespace) = trim chars := by
  unfold trim
  rw [List.dropWhile_idempotent]

@[simp] theorem trim_trim : trim (trim chars) = trim chars := by
  conv_lhs => rw [trim.eq_1 chars]
  rw [trim_dropEndWhile, trim_dropWhile]

theorem trim_cons_of_whitespace (hc : isWhitespace c = true) : trim (c :: chars) = trim chars := by
  unfold trim
  rw [List.dropWhile_cons_of_pos hc]

theorem trim_subset : trim chars ⊆ chars := by
  intro d hd
  have hrest : d ∈ chars.dropWhile isWhitespace := by
    unfold trim dropEndWhile at hd
    exact List.mem_reverse.mp ((List.dropWhile_sublist _).subset (List.mem_reverse.mp hd))
  exact (List.dropWhile_sublist _).subset hrest

/-- A text that starts and ends in letters stays as it is. -/
theorem trim_eq_self (hfirst : ∀ d ∈ chars.head?, isWhitespace d = false)
    (hlast : ∀ d ∈ chars.getLast?, isWhitespace d = false) : trim chars = chars := by
  unfold trim dropEndWhile
  have hstart : chars.dropWhile isWhitespace = chars := by
    cases chars with
    | nil => rfl
    | cons d rest => exact List.dropWhile_cons_of_neg (by simp [hfirst d rfl])
  rw [hstart]
  have hend : chars.reverse.dropWhile isWhitespace = chars.reverse := by
    rw [← List.head?_reverse] at hlast
    cases h : chars.reverse with
    | nil => rfl
    | cons d rest =>
        rw [h] at hlast
        exact List.dropWhile_cons_of_neg (by simp [hlast d rfl])
  rw [hend, List.reverse_reverse]

/-- Indentation comes off, and what is after the last letter. -/
theorem trim_indent (ha : ∀ d ∈ a, isWhitespace d = true) (hc : isWhitespace c = false) :
    trim (a ++ c :: b) = c :: dropEndWhile isWhitespace b := by
  unfold trim
  rw [List.dropWhile_append_of_pos ha, List.dropWhile_cons_of_neg (by simp [hc])]
  exact dropEndWhile_append_cons (a := []) hc

theorem trim_concat_of_whitespace (hc : isWhitespace c = true) :
    trim (chars ++ [c]) = trim chars := by
  have hend : dropEndWhile isWhitespace (chars ++ [c]) = dropEndWhile isWhitespace chars := by
    unfold dropEndWhile
    rw [List.reverse_append, List.reverse_singleton, List.singleton_append,
      List.dropWhile_cons_of_pos hc]
  rw [← trim_dropEndWhile, hend, trim_dropEndWhile]

/-! ## Splitting -/

theorem splitOnce_append (h : sign ∉ front) :
    splitOnce sign (front ++ sign :: back) = some (front, back) := by
  induction front with
  | nil =>
      simp only [List.nil_append, splitOnce, beq_self_eq_true, if_true]
  | cons d front ih =>
      have hd : (d == sign) = false := beq_eq_false_iff_ne.mpr fun heq => h (heq ▸ List.mem_cons_self)
      have hrest : sign ∉ front := fun hmem => h (List.mem_cons_of_mem _ hmem)
      rw [List.cons_append, splitOnce, hd, ih hrest]
      rfl

theorem splitOnce_eq_none (h : sign ∉ chars) : splitOnce sign chars = none := by
  induction chars with
  | nil => rfl
  | cons d chars ih =>
      have hd : (d == sign) = false := beq_eq_false_iff_ne.mpr fun heq => h (heq ▸ List.mem_cons_self)
      have hrest : sign ∉ chars := fun hmem => h (List.mem_cons_of_mem _ hmem)
      rw [splitOnce, hd, ih hrest]
      rfl

theorem splitOnce_eq_some (h : splitOnce sign chars = some (front, back)) :
    chars = front ++ sign :: back ∧ sign ∉ front := by
  by_cases hmem : sign ∈ chars
  · obtain ⟨f, b, rfl, hf⟩ := List.eq_append_cons_of_mem hmem
    rw [splitOnce_append hf] at h
    obtain ⟨rfl, rfl⟩ := Prod.mk.inj (Option.some.inj h)
    exact ⟨rfl, hf⟩
  · rw [splitOnce_eq_none hmem] at h
    cases h

theorem comment_not_mem_stripComment (line : List Char) : '#' ∉ stripComment line := by
  unfold stripComment
  by_cases hmem : '#' ∈ line
  · obtain ⟨front, back, rfl, hfront⟩ := List.eq_append_cons_of_mem hmem
    rw [splitOnce_append hfront]
    exact hfront
  · rw [splitOnce_eq_none hmem]
    exact hmem

theorem stripComment_subset (line : List Char) : stripComment line ⊆ line := by
  unfold stripComment
  split
  · next front back hsplit =>
    obtain ⟨rfl, -⟩ := splitOnce_eq_some hsplit
    exact List.subset_append_left _ _
  · exact List.Subset.refl _

/-- A carriage return at the end does not count. -/
theorem trim_stripComment_stripCr (line : List Char) :
    trim (stripComment (stripCr line)) = trim (stripComment line) := by
  unfold stripCr
  split
  · next hlast =>
    obtain ⟨init, rfl⟩ := List.getLast?_eq_some_iff.mp hlast
    rw [List.dropLast_concat]
    unfold stripComment
    by_cases hmem : '#' ∈ init
    · obtain ⟨front, back, rfl, hfront⟩ := List.eq_append_cons_of_mem hmem
      rw [List.append_assoc, List.cons_append, splitOnce_append hfront, splitOnce_append hfront]
    · have hnot : '#' ∉ init ++ ['\r'] := by
        rw [List.mem_append]
        exact fun h => h.elim hmem (by decide)
      rw [splitOnce_eq_none hmem, splitOnce_eq_none hnot]
      exact (trim_concat_of_whitespace (by decide)).symm
  · rfl

/-- No part between line feeds holds one. -/
theorem newline_not_mem_splitOn {line : List Char} (h : line ∈ chars.splitOn '\n') :
    '\n' ∉ line := by
  induction chars generalizing line with
  | nil =>
      rw [List.mem_singleton.mp h]
      exact List.not_mem_nil
  | cons d chars ih =>
      rw [List.splitOn_cons_eq_if_modifyHead] at h
      split at h
      · rcases List.mem_cons.mp h with rfl | h
        · exact List.not_mem_nil
        · exact ih h
      · next hd =>
        obtain ⟨part, rest, hparts⟩ := List.exists_cons_of_ne_nil (List.splitOn_ne_nil '\n' chars)
        rw [hparts, List.modifyHead_cons] at h
        rw [hparts] at ih
        rcases List.mem_cons.mp h with rfl | h
        · intro hmem
          rcases List.mem_cons.mp hmem with heq | hmem
          · exact hd (beq_iff_eq.mpr heq.symm)
          · exact ih List.mem_cons_self hmem
        · exact ih (List.mem_cons_of_mem _ h)

end Reticulum.Configuration
