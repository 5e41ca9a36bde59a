import Mathlib.Data.List.Sort
import Mathlib.Order.Basic

/-!
# The first of the least entries of a list

A scan with a strict comparison keeps the earliest entry among those with the least
value, and a stable sort puts the same entry first.
-/

namespace FirstMin

variable {α β : Type*} [LinearOrder β] (f : α → β)

/-- The entry so far, or the next one when it is less. -/
def better (best : Option α) (a : α) : Option α :=
  match best with
  | none => some a
  | some b => if f a < f b then some a else some b

/-- Scan a list. -/
def firstMin (l : List α) : Option α := l.foldl (better f) none

variable {f} {l : List α} {a b : α}

/-- The entries before are greater, and those after are not less. -/
structure IsFirst (f : α → β) (l : List α) (a : α) : Prop where
  split : ∃ as bs, l = as ++ a :: bs ∧ (∀ b ∈ as, f a < f b) ∧ ∀ b ∈ bs, f a ≤ f b

section

variable (h : IsFirst f l a)

include h

theorem IsFirst.mem : a ∈ l := by
  obtain ⟨as, bs, rfl, -, -⟩ := h.split
  simp

theorem IsFirst.le (hb : b ∈ l) : f a ≤ f b := by
  obtain ⟨as, bs, rfl, has, hbs⟩ := h.split
  rcases List.mem_append.mp hb with hb | hb
  · exact (has b hb).le
  · rcases List.mem_cons.mp hb with rfl | hb
    · exact le_rfl
    · exact hbs b hb

theorem isFirst_concat (b : α) :
    IsFirst f (l ++ [b]) (if f b < f a then b else a) := by
  split
  · rename_i hlt
    exact ⟨l, [], rfl, fun c hc => hlt.trans_le (h.le hc), fun _ hc => absurd hc List.not_mem_nil⟩
  · rename_i hle
    obtain ⟨as, bs, rfl, has, hbs⟩ := h.split
    refine ⟨as, bs ++ [b], by simp, has, fun c hc => ?_⟩
    rcases List.mem_append.mp hc with hc | hc
    · exact hbs c hc
    · exact List.mem_singleton.mp hc ▸ not_lt.mp hle

theorem foldl_better (more : List α) :
    ∃ b, more.foldl (better f) (some a) = some b ∧ IsFirst f (l ++ more) b := by
  induction more generalizing l a with
  | nil => exact ⟨a, rfl, by simpa using h⟩
  | cons c more ih =>
      obtain ⟨b, hfold, hfirst⟩ := ih (isFirst_concat h c)
      refine ⟨b, ?_, by simpa using hfirst⟩
      rw [List.foldl_cons, ← hfold]
      congr 1
      simp only [better]
      split <;> rfl

end

theorem firstMin_nil : firstMin f [] = none := rfl

/-- A list that is not empty has a first least entry, and the scan finds it. -/
theorem firstMin_cons (a : α) (l : List α) :
    ∃ b, firstMin f (a :: l) = some b ∧ IsFirst f (a :: l) b :=
  foldl_better (l := [a]) ⟨[], [], rfl, fun _ h => absurd h List.not_mem_nil,
    fun _ h => absurd h List.not_mem_nil⟩ l

theorem isFirst_of_firstMin (h : firstMin f l = some a) : IsFirst f l a := by
  cases l with
  | nil => cases h
  | cons c l =>
      obtain ⟨b, hscan, hfirst⟩ := firstMin_cons (f := f) c l
      exact Option.some.inj (hscan.symm.trans h) ▸ hfirst

theorem firstMin_eq_none : firstMin f l = none ↔ l = [] := by
  cases l with
  | nil => simp [firstMin_nil]
  | cons c l =>
      obtain ⟨b, hscan, -⟩ := firstMin_cons (f := f) c l
      simp [hscan]

/-- The first of the entries with the least value. -/
theorem IsFirst.head?_filter (h : IsFirst f l a) :
    (l.filter fun b => f b ≤ f a).head? = some a := by
  obtain ⟨as, bs, rfl, has, -⟩ := h.split
  have hnone : as.filter (fun b => decide (f b ≤ f a)) = [] :=
    List.filter_eq_nil_iff.mpr fun b hb => by simpa using has b hb
  rw [List.filter_append, hnone, List.nil_append, List.filter_cons_of_pos (by simp)]
  rfl

/-- The order of the values, as a test. -/
theorem le_trans_test (a b c : α) (hab : decide (f a ≤ f b) = true)
    (hbc : decide (f b ≤ f c) = true) : decide (f a ≤ f c) = true := by
  rw [decide_eq_true_eq] at hab hbc ⊢
  exact hab.trans hbc

theorem le_total_test (a b : α) : (decide (f a ≤ f b) || decide (f b ≤ f a)) = true := by
  simpa using le_total (f a) (f b)

/-- A stable sort keeps the entries with the least value in their order. -/
theorem filter_mergeSort (h : IsFirst f l a) :
    (l.mergeSort fun a b => decide (f a ≤ f b)).filter (fun b => f b ≤ f a) =
      l.filter fun b => f b ≤ f a := by
  have hleast : (l.filter fun b => decide (f b ≤ f a)).Pairwise
      fun b c => decide (f b ≤ f c) = true := by
    refine List.pairwise_of_forall_mem_list fun b hb c hc => ?_
    have hb' : f b ≤ f a := by simpa using (List.mem_filter.mp hb).2
    rw [decide_eq_true_eq]
    exact hb'.trans (h.le (List.mem_filter.mp hc).1)
  have hsublist := List.sublist_mergeSort le_trans_test le_total_test hleast List.filter_sublist
  have hkept := hsublist.filter fun b => decide (f b ≤ f a)
  rw [List.filter_filter] at hkept
  simp only [Bool.and_self] at hkept
  refine (hkept.eq_of_length ?_).symm
  exact ((List.mergeSort_perm l _).filter _).length_eq.symm

/-- A stable sort puts the first of the least entries first. -/
theorem head?_mergeSort (l : List α) :
    (l.mergeSort fun a b => decide (f a ≤ f b)).head? = firstMin f l := by
  cases hscan : firstMin f l with
  | none =>
      obtain rfl := firstMin_eq_none.mp hscan
      simp
  | some a =>
      have hfirst := isFirst_of_firstMin hscan
      have hfilter := filter_mergeSort hfirst
      have hmem : a ∈ l.mergeSort fun a b => decide (f a ≤ f b) :=
        (List.mergeSort_perm l _).mem_iff.mpr hfirst.mem
      have hsorted := List.pairwise_mergeSort (le_trans_test (f := f)) le_total_test l
      cases hsort : l.mergeSort fun a b => decide (f a ≤ f b) with
      | nil => exact absurd (hsort ▸ hmem) List.not_mem_nil
      | cons b rest =>
          rw [hsort] at hfilter hmem hsorted
          have hle : f b ≤ f a := by
            rcases List.mem_cons.mp hmem with rfl | hmem
            · exact le_rfl
            · simpa using List.rel_of_pairwise_cons hsorted hmem
          rw [List.filter_cons_of_pos (by simpa using hle)] at hfilter
          rw [List.head?_cons, ← hfirst.head?_filter, ← hfilter, List.head?_cons]

end FirstMin
