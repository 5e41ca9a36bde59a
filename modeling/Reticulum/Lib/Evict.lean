import Mathlib.Data.List.Induction

/-!
# Eviction of the worst

A list that may hold so many elements loses its worst one until it is short
enough. `le a b` says that `b` is at least as bad as `a`; among equals the last
one goes first. An element stays exactly when fewer than the limit are ranked
above it (`mem_evict_iff`).

## Implementation notes

An element is given by a split of the list, so that equal elements at different
places keep their own ranks.
-/

namespace Evict

variable {α : Type*} (le : α → α → Bool)

/-- The worst element so far and its place. -/
def worse (worst : Option (α × Nat)) (e : α × Nat) : Option (α × Nat) :=
  match worst with
  | none => some e
  | some w => if le w.1 e.1 then some e else some w

/-- The place of the worst element, the last one among equals. -/
def worstIndex (l : List α) : Option Nat := (l.zipIdx.foldl (worse le) none).map Prod.snd

/-- The worst element is erased while there are more than `limit`, for at most `fuel`
rounds. -/
def evict (limit : Nat) : Nat → List α → List α
  | 0, l => l
  | fuel + 1, l =>
      if l.length > limit then
        match worstIndex le l with
        | some i => evict limit fuel (l.eraseIdx i)
        | none => l
      else l

/-- How many elements are ranked above one that stands between `before` and `after`. -/
def rank (before : List α) (x : α) (after : List α) : Nat :=
  before.countP (le · x) + after.countP (!le x ·)

/-- The element is one of the `limit` best. -/
def Kept (limit : Nat) (l : List α) (x : α) : Prop :=
  ∃ before after, l = before ++ x :: after ∧ rank le before x after < limit

section Order

variable {le} (trans : ∀ a b c, le a b → le b c → le a c) (total : ∀ a b, le a b ∨ le b a)

include trans total in
/-- The worst element splits the list: none before it is worse, all after it are better. -/
theorem foldl_worse {l : List α} (h : l ≠ []) :
    ∃ before w after, l = before ++ w :: after ∧
      l.zipIdx.foldl (worse le) none = some (w, before.length) ∧
      (∀ e ∈ before, le e w = true) ∧ ∀ e ∈ after, le w e = false := by
  induction l using List.reverseRecOn with
  | nil => exact absurd rfl h
  | append_singleton l e ih =>
      have hfold : (l ++ [e]).zipIdx.foldl (worse le) none =
          worse le (l.zipIdx.foldl (worse le) none) (e, l.length) := by
        simp [List.zipIdx_append, List.foldl_append]
      rw [hfold]
      by_cases hl : l = []
      · subst hl
        exact ⟨[], e, [], rfl, rfl, by simp, by simp⟩
      · obtain ⟨before, w, after, rfl, hworst, hbefore, hafter⟩ := ih hl
        rw [hworst]
        unfold worse
        cases hle : le w e with
        | false =>
            refine ⟨before, w, after ++ [e], by simp, by simp [hle], hbefore, ?_⟩
            intro x hx
            obtain hx | hx := List.mem_append.mp hx
            · exact hafter x hx
            · obtain rfl := List.mem_singleton.mp hx
              exact hle
        | true =>
            refine ⟨before ++ w :: after, e, [], by simp, by simp [hle], ?_, by simp⟩
            intro x hx
            obtain hx | hx := List.mem_append.mp hx
            · exact trans _ _ _ (hbefore x hx) hle
            · obtain rfl | hx := List.mem_cons.mp hx
              · exact hle
              · have hxw : le x w = true := (total x w).resolve_right (by simp [hafter x hx])
                exact trans _ _ _ hxw hle

/-- Erasing the worst of too many elements takes none of the best. -/
theorem kept_erase {limit : Nat} {before after : List α} {w x : α}
    (hlength : limit < (before ++ w :: after).length)
    (hbefore : ∀ e ∈ before, le e w = true) (hafter : ∀ e ∈ after, le w e = false) :
    Kept le limit (before ++ w :: after) x ↔ Kept le limit (before ++ after) x := by
  constructor
  · rintro ⟨front, back, hsplit, hrank⟩
    obtain ⟨m, rfl, hm⟩ | ⟨m, rfl, hm⟩ := List.append_eq_append_iff.mp hsplit
    · cases m with
      | nil =>
          obtain ⟨rfl, rfl⟩ : w = x ∧ after = back := by simpa using hm
          -- The worst element itself is ranked last.
          have hfront : before.countP (le · w) = before.length :=
            List.countP_eq_length.mpr hbefore
          have hback : after.countP (!le w ·) = after.length :=
            List.countP_eq_length.mpr fun e he => by simp [hafter e he]
          simp only [List.append_nil, rank, hfront, hback] at hrank
          simp only [List.length_append, List.length_cons] at hlength
          omega
      | cons w' m =>
          obtain ⟨rfl, rfl⟩ : w = w' ∧ after = m ++ x :: back := by simpa using hm
          have hx : le w x = false := hafter x (by simp)
          refine ⟨before ++ m, back, by simp, ?_⟩
          simpa [rank, List.countP_append, hx] using hrank
    · cases m with
      | nil =>
          obtain ⟨rfl, rfl⟩ : x = w ∧ back = after := by simpa using hm
          have hfront : front.countP (le · x) = front.length :=
            List.countP_eq_length.mpr fun e he => hbefore e (by simpa using he)
          have hback : back.countP (!le x ·) = back.length :=
            List.countP_eq_length.mpr fun e he => by simp [hafter e he]
          simp only [rank, hfront, hback] at hrank
          simp only [List.append_nil, List.length_append, List.length_cons] at hlength
          omega
      | cons x' m =>
          obtain ⟨rfl, rfl⟩ : x = x' ∧ back = m ++ w :: after := by simpa using hm
          have hx : le x w = true := hbefore x (by simp)
          refine ⟨front, m ++ after, by simp, ?_⟩
          simpa [rank, List.countP_append, hx] using hrank
  · rintro ⟨front, back, hsplit, hrank⟩
    obtain ⟨m, rfl, rfl⟩ | ⟨m, rfl, hm⟩ := List.append_eq_append_iff.mp hsplit
    · have hx : le w x = false := hafter x (by simp)
      refine ⟨before ++ w :: m, back, by simp, ?_⟩
      simpa [rank, List.countP_append, hx] using hrank
    · cases m with
      | nil =>
          obtain rfl : after = x :: back := by simpa using hm.symm
          have hx : le w x = false := hafter x (by simp)
          refine ⟨front ++ [w], back, by simp, ?_⟩
          simpa [rank, List.countP_append, hx] using hrank
      | cons x' m =>
          obtain ⟨rfl, rfl⟩ : x = x' ∧ back = m ++ after := by simpa using hm
          have hx : le x w = true := hbefore x (by simp)
          refine ⟨front, m ++ w :: after, by simp, ?_⟩
          simpa [rank, List.countP_append, hx] using hrank

/-- Where there are not too many, all are among the best. -/
theorem kept_of_length_le {limit : Nat} {l : List α} {x : α} (hlength : l.length ≤ limit) :
    Kept le limit l x ↔ x ∈ l := by
  constructor
  · rintro ⟨before, after, rfl, -⟩
    simp
  · intro hx
    obtain ⟨before, after, rfl⟩ := List.append_of_mem hx
    refine ⟨before, after, rfl, ?_⟩
    have hfront : before.countP (le · x) ≤ before.length := List.countP_le_length
    have hback : after.countP (!le x ·) ≤ after.length := List.countP_le_length
    simp only [List.length_append, List.length_cons] at hlength
    unfold rank
    omega

include trans total in
/-- Eviction keeps the best. -/
theorem mem_evict_iff {limit fuel : Nat} {l : List α} {x : α} (hfuel : l.length ≤ fuel) :
    x ∈ evict le limit fuel l ↔ Kept le limit l x := by
  induction fuel generalizing l with
  | zero =>
      obtain rfl : l = [] := List.length_eq_zero_iff.mp (Nat.le_zero.mp hfuel)
      simp [evict, Kept]
  | succ fuel ih =>
      unfold evict
      split
      · rename_i hlength
        have hl : l ≠ [] := by
          rintro rfl
          simp at hlength
        obtain ⟨before, w, after, rfl, hworst, hbefore, hafter⟩ := foldl_worse trans total hl
        have hindex : worstIndex le (before ++ w :: after) = some before.length := by
          simp [worstIndex, hworst]
        have herase : (before ++ w :: after).eraseIdx before.length = before ++ after := by
          simp [List.eraseIdx_append_of_length_le]
        rw [hindex, kept_erase hlength hbefore hafter]
        dsimp only
        rw [herase, ih]
        simp only [List.length_append, List.length_cons] at hfuel ⊢
        omega
      · rename_i hlength
        rw [kept_of_length_le (Nat.not_lt.mp hlength)]

include trans total in
/-- Eviction leaves at most `limit` elements. -/
theorem length_evict_le {limit fuel : Nat} {l : List α} (hfuel : l.length ≤ fuel) :
    (evict le limit fuel l).length ≤ limit := by
  induction fuel generalizing l with
  | zero =>
      unfold evict
      omega
  | succ fuel ih =>
      unfold evict
      split
      · rename_i hlength
        have hl : l ≠ [] := by
          rintro rfl
          simp at hlength
        obtain ⟨before, w, after, rfl, hworst, -, -⟩ := foldl_worse trans total hl
        have hindex : worstIndex le (before ++ w :: after) = some before.length := by
          simp [worstIndex, hworst]
        rw [hindex]
        apply ih
        rw [List.length_eraseIdx_of_lt (by simp)]
        omega
      · rename_i hlength
        exact Nat.not_lt.mp hlength

/-- Eviction leaves `limit` elements where there were as many. -/
theorem le_length_evict {limit fuel : Nat} {l : List α} (h : limit ≤ l.length) :
    limit ≤ (evict le limit fuel l).length := by
  induction fuel generalizing l with
  | zero => exact h
  | succ fuel ih =>
      unfold evict
      split
      · rename_i hmore
        split
        · apply ih
          rw [List.length_eraseIdx]
          split <;> omega
        · exact h
      · exact h

theorem evict_sublist {limit fuel : Nat} {l : List α} : (evict le limit fuel l).Sublist l := by
  induction fuel generalizing l with
  | zero => exact List.Sublist.refl _
  | succ fuel ih =>
      unfold evict
      split
      · split
        · exact ih.trans (List.eraseIdx_sublist _ _)
        · exact List.Sublist.refl _
      · exact List.Sublist.refl _

end Order

end Evict
