import Mathlib.Data.List.Basic

/-!
# Splitting texts

Texts are lists of letters. A letter that occurs once in a part of a text splits it in one way.
-/

namespace Text

variable {α : Type*} {a : α} {x y z w : List α}

/-- The last occurrence of a letter splits a text in one way. -/
theorem append_cons_inj_last (hz : a ∉ z) (hw : a ∉ w) (h : x ++ a :: z = y ++ a :: w) :
    x = y ∧ z = w := by
  rcases List.append_eq_append_iff.mp h with ⟨as, rfl, heq⟩ | ⟨as, rfl, heq⟩
  · cases as with
    | nil => exact ⟨by simp, by simpa using heq⟩
    | cons b as =>
        obtain ⟨-, rfl⟩ := List.cons.inj heq
        exact absurd (by simp) hz
  · cases as with
    | nil => exact ⟨by simp, by simpa using heq.symm⟩
    | cons b as =>
        obtain ⟨-, rfl⟩ := List.cons.inj heq
        exact absurd (by simp) hw

end Text
