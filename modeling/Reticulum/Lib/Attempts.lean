import Mathlib.Data.List.Basic

/-!
# The first attempt that succeeds

Keys are tried one after the other until one of them fits. An attempt returns a
value or an error, or it does not return at all, and then none is made after it.
-/

namespace Attempts

variable {ε α β : Type*}

/-- The value of the first attempt that succeeds, or none after all have failed. The search
does not return when an attempt does not. -/
def first (attempt : α → Option (Except ε β)) : List α → Option (Option β)
  | [] => some none
  | a :: l =>
      match attempt a with
      | none => none
      | some (.ok b) => some (some b)
      | some (.error _) => first attempt l

/-- A search ends with an attempt that does not return, with one that succeeds, or after all
of them have failed. -/
theorem first_cases (attempt : α → Option (Except ε β)) (l : List α) :
    (first attempt l = none ∧ ∃ a ∈ l, attempt a = none) ∨
    (∃ b, first attempt l = some (some b) ∧ ∃ a ∈ l, attempt a = some (.ok b)) ∨
    (first attempt l = some none ∧ ∀ a ∈ l, ∃ e, attempt a = some (.error e)) := by
  induction l with
  | nil => exact .inr (.inr ⟨rfl, fun a ha => absurd ha List.not_mem_nil⟩)
  | cons a l ih =>
      match ha : attempt a with
      | none => exact .inl ⟨by rw [first, ha], a, List.mem_cons_self, ha⟩
      | some (.ok b) =>
          exact .inr (.inl ⟨b, by rw [first, ha], a, List.mem_cons_self, ha⟩)
      | some (.error e) =>
          have hfirst : first attempt (a :: l) = first attempt l := by rw [first, ha]
          rw [hfirst]
          obtain ⟨h, a', ha', hnone⟩ | ⟨b, h, a', ha', hok⟩ | ⟨h, hall⟩ := ih
          · exact .inl ⟨h, a', List.mem_cons_of_mem a ha', hnone⟩
          · exact .inr (.inl ⟨b, h, a', List.mem_cons_of_mem a ha', hok⟩)
          · exact .inr (.inr ⟨h, List.forall_mem_cons.mpr ⟨⟨e, ha⟩, hall⟩⟩)

end Attempts
