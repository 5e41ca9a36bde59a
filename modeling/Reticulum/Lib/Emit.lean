import Mathlib.Data.List.Basic

/-!
# Machines that emit

A machine takes inputs one after another and may hand something over at each.
-/

namespace Emit

variable {S I F : Type*}

/-- What is handed over for a row of inputs, and the state after it. -/
def run (step : S → I → List F × S) : S → List I → List F × S
  | s, [] => ([], s)
  | s, i :: inputs =>
      let first := step s i
      let rest := run step first.2 inputs
      (first.1 ++ rest.1, rest.2)

variable {step : S → I → List F × S} {s : S}

@[simp] theorem run_nil : run step s [] = ([], s) := rfl

theorem run_cons (i : I) (inputs : List I) :
    run step s (i :: inputs) =
      ((step s i).1 ++ (run step (step s i).2 inputs).1, (run step (step s i).2 inputs).2) := rfl

theorem run_append (before after : List I) :
    run step s (before ++ after) =
      ((run step s before).1 ++ (run step (run step s before).2 after).1,
        (run step (run step s before).2 after).2) := by
  induction before generalizing s with
  | nil => rfl
  | cons i before ih =>
      rw [List.cons_append, run_cons, run_cons, ih]
      dsimp only
      rw [List.append_assoc]

/-- What is handed over for the inputs before stays handed over. -/
theorem run_append_of_eq {emitted : List F} {m : S} {before : List I}
    (h : run step s before = (emitted, m)) (after : List I) :
    run step s (before ++ after) = (emitted ++ (run step m after).1, (run step m after).2) := by
  rw [run_append, h]

theorem run_singleton (i : I) : run step s [i] = step s i := by
  rw [run_cons]
  simp

/-- What every step keeps. -/
theorem run_invariant {P : S → Prop} (hstep : ∀ s i, P s → P (step s i).2) (hs : P s)
    (inputs : List I) : P (run step s inputs).2 := by
  induction inputs generalizing s with
  | nil => exact hs
  | cons i inputs ih => exact ih (hstep s i hs)

theorem run_map {J : Type*} (f : J → I) (inputs : List J) :
    run step s (inputs.map f) = run (fun s j => step s (f j)) s inputs := by
  induction inputs generalizing s with
  | nil => rfl
  | cons j inputs ih => rw [List.map_cons, run_cons, run_cons, ih]

/-- Machines that do the same with the inputs. -/
theorem run_congr {other : S → I → List F × S} {inputs : List I}
    (h : ∀ s, ∀ i ∈ inputs, step s i = other s i) : run step s inputs = run other s inputs := by
  induction inputs generalizing s with
  | nil => rfl
  | cons i inputs ih =>
      rw [run_cons, run_cons, h s i List.mem_cons_self,
        ih fun s j hj => h s j (List.mem_cons_of_mem i hj)]

end Emit
