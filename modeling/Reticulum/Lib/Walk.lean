import Mathlib.Data.List.Nodup

/-!
# Walks over the keys of a table

A loop takes up the keys of a table one after the other, in any order but each key
once. Where a round changes what stands at its own key alone, the loop as a whole
does at every key what one round does there (`look_foldl`).
-/

namespace Walk

variable {S K V : Type*}

/-- Every key of the table stands in the list, once. -/
def Enumerates (keys : List K) (table : K → Option V) : Prop :=
  keys.Nodup ∧ ∀ k, k ∈ keys ↔ (table k).isSome

variable {step : S → K → S} {look : K → S → V} {effect : K → V → V}

theorem look_foldl_of_not_mem (hother : ∀ s k k', k' ≠ k → look k' (step s k) = look k' s)
    {keys : List K} {k : K} (hk : k ∉ keys) (s : S) :
    look k (keys.foldl step s) = look k s := by
  induction keys generalizing s with
  | nil => rfl
  | cons key keys ih =>
      rw [List.foldl_cons, ih (fun h => hk (List.mem_cons_of_mem _ h)), hother]
      rintro rfl
      exact hk List.mem_cons_self

/-- What a walk leaves at a key is what one round makes of what stood there. -/
theorem look_foldl [DecidableEq K] (hown : ∀ s k, look k (step s k) = effect k (look k s))
    (hother : ∀ s k k', k' ≠ k → look k' (step s k) = look k' s)
    {keys : List K} (hkeys : keys.Nodup) (k : K) (s : S) :
    look k (keys.foldl step s) = if k ∈ keys then effect k (look k s) else look k s := by
  induction keys generalizing s with
  | nil => simp
  | cons key keys ih =>
      obtain ⟨hkey, hkeys⟩ := List.nodup_cons.mp hkeys
      rw [List.foldl_cons]
      by_cases hk : k = key
      · subst hk
        rw [look_foldl_of_not_mem hother hkey, hown, if_pos List.mem_cons_self]
      · rw [ih hkeys, hother s key k hk]
        simp [hk]

/-- A walk over what some of the keys stand for. -/
theorem foldl_filterMap {E : Type*} (f : K → Option E) (g : S → E → S) (keys : List K) (s : S) :
    (keys.filterMap f).foldl g s = keys.foldl (fun s k => ((f k).map (g s)).getD s) s := by
  induction keys generalizing s with
  | nil => rfl
  | cons key keys ih =>
      cases hkey : f key with
      | none => simp [hkey, ih]
      | some e => simp [hkey, ih]

end Walk
