import Mathlib.Data.Option.Basic

/-!
# Calls under a non-reentrant lock

A call works on a value guarded by one lock. It may take the lock for a part of
its work, and that part may contain further calls. A call that takes the lock
while it already holds it waits for itself and never returns.

## Implementation notes

The lock is held for the extent of `withLock`, so that whether it is held is
an argument of a call and not part of the state. `none` stands for a call that
waits for itself; nothing else makes a call fail.
-/

namespace Lock

universe u v

variable {S A B : Type u} {E : Type v}

/-- What a call returns and leaves behind, from whether it holds the lock and
the guarded value. -/
def Call (S A : Type u) := Bool → S → Option (A × S)

namespace Call

instance : Monad (Call S) where
  pure a := fun _ s => some (a, s)
  bind c f := fun held s => (c held s).bind fun r => f r.1 held r.2

/-- The guarded value. -/
def read : Call S S := fun _ s => some (s, s)

/-- Change the guarded value. -/
def update (f : S → S) : Call S PUnit := fun _ s => some (⟨⟩, f s)

/-- Take the lock for the extent of `body`. -/
def withLock (body : Call S A) : Call S A := fun held s =>
  if held then none else body true s

/-- A call for each entry of a list, in order. -/
def forEach (f : E → Call S PUnit) : List E → Call S PUnit
  | [] => pure ⟨⟩
  | e :: es => do
      f e
      forEach f es

@[simp] theorem pure_apply (a : A) (held : Bool) (s : S) :
    (pure a : Call S A) held s = some (a, s) := rfl

@[simp] theorem bind_apply (c : Call S A) (f : A → Call S B) (held : Bool) (s : S) :
    (c >>= f) held s = (c held s).bind fun r => f r.1 held r.2 := rfl

@[simp] theorem read_apply (held : Bool) (s : S) : (read : Call S S) held s = some (s, s) := rfl

@[simp] theorem update_apply (f : S → S) (held : Bool) (s : S) :
    update f held s = some (⟨⟩, f s) := rfl

/-- A second acquisition waits for the first. -/
@[simp] theorem withLock_held (body : Call S A) (s : S) : withLock body true s = none := rfl

@[simp] theorem withLock_free (body : Call S A) (s : S) :
    withLock body false s = body true s := rfl

@[simp] theorem forEach_nil (f : E → Call S PUnit) : forEach f [] = pure ⟨⟩ := rfl

/-- A loop whose body takes the lock does not return from its first round. -/
theorem forEach_eq_none {f : E → Call S PUnit} {held : Bool} {s : S}
    (h : ∀ e, f e held s = none) {es : List E} (hes : es ≠ []) :
    forEach f es held s = none := by
  cases es with
  | nil => exact absurd rfl hes
  | cons e es => simp [forEach, h e]

end Call

end Lock
