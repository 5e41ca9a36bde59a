import Mathlib.Data.List.Basic
import Mathlib.Data.List.Infix

/-!
# Runs of a partial step function

A machine is a function `step : S → E → Option S`; an event that is not
enabled in a state has no successor. A run is the list of its events, so that
every interleaving of several parties is one list.

## Implementation notes

`Meets` asks for a condition on the state before each step that is taken.
An event that is not enabled ends the run and is asked nothing.
-/

namespace Runs

variable {S E : Type*}

/-- Take the events from left to right, stopping at the first disabled one. -/
def exec (step : S → E → Option S) : S → List E → Option S
  | s, [] => some s
  | s, e :: es => (step s e).bind fun s' => exec step s' es

/-- Every step of the run is taken in a state in which its event meets `ok`. -/
def Meets (step : S → E → Option S) (ok : S → E → Prop) : S → List E → Prop
  | _, [] => True
  | s, e :: es => ∀ s', step s e = some s' → ok s e ∧ Meets step ok s' es

/-- `P` holds in every state that the run passes through. -/
def Always (step : S → E → Option S) (P : S → Prop) (s : S) (es : List E) : Prop :=
  ∀ done s', done <+: es → exec step s done = some s' → P s'

@[simp] theorem exec_nil (step : S → E → Option S) (s : S) :
    exec step s [] = some s := rfl

theorem exec_cons (step : S → E → Option S) (s : S) (e : E) (es : List E) :
    exec step s (e :: es) = (step s e).bind fun s' => exec step s' es := rfl

variable {es : List E} {s : S} {step : S → E → Option S} {ok : S → E → Prop} {I P : S → Prop}

theorem exec_cons_eq_some {s s' : S} {e : E} :
    exec step s (e :: es) = some s' ↔
      ∃ m, step s e = some m ∧ exec step m es = some s' := by
  simp [exec_cons, Option.bind_eq_some_iff]

theorem exec_append (step : S → E → Option S) (s : S) (es fs : List E) :
    exec step s (es ++ fs) = (exec step s es).bind fun m => exec step m fs := by
  induction es generalizing s with
  | nil => simp
  | cons e es ih =>
      simp only [List.cons_append, exec_cons]
      cases step s e with
      | none => simp
      | some m => simpa using ih m

theorem exec_append_of_eq {s m : S} (h : exec step s es = some m) (fs : List E) :
    exec step s (es ++ fs) = exec step m fs := by
  simp [exec_append, h]

/-- A property kept by every step that meets `ok` holds at the end of every
run whose steps meet `ok`. -/
theorem invariant (hstep : ∀ s e s', P s → ok s e → step s e = some s' → P s') {s s' : S} (hs : P s)
    (hm : Meets step ok s es) (h : exec step s es = some s') : P s' := by
  induction es generalizing s with
  | nil =>
      obtain rfl : s = s' := by simpa using h
      exact hs
  | cons e es ih =>
      obtain ⟨m, he, hrest⟩ := exec_cons_eq_some.mp h
      obtain ⟨hok, hmeets⟩ := hm m he
      exact ih (hstep s e m hs hok he) hmeets hrest

/-- The unconditional form of `invariant`. -/
theorem invariant_of_step (hstep : ∀ s e s', P s → step s e = some s' → P s') {s s' : S} (hs : P s)
    (h : exec step s es = some s') : P s' := by
  induction es generalizing s with
  | nil =>
      obtain rfl : s = s' := by simpa using h
      exact hs
  | cons e es ih =>
      obtain ⟨m, he, hrest⟩ := exec_cons_eq_some.mp h
      exact ih (hstep s e m hs he) hrest

/-- A run that ends with `P` and did not start with it has a step that brings it
about. -/
theorem exists_step_of_exec {s s' : S} (hs : ¬ P s) (h : exec step s es = some s') (hs' : P s') :
    ∃ done e m m', done ++ [e] <+: es ∧ exec step s done = some m ∧ step m e = some m' ∧
      ¬ P m ∧ P m' := by
  induction es generalizing s with
  | nil =>
      obtain rfl : s = s' := by simpa using h
      exact absurd hs' hs
  | cons e es ih =>
      obtain ⟨m, he, hrest⟩ := exec_cons_eq_some.mp h
      by_cases hm : P m
      · exact ⟨[], e, s, m, by simp, rfl, he, hs, hm⟩
      · obtain ⟨done, e', m₁, m₂, hdone, hrun, hstep, h₁, h₂⟩ := ih hm hrest
        refine ⟨e :: done, e', m₁, m₂, ?_, ?_, hstep, h₁, h₂⟩
        · exact List.cons_prefix_cons.mpr ⟨rfl, hdone⟩
        · exact exec_cons_eq_some.mpr ⟨m, he, hrun⟩

/-- A condition on the events alone. -/
theorem meets_of_forall {ok : E → Prop} (h : ∀ e ∈ es, ok e) (s : S) :
    Meets step (fun _ e => ok e) s es := by
  induction es generalizing s with
  | nil => exact True.intro
  | cons e es ih =>
      intro m _
      exact ⟨h e (by simp), ih (fun e' he' => h e' (by simp [he'])) m⟩

/-- The first step of a run that is known. -/
theorem meets_cons {s s' : S} {e : E} (hstep : step s e = some s') (hok : ok s e)
    (h : Meets step ok s' es) : Meets step ok s (e :: es) := by
  intro m hm
  obtain rfl := Option.some.inj (hstep.symm.trans hm)
  exact ⟨hok, h⟩

/-- Whether a run meets a condition that can be decided is found out by running it. -/
instance decidableMeets {step : S → E → Option S} {ok : S → E → Prop}
    [∀ s e, Decidable (ok s e)] : ∀ (s : S) (es : List E), Decidable (Meets step ok s es)
  | _, [] => isTrue True.intro
  | s, e :: es =>
      match hstep : step s e with
      | none => isTrue fun m hm => by
          rw [hstep] at hm
          cases hm
      | some m =>
          have hiff : ok s e ∧ Meets step ok m es ↔ Meets step ok s (e :: es) := by
            constructor
            · intro h m' hm'
              rw [hstep] at hm'
              cases hm'
              exact h
            · exact fun h => h m hstep
          have : Decidable (Meets step ok m es) := decidableMeets m es
          decidable_of_iff _ hiff

/-- A condition that follows from `ok` under an invariant that steps meeting `ok` keep is met
wherever `ok` is. -/
theorem meets_of_meets {ok ok' : S → E → Prop}
    (hkeep : ∀ s e s', I s → ok s e → step s e = some s' → I s')
    (hok : ∀ s e, I s → ok s e → ok' s e) (hs : I s) (h : Meets step ok s es) :
    Meets step ok' s es := by
  induction es generalizing s with
  | nil => exact True.intro
  | cons e es ih =>
      intro m hstep
      obtain ⟨he, hrest⟩ := h m hstep
      exact ⟨hok s e hs he, ih (hkeep s e m hs he hstep) hrest⟩

/-- Two conditions that are met are met together. -/
theorem meets_and {ok ok' : S → E → Prop} (h : Meets step ok s es) (h' : Meets step ok' s es) :
    Meets step (fun s e => ok s e ∧ ok' s e) s es := by
  induction es generalizing s with
  | nil => exact True.intro
  | cons e es ih =>
      intro m hstep
      obtain ⟨he, hrest⟩ := h m hstep
      obtain ⟨he', hrest'⟩ := h' m hstep
      exact ⟨⟨he, he'⟩, ih hrest hrest'⟩

/-- The form for an invariant that every step keeps. -/
theorem meets_of_invariant {ok ok' : S → E → Prop}
    (hkeep : ∀ s e s', I s → step s e = some s' → I s') (hok : ∀ s e, I s → ok s e → ok' s e)
    (hs : I s) (h : Meets step ok s es) : Meets step ok' s es :=
  meets_of_meets (fun s e s' hI _ hstep => hkeep s e s' hI hstep) hok hs h

theorem always_cons {e : E} :
    Always step P s (e :: es) ↔ P s ∧ ∀ m, step s e = some m → Always step P m es := by
  constructor
  · intro h
    refine ⟨h [] s List.nil_prefix rfl, ?_⟩
    intro m he done s' hdone hrun
    apply h (e :: done) s' (List.cons_prefix_cons.mpr ⟨rfl, hdone⟩)
    exact exec_cons_eq_some.mpr ⟨m, he, hrun⟩
  · rintro ⟨hs, h⟩ done s' hdone hrun
    cases done with
    | nil =>
        obtain rfl : s = s' := by simpa using hrun
        exact hs
    | cons d done =>
        obtain ⟨rfl, hd⟩ := List.cons_prefix_cons.mp hdone
        obtain ⟨m, he, hrest⟩ := exec_cons_eq_some.mp hrun
        exact h m he done s' hd hrest

/-- A property kept by every step that meets `ok` holds in every state of a run whose
steps meet `ok`. -/
theorem always_of_meets (hstep : ∀ s e s', P s → ok s e → step s e = some s' → P s') (hs : P s)
    (hm : Meets step ok s es) : Always step P s es := by
  induction es generalizing s with
  | nil =>
      intro done s' hdone hrun
      obtain rfl := List.prefix_nil.mp hdone
      obtain rfl : s = s' := by simpa using hrun
      exact hs
  | cons e es ih =>
      refine always_cons.mpr ⟨hs, ?_⟩
      intro m he
      obtain ⟨hok, hmeets⟩ := hm m he
      exact ih (hstep s e m hs hok he) hmeets

/-- A run whose steps meet `given` passes only through states in which `P` holds exactly when all
its steps meet `ok`, provided an invariant gives `P`, steps meeting both keep the invariant, and a
step that does not meet `ok` ends in a state without `P`. -/
theorem always_iff_meets_given {given ok : S → E → Prop} (hP : ∀ s, I s → P s)
    (hkeep : ∀ s e s', I s → given s e → ok s e → step s e = some s' → I s')
    (hbreak : ∀ s e s', I s → given s e → ¬ ok s e → step s e = some s' → ¬ P s') (hs : I s)
    (hgiven : Meets step given s es) : Always step P s es ↔ Meets step ok s es := by
  induction es generalizing s with
  | nil =>
      refine ⟨fun _ => True.intro, fun _ done s' hdone hrun => ?_⟩
      obtain rfl := List.prefix_nil.mp hdone
      obtain rfl : s = s' := by simpa using hrun
      exact hP s hs
  | cons e es ih =>
      rw [always_cons]
      constructor
      · rintro ⟨-, h⟩ m he
        obtain ⟨hg, hrest⟩ := hgiven m he
        have hm : P m := h m he [] m List.nil_prefix rfl
        by_cases hok : ok s e
        · exact ⟨hok, (ih (hkeep s e m hs hg hok he) hrest).mp (h m he)⟩
        · exact absurd hm (hbreak s e m hs hg hok he)
      · intro h
        refine ⟨hP s hs, fun m he => ?_⟩
        obtain ⟨hg, hrest⟩ := hgiven m he
        obtain ⟨hok, hmeets⟩ := h m he
        exact (ih (hkeep s e m hs hg hok he) hrest).mpr hmeets

/-- The form without an assumption on the steps. -/
theorem always_iff_meets (hP : ∀ s, I s → P s)
    (hkeep : ∀ s e s', I s → ok s e → step s e = some s' → I s')
    (hbreak : ∀ s e s', I s → ¬ ok s e → step s e = some s' → ¬ P s') (hs : I s) (es : List E) :
    Always step P s es ↔ Meets step ok s es :=
  always_iff_meets_given hP (fun s e s' hI _ => hkeep s e s' hI)
    (fun s e s' hI _ => hbreak s e s' hI) hs
    (meets_of_forall (fun _ _ => True.intro : ∀ e ∈ es, (fun _ => True) e) s)

/-- Every step of a run meets one condition exactly when it meets another, provided steps that
meet the second keep an invariant under which the two agree. -/
theorem meets_iff_meets {ok ok' : S → E → Prop}
    (hkeep : ∀ s e s', I s → ok s e → step s e = some s' → I s')
    (hsame : ∀ s e s', I s → step s e = some s' → (ok' s e ↔ ok s e)) (hs : I s) (es : List E) :
    Meets step ok' s es ↔ Meets step ok s es := by
  induction es generalizing s with
  | nil => exact Iff.rfl
  | cons e es ih =>
      constructor
      · intro h m he
        obtain ⟨hok', hrest⟩ := h m he
        have hok := (hsame s e m hs he).mp hok'
        exact ⟨hok, (ih (hkeep s e m hs hok he)).mp hrest⟩
      · intro h m he
        obtain ⟨hok, hrest⟩ := h m he
        exact ⟨(hsame s e m hs he).mpr hok, (ih (hkeep s e m hs hok he)).mpr hrest⟩

end Runs
