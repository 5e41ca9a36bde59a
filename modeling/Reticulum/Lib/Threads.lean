import Mathlib.Data.List.Flatten
import Reticulum.Lib.Runs

/-!
# Threads of atomic tasks

A call is a list of tasks, and a thread is the list of the tasks that it has still to run. A task
runs atomically on a state that all threads share. It says which tasks its thread goes on with
before the ones it already had, and which threads it starts. Every interleaving is a list of
events: a call is made, or the next task of one thread runs with an answer from outside.

## Implementation notes

Invariants are stated of the shared state and of the tasks that are still to run, in any order,
so that one lemma for each task carries them over all interleavings.
-/

namespace Threads

variable {C T A K : Type*}

/-- What a task leaves behind. -/
structure Outcome (C T : Type*) where
  core : C
  next : List T := []
  started : List (List T) := []

/-- The shared state and the threads. -/
structure Pool (C T : Type*) where
  core : C
  threads : List (List T) := []

/-- The tasks that are still to run. -/
def Pool.pending (s : Pool C T) : List T := s.threads.flatten

inductive Event (K A : Type*)
  | call (k : K)
  | run (i : Nat) (answer : A)

/-- The calls that there are, and what each task does. -/
structure System (C T A K : Type*) where
  start : K → List T
  exec : T → A → C → Outcome C T

/-- What a task goes on with may depend on a condition. -/
theorem forall_mem_ite {Q : T → Prop} {b : Prop} [Decidable b] {l l' : List T}
    (h : ∀ t ∈ l, Q t) (h' : ∀ t ∈ l', Q t) : ∀ t ∈ (if b then l else l'), Q t := by
  split
  · exact h
  · exact h'

variable (sys : System C T A K)

def step (s : Pool C T) : Event K A → Option (Pool C T)
  | .call k => some { s with threads := s.threads ++ [sys.start k] }
  | .run i answer =>
      match s.threads[i]? with
      | some (t :: rest) =>
          let o := sys.exec t answer s.core
          some { core := o.core, threads := s.threads.set i (o.next ++ rest) ++ o.started }
      | _ => none

/-- A condition on the task that is about to run. -/
def Guarded (ok : T → C → List T → Prop) (s : Pool C T) : Event K A → Prop
  | .call _ => True
  | .run i _ => ∀ t rest, s.threads[i]? = some (t :: rest) → ok t s.core s.pending

instance {ok : T → C → List T → Prop} [∀ t c p, Decidable (ok t c p)] (s : Pool C T) :
    ∀ e : Event K A, Decidable (Guarded ok s e)
  | .call _ => isTrue True.intro
  | .run i _ =>
      match h : s.threads[i]? with
      | some (t :: _) => decidable_of_iff (ok t s.core s.pending) (by simp [Guarded, h])
      | some [] | none => isTrue (by simp [Guarded, h])

/-- Replacing one thread, up to order. -/
theorem perm_flatten_set {threads : List (List T)} {i : Nat} {t : T} {rest : List T}
    (h : threads[i]? = some (t :: rest)) :
    ∃ others, List.Perm threads.flatten (t :: others) ∧
      ∀ next, List.Perm (threads.set i (next ++ rest)).flatten (next ++ others) := by
  obtain ⟨hlt, hget⟩ := List.getElem?_eq_some_iff.mp h
  refine ⟨rest ++ (threads.take i ++ threads.drop (i + 1)).flatten, ?_, fun next => ?_⟩
  · have hsplit : threads = threads.take i ++ (t :: rest) :: threads.drop (i + 1) := by
      rw [← hget, List.getElem_cons_drop, List.take_append_drop]
    conv_lhs => rw [hsplit]
    simp only [List.flatten_append, List.flatten_cons, ← List.cons_append]
    rw [← List.append_assoc, ← List.append_assoc]
    exact List.perm_append_comm.append_right _
  · rw [List.set_eq_take_cons_drop _ hlt]
    simp only [List.flatten_append, List.flatten_cons]
    have hmove : List.Perm ((threads.take i).flatten ++ (next ++ rest))
        ((next ++ rest) ++ (threads.take i).flatten) := List.perm_append_comm
    have hall := hmove.append_right (threads.drop (i + 1)).flatten
    simpa only [List.append_assoc] using hall

variable {sys}

/-- What a step can do. -/
theorem step_cases {s s' : Pool C T} {e : Event K A} (h : step sys s e = some s') :
    (∃ k, e = .call k ∧ s'.core = s.core ∧ List.Perm s'.pending (sys.start k ++ s.pending)) ∨
    ∃ i answer t rest others, e = .run i answer ∧ s.threads[i]? = some (t :: rest) ∧
      s'.core = (sys.exec t answer s.core).core ∧
      List.Perm s.pending (t :: others) ∧
      List.Perm s'.pending ((sys.exec t answer s.core).next ++
        ((sys.exec t answer s.core).started.flatten ++ others)) := by
  cases e with
  | call k =>
      obtain rfl := Option.some.inj h
      refine Or.inl ⟨k, rfl, rfl, ?_⟩
      simp only [Pool.pending, List.flatten_append, List.flatten_cons, List.flatten_nil,
        List.append_nil]
      exact List.perm_append_comm
  | run i answer =>
      right
      simp only [step] at h
      split at h
      · next t rest hthread =>
          obtain rfl := Option.some.inj h
          obtain ⟨others, hbefore, hafter⟩ := perm_flatten_set hthread
          refine ⟨i, answer, t, rest, others, rfl, hthread, rfl, hbefore, ?_⟩
          simp only [Pool.pending, List.flatten_append]
          refine ((hafter _).append_right _).trans ?_
          rw [List.append_assoc]
          exact List.perm_append_comm.append_left _
      · cases h

/-- An invariant of the shared state and the tasks to run is kept by every step, provided that it
does not depend on their order, that new calls keep it, and that each task keeps it where its
condition is met. -/
theorem invariant_step {I : C → List T → Prop} {ok : T → C → List T → Prop}
    (hperm : ∀ c p q, List.Perm p q → I c p → I c q)
    (hokperm : ∀ t c p q, List.Perm p q → ok t c p → ok t c q)
    (hcall : ∀ k c p, I c p → I c (sys.start k ++ p))
    (hrun : ∀ t answer c others, I c (t :: others) → ok t c (t :: others) →
      I (sys.exec t answer c).core ((sys.exec t answer c).next ++
        ((sys.exec t answer c).started.flatten ++ others)))
    {s s' : Pool C T} {e : Event K A} (hI : I s.core s.pending) (hok : Guarded ok s e)
    (h : step sys s e = some s') : I s'.core s'.pending := by
  rcases step_cases h with ⟨k, rfl, hcore, hpending⟩ |
    ⟨i, answer, t, rest, others, rfl, hthread, hcore, hbefore, hafter⟩
  · rw [hcore]
    exact hperm _ _ _ hpending.symm (hcall k _ _ hI)
  · rw [hcore]
    refine hperm _ _ _ hafter.symm (hrun t answer _ _ (hperm _ _ _ hbefore hI) ?_)
    exact hokperm _ _ _ _ hbefore (hok t rest hthread)

end Threads
