import Mathlib.Data.List.Basic
import Mathlib.Data.List.Nodup
import Mathlib.Tactic.Tauto

/-!
# Association lists

A finite map as the list of its entries. The entry of a key that is put in takes
the place of the one before, and entries are kept or dropped by their keys.
-/

namespace Assoc

variable {κ ν : Type*} [DecidableEq κ]

/-- The value of a key. -/
def get (m : List (κ × ν)) (k : κ) : Option ν := (m.find? fun e => e.1 = k).map Prod.snd

/-- A new value for a key. -/
def put (m : List (κ × ν)) (k : κ) (v : ν) : List (κ × ν) := (k, v) :: m.filter fun e => e.1 ≠ k

/-- New values for several keys, one after the other. -/
def putAll (m : List (κ × ν)) (entries : List (κ × ν)) : List (κ × ν) :=
  entries.foldl (fun m e => put m e.1 e.2) m

/-- The entries whose keys are to be kept. -/
def retain (keep : κ → Bool) (m : List (κ × ν)) : List (κ × ν) := m.filter fun e => keep e.1

variable {m : List (κ × ν)} {k j : κ} {v : ν}

@[simp] theorem get_put_self : get (put m k v) k = some v := by
  simp [get, put]

/-- Dropping other keys does not change what is found. -/
theorem find?_filter_key {q : κ × ν → Bool} (h : ∀ e : κ × ν, e.1 = k → q e = true) :
    (m.filter q).find? (fun e => e.1 = k) = m.find? fun e => e.1 = k := by
  rw [List.find?_filter]
  congr
  funext e
  by_cases hk : e.1 = k
  · simp [hk, h e hk]
  · simp [hk]

theorem get_put_of_ne (h : j ≠ k) : get (put m k v) j = get m j := by
  unfold get put
  rw [List.find?_cons_of_neg (by simpa using h.symm), find?_filter_key]
  rintro e rfl
  simpa using h

theorem get_retain {keep : κ → Bool} (h : keep k = true) : get (retain keep m) k = get m k := by
  unfold get retain
  rw [find?_filter_key]
  rintro e rfl
  exact h

theorem get_putAll_of_not_mem {entries : List (κ × ν)} (h : ∀ e ∈ entries, e.1 ≠ k) :
    get (putAll m entries) k = get m k := by
  induction entries generalizing m with
  | nil => rfl
  | cons e entries ih =>
      have hrest := ih (m := put m e.1 e.2) fun e' he' => h e' (List.mem_cons_of_mem _ he')
      exact hrest.trans (get_put_of_ne (h e List.mem_cons_self).symm)

/-- A key that is given one value only has that value afterwards. -/
theorem get_putAll_of_mem {entries : List (κ × ν)} (hmem : (k, v) ∈ entries)
    (h : ∀ e ∈ entries, e.1 = k → e.2 = v) : get (putAll m entries) k = some v := by
  induction entries generalizing m with
  | nil => cases hmem
  | cons e entries ih =>
      have hrest : ∀ e' ∈ entries, e'.1 = k → e'.2 = v :=
        fun e' he' => h e' (List.mem_cons_of_mem _ he')
      by_cases hlater : (k, v) ∈ entries
      · exact ih (m := put m e.1 e.2) hlater hrest
      · obtain rfl := (List.mem_cons.mp hmem).resolve_right hlater
        change get (putAll (put m k v) entries) k = some v
        rw [get_putAll_of_not_mem, get_put_self]
        rintro ⟨j, w⟩ he' rfl
        obtain rfl : w = v := hrest _ he' rfl
        exact hlater he'

theorem mem_of_get (h : get m k = some v) : (k, v) ∈ m := by
  obtain ⟨e, he, rfl⟩ := Option.map_eq_some_iff.mp h
  obtain rfl : e.1 = k := by simpa using List.find?_some he
  exact List.mem_of_find?_eq_some he

theorem isSome_get_iff : (get m k).isSome = true ↔ k ∈ m.map Prod.fst := by
  unfold get
  rw [Option.isSome_map, List.find?_isSome, List.mem_map]
  simp

/-- Without repeated keys every entry is found. -/
theorem get_of_mem (hnodup : (m.map Prod.fst).Nodup) (hmem : (k, v) ∈ m) : get m k = some v := by
  induction m with
  | nil => cases hmem
  | cons e m ih =>
      obtain ⟨hfresh, hnodup⟩ := List.nodup_cons.mp hnodup
      rcases List.mem_cons.mp hmem with rfl | hmem
      · simp [get]
      · have hne : e.1 ≠ k := by
          rintro rfl
          exact hfresh (List.mem_map.mpr ⟨_, hmem, rfl⟩)
        have hget : get (e :: m) k = get m k := by
          simp [get, hne]
        rw [hget]
        exact ih hnodup hmem

/-! ## Entries and keys -/

theorem mem_put {w : ν} : (j, w) ∈ put m k v ↔ (j = k ∧ w = v) ∨ (j ≠ k ∧ (j, w) ∈ m) := by
  unfold put
  simp only [List.mem_cons, List.mem_filter, Prod.mk.injEq, decide_eq_true_eq]
  tauto

section

omit [DecidableEq κ]

theorem mem_drop [BEq κ] [LawfulBEq κ] {w : ν} :
    (j, w) ∈ retain (fun i => i != k) m ↔ j ≠ k ∧ (j, w) ∈ m := by
  unfold retain
  rw [List.mem_filter, and_comm]
  simp

theorem mem_keys_of_mem (h : (k, v) ∈ m) : k ∈ m.map Prod.fst := List.mem_map_of_mem h

theorem exists_of_mem_keys (h : k ∈ m.map Prod.fst) : ∃ v, (k, v) ∈ m := by
  obtain ⟨⟨j, w⟩, hmem, rfl⟩ := List.mem_map.mp h
  exact ⟨w, hmem⟩

theorem mem_keys_drop [BEq κ] [LawfulBEq κ] :
    j ∈ (retain (fun i => i != k) m).map Prod.fst ↔ j ≠ k ∧ j ∈ m.map Prod.fst := by
  constructor
  · intro h
    obtain ⟨w, hw⟩ := exists_of_mem_keys h
    exact ⟨(mem_drop.mp hw).1, mem_keys_of_mem (mem_drop.mp hw).2⟩
  · rintro ⟨hne, hmem⟩
    obtain ⟨w, hw⟩ := exists_of_mem_keys hmem
    exact mem_keys_of_mem (mem_drop.mpr ⟨hne, hw⟩)

theorem nodup_retain (h : (m.map Prod.fst).Nodup) (keep : κ → Bool) :
    ((retain keep m).map Prod.fst).Nodup :=
  h.sublist (List.filter_sublist.map _)

end

theorem mem_keys_put : j ∈ (put m k v).map Prod.fst ↔ j = k ∨ j ∈ m.map Prod.fst := by
  constructor
  · intro h
    obtain ⟨w, hw⟩ := exists_of_mem_keys h
    rcases mem_put.mp hw with ⟨heq, -⟩ | ⟨-, hmem⟩
    · exact Or.inl heq
    · exact Or.inr (mem_keys_of_mem hmem)
  · intro h
    by_cases heq : j = k
    · exact mem_keys_of_mem (mem_put.mpr (Or.inl ⟨heq, rfl⟩))
    · obtain ⟨w, hw⟩ := exists_of_mem_keys (h.resolve_left heq)
      exact mem_keys_of_mem (mem_put.mpr (Or.inr ⟨heq, hw⟩))

section

variable (h : (m.map Prod.fst).Nodup)

include h

theorem nodup_put (k : κ) (v : ν) :
    ((put m k v).map Prod.fst).Nodup := by
  unfold put
  rw [List.map_cons, List.nodup_cons]
  refine ⟨?_, h.sublist (List.filter_sublist.map _)⟩
  rw [List.mem_map]
  rintro ⟨e, he, rfl⟩
  simpa using (List.mem_filter.mp he).2

/-- One key has one value. -/
theorem eq_of_mem {w : ν} (hv : (k, v) ∈ m) (hw : (k, w) ∈ m) :
    v = w := by
  have h₁ := get_of_mem h hv
  have h₂ := get_of_mem h hw
  exact Option.some.inj (h₁.symm.trans h₂)

end

end Assoc
