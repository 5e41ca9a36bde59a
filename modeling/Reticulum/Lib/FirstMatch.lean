import Mathlib.Data.List.Basic
import Mathlib.Data.List.Pairwise

/-!
# The first match in a list

A table of entries that may share a key is searched from its front: the first
match is read (`List.find?`), changed (`update`) or removed (`List.eraseP`). A
property of pairs says which entries may follow others with the same key.
-/

namespace FirstMatch

variable {α β : Type*} {p : α → Bool} {f : α → α} {l : List α} {a b : α}

/-- Change the first entry that matches. -/
def update (p : α → Bool) (f : α → α) : List α → List α
  | [] => []
  | a :: l => if p a then f a :: l else a :: update p f l

theorem map_update {key : α → β} (hf : ∀ a, key (f a) = key a) (l : List α) :
    (update p f l).map key = l.map key := by
  induction l with
  | nil => rfl
  | cons a l ih =>
      unfold update
      split
      · rw [List.map_cons, List.map_cons, hf]
      · rw [List.map_cons, List.map_cons, ih]

theorem length_update (l : List α) : (update p f l).length = l.length := by
  induction l with
  | nil => rfl
  | cons a l ih =>
      rw [update]
      split
      · rfl
      · rw [List.length_cons, List.length_cons, ih]

/-- The first match, changed at the index at which it is found. -/
theorem modify_eq_update {k : Nat} (h : l.findIdx? p = some k) : l.modify k f = update p f l := by
  induction l generalizing k with
  | nil => cases h
  | cons a l ih =>
      rw [List.findIdx?_cons] at h
      rw [update]
      split at h
      · rename_i ha
        cases h
        rw [if_pos ha, List.modify_zero_cons]
      · rename_i ha
        obtain ⟨j, hj, rfl⟩ := Option.map_eq_some_iff.mp h
        rw [if_neg ha, List.modify_succ_cons, ih hj]

theorem update_eq_self (h : l.findIdx? p = none) : update p f l = l := by
  have hno := List.findIdx?_eq_none_iff.mp h
  clear h
  induction l with
  | nil => rfl
  | cons a l ih =>
      rw [update, if_neg (by simp [hno a List.mem_cons_self]),
        ih fun b hb => hno b (List.mem_cons_of_mem a hb)]

/-- What is read of the entries may be searched and changed in their place. -/
theorem map_update_map {p' : β → Bool} {g : α → α} {g' : β → β} {r : α → β}
    (hp : ∀ a, p' (r a) = p a) (hg : ∀ a, r (g a) = g' (r a)) (l : List α) :
    (update p g l).map r = update p' g' (l.map r) := by
  induction l with
  | nil => rfl
  | cons a l ih =>
      rw [List.map_cons, update, update, hp]
      split
      · rw [List.map_cons, hg]
      · rw [List.map_cons, ih]

/-- The first match after an update, and that of another search. -/
theorem find?_update (hf : ∀ a, p (f a) = p a) (l : List α) :
    (update p f l).find? p = (l.find? p).map f := by
  induction l with
  | nil => rfl
  | cons a l ih =>
      rw [update]
      split
      · rename_i ha
        rw [List.find?_cons_of_pos (by rw [hf, ha]), List.find?_cons_of_pos ha, Option.map_some]
      · rename_i ha
        rw [List.find?_cons_of_neg ha, List.find?_cons_of_neg ha, ih]

theorem find?_update_of_ne {q : α → Bool} (hq : ∀ a, p a = true → q a = false)
    (hf : ∀ a, q (f a) = q a) (l : List α) : (update p f l).find? q = l.find? q := by
  induction l with
  | nil => rfl
  | cons a l ih =>
      rw [update]
      split
      · rename_i ha
        rw [List.find?_cons, List.find?_cons, hf, hq a ha]
      · rw [List.find?_cons, List.find?_cons, ih]

/-- The index of a match, when the search does not read the change. -/
theorem findIdx?_update {q : α → Bool} (hf : ∀ a, q (f a) = q a) (l : List α) :
    (update p f l).findIdx? q = l.findIdx? q := by
  induction l with
  | nil => rfl
  | cons a l ih =>
      rw [update]
      split
      · rw [List.findIdx?_cons, List.findIdx?_cons, hf]
      · rw [List.findIdx?_cons, List.findIdx?_cons, ih]

/-- An update changes the entry at the index of the first match. -/
theorem getElem?_update (l : List α) (k : Nat) :
    (update p f l)[k]? = if l.findIdx? p = some k then l[k]?.map f else l[k]? := by
  cases h : l.findIdx? p with
  | none => rw [update_eq_self h, if_neg (by simp)]
  | some j =>
      rw [← modify_eq_update h, List.getElem?_modify]
      by_cases hj : j = k
      · simp [hj]
      · simp [hj]

/-- An entry after an update is an old one, or the changed first match. -/
theorem mem_update (h : b ∈ update p f l) : b ∈ l ∨ ∃ a, l.find? p = some a ∧ b = f a := by
  induction l with
  | nil => exact .inl h
  | cons a l ih =>
      unfold update at h
      split at h
      · rename_i ha
        rcases List.mem_cons.mp h with rfl | hb
        · exact .inr ⟨a, by simp [ha], rfl⟩
        · exact .inl (List.mem_cons_of_mem a hb)
      · rename_i ha
        rcases List.mem_cons.mp h with rfl | hb
        · exact .inl List.mem_cons_self
        · rcases ih hb with hb | ⟨c, hc, rfl⟩
          · exact .inl (List.mem_cons_of_mem a hb)
          · exact .inr ⟨c, by simpa [List.find?_cons, ha] using hc, rfl⟩

/-- An update keeps a property of pairs that the change respects on its left,
and that the changed match has with every entry that does not match. -/
theorem pairwise_update {R : α → α → Prop} (hleft : ∀ a b, R a b → R (f a) b)
    (hright : ∀ a b, p a = false → p b = true → R a (f b)) (h : l.Pairwise R) :
    (update p f l).Pairwise R := by
  induction l with
  | nil => exact h
  | cons a l ih =>
      obtain ⟨ha, hl⟩ := List.pairwise_cons.mp h
      unfold update
      split
      · exact List.pairwise_cons.mpr ⟨fun b hb => hleft a b (ha b hb), hl⟩
      · rename_i hp
        refine List.pairwise_cons.mpr ⟨fun b hb => ?_, ih hl⟩
        rcases mem_update hb with hb | ⟨c, hc, rfl⟩
        · exact ha b hb
        · exact hright a c (by simpa using hp) (List.find?_some hc)

/-- Removing the first match, in terms of the list around it. -/
theorem eraseP_of_find? (h : l.find? p = some a) : ∃ as bs, l = as ++ a :: bs ∧
    (∀ b ∈ as, p b = false) ∧ p a = true ∧ l.eraseP p = as ++ bs := by
  obtain ⟨ha, as, bs, rfl, has⟩ := List.find?_eq_some_iff_append.mp h
  have has' : ∀ b ∈ as, p b = false := fun b hb => by simpa using has b hb
  refine ⟨as, bs, rfl, has', ha, ?_⟩
  rw [List.eraseP_append_right _ fun b hb => by simp [has' b hb], List.eraseP_cons_of_pos ha]

end FirstMatch
