import Mathlib.Data.Finset.Card
import Mathlib.Data.Finset.Dedup

/-!
# Sets of two generations

What was seen is remembered in a current and a previous generation. Once the
current one is larger than a limit it takes the place of the previous one, and
that is forgotten. So an element is new again only after more than `limit` others
were new (`spaced_note`).

## Implementation notes

The history lists what was new, the latest first. It may start at any time: nothing
is asked of what the generations hold by then.
-/

/-- Two generations of a set, and a list of what the current one holds. -/
structure Generations (α : Type*) where
  entries : List α
  current : List α
  previous : List α

namespace Generations

variable {α : Type*} [DecidableEq α]

/-- A new element is added to the current generation. -/
def note (g : Generations α) (a : α) : Generations α :=
  { g with entries := g.entries ++ [a], current := g.current.insert a }

/-- A generation that is too large becomes the previous one. -/
def rotate (limit : Nat) (g : Generations α) : Generations α :=
  if limit < g.entries.length then { entries := [], current := [], previous := g.current } else g

/-- The element is in one of the generations. -/
def Seen (g : Generations α) (a : α) : Prop := a ∈ g.previous ∨ a ∈ g.current

/-- How many elements other than `a` there are. -/
def others (a : α) (l : List α) : Nat := (l.toFinset.erase a).card

/-- What became of an element since it was new: it is in the current generation; or in the
previous one, and all of the current one came later; or more than `limit` others did. -/
inductive Fate (limit : Nat) (g : Generations α) (a : α) (later : List α) : Prop
  | current (h : a ∈ g.current)
  | previous (h : a ∈ g.previous) (fresh : a ∉ g.entries) (nodup : g.entries.Nodup)
      (mirrored : g.entries ⊆ g.current) (entries : g.entries ⊆ later)
  | outlived (h : limit < others a later)

/-- Whatever was new is accounted for. -/
def Retained (limit : Nat) (g : Generations α) (history : List α) : Prop :=
  ∀ a later older, history = later ++ a :: older → a ∉ later → Fate limit g a later

/-- Whatever was new twice had more than `limit` others in between. -/
def Spaced (limit : Nat) (history : List α) : Prop :=
  ∀ newer a between older, history = newer ++ a :: (between ++ a :: older) →
    limit < others a between

variable {limit : Nat} {g : Generations α} {a : α} {later later' history : List α}

theorem current_note :
    (g.note a).current = if a ∈ g.current then g.current else a :: g.current := by
  split
  · exact List.insert_of_mem ‹_›
  · exact List.insert_of_not_mem ‹_›

theorem others_mono (h : later ⊆ later') : others a later ≤ others a later' := by
  apply Finset.card_le_card
  apply Finset.erase_subset_erase
  intro b hb
  exact List.mem_toFinset.mpr (h (List.mem_toFinset.mp hb))

/-- A list without repetitions that leaves `a` out. -/
theorem length_le_others (hnodup : later.Nodup) (ha : a ∉ later) (h : later ⊆ later') :
    later.length ≤ others a later' := by
  rw [← List.toFinset_card_of_nodup hnodup]
  apply Finset.card_le_card
  intro b hb
  have hmem := List.mem_toFinset.mp hb
  refine Finset.mem_erase.mpr ⟨?_, List.mem_toFinset.mpr (h hmem)⟩
  rintro rfl
  exact ha hmem

theorem retained_nil : Retained limit g [] := by
  intro a later older heq
  cases later <;> cases heq

section

variable (h : Retained limit g history)

include h

/-- An element that is new is remembered, and the others came before it. -/
theorem retained_note (hnew : ¬ g.Seen a) :
    Retained limit (g.note a) (a :: history) := by
  intro b later older heq hb
  cases later with
  | nil =>
      obtain ⟨rfl, -⟩ := List.cons.inj heq
      exact .current List.mem_insert_self
  | cons d later =>
      obtain ⟨rfl, hhistory⟩ := List.cons.inj heq
      have hne : b ≠ a := fun hba => hb (hba ▸ List.mem_cons_self)
      cases h b later older hhistory fun hmem => hb (List.mem_cons_of_mem _ hmem) with
      | current hcurrent => exact .current (List.mem_insert_of_mem hcurrent)
      | previous hprevious fresh nodup mirrored entries =>
          have hentries : a ∉ g.entries := fun hmem => hnew (.inr (mirrored hmem))
          refine .previous hprevious ?_ ?_ ?_ ?_
          · simp [note, fresh, hne]
          · simpa [note, List.nodup_append, nodup] using
              fun x hx (hxa : x = a) => hentries (hxa ▸ hx)
          · intro x hx
            rcases List.mem_append.mp hx with hx | hx
            · exact List.mem_insert_of_mem (mirrored hx)
            · obtain rfl := List.mem_singleton.mp hx
              exact List.mem_insert_self
          · intro x hx
            rcases List.mem_append.mp hx with hx | hx
            · exact List.mem_cons_of_mem _ (entries hx)
            · obtain rfl := List.mem_singleton.mp hx
              exact List.mem_cons_self
      | outlived hothers =>
          exact .outlived (hothers.trans_le (others_mono (List.subset_cons_self _ _)))

/-- A rotation forgets only what more than `limit` others have followed. -/
theorem retained_rotate :
    Retained limit (g.rotate limit) history := by
  unfold rotate
  split
  · rename_i hlong
    intro b later older heq hb
    cases h b later older heq hb with
    | current hcurrent =>
        exact .previous hcurrent List.not_mem_nil List.nodup_nil (List.nil_subset _)
          (List.nil_subset _)
    | previous _ fresh nodup _ entries =>
        exact .outlived (hlong.trans_le (length_le_others nodup fresh entries))
    | outlived hothers => exact .outlived hothers
  · exact h

/-- What was new is still seen until more than `limit` others were new. -/
theorem seen_of_retained {older : List α}
    (hhistory : history = later ++ a :: older) (hfew : others a later ≤ limit) : g.Seen a := by
  -- the latest time the element was new decides
  obtain ⟨first, rest, hsplit, hfirst, hsub⟩ : ∃ first rest,
      later ++ a :: older = first ++ a :: rest ∧ a ∉ first ∧ first ⊆ later := by
    by_cases ha : a ∈ later
    · obtain ⟨first, rest, rfl, hfirst⟩ := List.eq_append_cons_of_mem ha
      exact ⟨first, rest ++ a :: older, by simp, hfirst, List.subset_append_left _ _⟩
    · exact ⟨later, older, rfl, ha, List.Subset.refl _⟩
  cases h a first rest (hhistory.trans hsplit) hfirst with
  | current hcurrent => exact .inr hcurrent
  | previous hprevious _ _ _ _ => exact .inl hprevious
  | outlived hothers =>
      have hle := others_mono (a := a) hsub
      omega

end

/-- An element that is new has been new long ago, if it ever was. -/
theorem spaced_note (hspaced : Spaced limit history) (h : Retained limit g history)
    (hnew : ¬ g.Seen a) : Spaced limit (a :: history) := by
  intro newer b between older heq
  cases newer with
  | nil =>
      obtain ⟨rfl, hhistory⟩ := List.cons.inj heq
      by_contra hfew
      exact hnew (seen_of_retained h hhistory (Nat.not_lt.mp hfew))
  | cons d newer =>
      obtain ⟨-, hhistory⟩ := List.cons.inj heq
      exact hspaced newer b between older hhistory

/-! ## Elements under a name -/

variable {β : Type*} [DecidableEq β] (f : β → α)

theorem others_map_le (b : β) (l : List β) : others (f b) (l.map f) ≤ others b l := by
  have hsub : (l.map f).toFinset.erase (f b) ⊆ (l.toFinset.erase b).image f := by
    intro x hx
    obtain ⟨hne, hmem⟩ := Finset.mem_erase.mp hx
    obtain ⟨d, hd, rfl⟩ := List.mem_map.mp (List.mem_toFinset.mp hmem)
    refine Finset.mem_image.mpr ⟨d, Finset.mem_erase.mpr ⟨?_, List.mem_toFinset.mpr hd⟩, rfl⟩
    rintro rfl
    exact hne rfl
  exact (Finset.card_le_card hsub).trans Finset.card_image_le

/-- What is spaced by its name is spaced. -/
theorem spaced_of_map {history : List β} (h : Spaced limit (history.map f)) :
    Spaced limit history := by
  intro newer b between older heq
  have hothers := h (newer.map f) (f b) (between.map f) (older.map f) (by rw [heq]; simp)
  exact hothers.trans_le (others_map_le f b between)

end Generations
