import Mathlib.Data.List.Nodup
import Reticulum.Lib.FirstMatch

/-!
# Queues with one entry for each key

An entry that is put in is taken over by the entry of its key, in that one's place,
or goes to the end. The keys of a queue stay distinct, and an entry keeps its place.
-/

namespace Coalesce

variable {K α β : Type*} [DecidableEq K] {key : α → K} {take : α → α → α} {q : List α} {a b : α}

/-- Put an entry in; `take` is what becomes of the entry that has its key. -/
def offer (key : α → K) (take : α → α → α) (q : List α) (a : α) : List α :=
  if key a ∈ q.map key then FirstMatch.update (fun b => key b == key a) (fun b => take b a) q
  else q ++ [a]

theorem offer_of_not_mem (h : key a ∉ q.map key) : offer key take q a = q ++ [a] := if_neg h

/-- The entry of the key, between those that come before it and after it. -/
theorem offer_of_mem (take : α → α → α) (h : key a ∈ q.map key) :
    ∃ as c bs, q = as ++ c :: bs ∧ key c = key a ∧ offer key take q a = as ++ take c a :: bs := by
  rw [offer, if_pos h]
  induction q with
  | nil => exact absurd h List.not_mem_nil
  | cons c q ih =>
      rw [FirstMatch.update]
      by_cases hc : key c = key a
      · exact ⟨[], c, q, rfl, hc, by simp [hc]⟩
      · have hmem' : key a ∈ q.map key := by
          rcases List.mem_cons.mp h with heq | hmem
          · exact absurd heq.symm hc
          · exact hmem
        obtain ⟨as, d, bs, rfl, hd, hupdate⟩ := ih hmem'
        exact ⟨c :: as, d, bs, rfl, hd, by simp [hc, hupdate]⟩

omit [DecidableEq K] in
/-- An entry at the end of a queue. -/
theorem pairwise_concat {R : α → α → Prop} (h : q.Pairwise R) (hlast : ∀ b ∈ q, R b a) :
    (q ++ [a]).Pairwise R :=
  List.pairwise_append.mpr ⟨h, List.pairwise_singleton R a, fun b hb _ hc =>
    List.mem_singleton.mp hc ▸ hlast b hb⟩

theorem keys_offer (hkey : ∀ b, key (take b a) = key b) (h : (q.map key).Nodup) :
    ((offer key take q a).map key).Nodup := by
  by_cases hmem : key a ∈ q.map key
  · obtain ⟨as, c, bs, rfl, -, hoffer⟩ := offer_of_mem take hmem
    rw [hoffer]
    simpa only [List.map_append, List.map_cons, hkey] using h
  · rw [offer_of_not_mem hmem, List.map_append, List.nodup_append]
    refine ⟨h, List.nodup_singleton _, ?_⟩
    rintro k hk _ hk' rfl
    obtain rfl := List.mem_singleton.mp hk'
    exact hmem hk

theorem mem_offer (h : b ∈ offer key take q a) :
    b ∈ q ∨ (b = a ∧ key a ∉ q.map key) ∨ ∃ c ∈ q, key c = key a ∧ b = take c a := by
  by_cases hmem : key a ∈ q.map key
  · obtain ⟨as, c, bs, rfl, hc, hoffer⟩ := offer_of_mem take hmem
    rw [hoffer, List.mem_append, List.mem_cons] at h
    rcases h with h | rfl | h
    · exact .inl (List.mem_append_left _ h)
    · exact .inr (.inr ⟨c, by simp, hc, rfl⟩)
    · exact .inl (List.mem_append_right _ (List.mem_cons_of_mem _ h))
  · rw [offer_of_not_mem hmem, List.mem_append, List.mem_singleton] at h
    exact h.imp_right fun heq => .inl ⟨heq, hmem⟩

omit [DecidableEq K] in
/-- No entry of the key, or the one entry of it. -/
theorem filter_of_not_mem {p : α → Bool} (hp : ∀ b, p b = true ↔ key b = key a)
    (h : key a ∉ q.map key) : q.filter p = [] :=
  List.filter_eq_nil_iff.mpr fun b hb hkey => h (List.mem_map.mpr ⟨b, hb, (hp b).mp hkey⟩)

omit [DecidableEq K] in
theorem filter_of_nodup {p : α → Bool} (hp : ∀ b, p b = true ↔ key b = key a) {as bs : List α}
    {c : α} (h : ((as ++ c :: bs).map key).Nodup) (hc : key c = key a) :
    (as ++ c :: bs).filter p = [c] := by
  rw [List.map_append, List.map_cons, List.nodup_middle, List.nodup_cons, List.mem_append,
    not_or, hc] at h
  rw [List.filter_append, List.filter_cons_of_pos ((hp c).mpr hc),
    filter_of_not_mem hp h.1.1, filter_of_not_mem hp h.1.2, List.nil_append]

theorem length_offer_of_mem (h : key a ∈ q.map key) : (offer key take q a).length = q.length := by
  obtain ⟨as, c, bs, rfl, -, hoffer⟩ := offer_of_mem take h
  simp [hoffer]

/-- What is read of the entries may be put in in their place. -/
theorem map_offer {key' : β → K} {take' : β → β → β} {f : α → β} (hkey : ∀ b, key' (f b) = key b)
    (htake : ∀ b, f (take b a) = take' (f b) (f a)) (q : List α) :
    (offer key take q a).map f = offer key' take' (q.map f) (f a) := by
  have hkeys : (q.map f).map key' = q.map key := by
    rw [List.map_map]
    exact List.map_congr_left fun b _ => hkey b
  unfold offer
  rw [hkeys, hkey]
  split
  · exact FirstMatch.map_update_map (fun b => by rw [hkey]) htake q
  · rw [List.map_append, List.map_singleton]

theorem eq_beq_key {p : α → Bool} (hp : ∀ b, p b = true ↔ key b = key a) :
    p = fun b => key b == key a :=
  funext fun b => Bool.eq_iff_iff.mpr ((hp b).trans beq_iff_eq.symm)

/-- Looking for the entry of the key and changing it at the index that was found. -/
theorem modify_eq_offer {p : α → Bool} (hp : ∀ b, p b = true ↔ key b = key a) {k : Nat}
    (h : q.findIdx? p = some k) : q.modify k (fun b => take b a) = offer key take q a := by
  rw [eq_beq_key hp] at h
  have hmem : key a ∈ q.map key := by
    obtain ⟨hk, hkey, -⟩ := List.findIdx?_eq_some_iff_getElem.mp h
    exact List.mem_map.mpr ⟨q[k], List.getElem_mem hk, by simpa using hkey⟩
  rw [offer, if_pos hmem]
  exact FirstMatch.modify_eq_update h

theorem append_eq_offer {p : α → Bool} (hp : ∀ b, p b = true ↔ key b = key a)
    (h : q.findIdx? p = none) : q ++ [a] = offer key take q a := by
  rw [eq_beq_key hp] at h
  have hnot : key a ∉ q.map key := by
    intro hmem
    obtain ⟨b, hb, hkey⟩ := List.mem_map.mp hmem
    simpa [hkey] using List.findIdx?_eq_none_iff.mp h b hb
  exact (offer_of_not_mem hnot).symm

end Coalesce
