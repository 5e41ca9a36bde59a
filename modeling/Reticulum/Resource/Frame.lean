import Reticulum.Resource.Operations

/-!
# What the operations leave alone

Most operations of a transfer touch the status, the window and the counters,
and leave the parts, the hashmap and the hashes of a resource as they are.
-/

namespace Reticulum.Resource

/-- Two resources with the same parts, packets, hashmap and hashes. -/
structure SameMap (r r' : Resource) : Prop where
  parts : r'.parts = r.parts
  packets : r'.packets = r.packets
  hashmap : r'.hashmap = r.hashmap
  hashmapHeight : r'.hashmapHeight = r.hashmapHeight
  randomHash : r'.randomHash = r.randomHash
  hash : r'.hash = r.hash

variable (r : Resource) (env : Readings)

namespace SameMap

theorem refl : SameMap r r := ⟨rfl, rfl, rfl, rfl, rfl, rfl⟩

theorem trans {r r' r'' : Resource} (h : SameMap r r') (h' : SameMap r' r'') : SameMap r r'' :=
  ⟨h'.parts.trans h.parts, h'.packets.trans h.packets, h'.hashmap.trans h.hashmap,
    h'.hashmapHeight.trans h.hashmapHeight, h'.randomHash.trans h.randomHash,
    h'.hash.trans h.hash⟩

end SameMap

/-- The packets of a transfer among the effects of an operation. -/
def Effect.isPacket : Effect → Bool
  | .part _ => true
  | .req _ => true
  | .hmu _ _ => true
  | _ => false

theorem cancel_eq : (r.cancel env).1 = { r with status := (r.cancel env).1.status } := by
  unfold cancel
  split
  · rfl
  · split <;> rfl

theorem cancel_sameMap : SameMap r (r.cancel env).1 := by
  rw [cancel_eq]
  exact ⟨rfl, rfl, rfl, rfl, rfl, rfl⟩

theorem cancel_effects : ∀ e ∈ (r.cancel env).2, e.isPacket = false := by
  intro e he
  unfold cancel at he
  split at he
  · simp only [List.mem_cons, List.not_mem_nil, or_false] at he
    rcases he with rfl | rfl | rfl | rfl <;> rfl
  · split at he
    · simp only [List.cons_append, List.mem_cons, List.mem_append] at he
      rcases he with rfl | he | he | he
      · rfl
      · split at he <;> simp_all [Effect.isPacket]
      · split at he <;> simp_all [Effect.isPacket]
      · split at he
        · simp only [List.mem_cons, List.not_mem_nil, or_false] at he
          rcases he with rfl | rfl <;> rfl
        · simp at he
    · obtain rfl : e = .cancelNext := by simpa using he
      rfl

theorem firstResponse_sameMap : SameMap r (r.firstResponse env) := by
  unfold firstResponse
  split
  · exact SameMap.refl r
  · dsimp only
    split <;> exact ⟨rfl, rfl, rfl, rfl, rfl, rfl⟩

theorem growWindow_sameMap : SameMap r r.growWindow := by
  unfold growWindow
  split
  · exact ⟨rfl, rfl, rfl, rfl, rfl, rfl⟩
  · exact SameMap.refl r

theorem measureRate_sameMap : SameMap r (r.measureRate env) := by
  unfold measureRate
  split
  · dsimp only
    split <;> split <;> exact ⟨rfl, rfl, rfl, rfl, rfl, rfl⟩
  · exact SameMap.refl r

theorem shrinkWindow_sameMap : SameMap r r.shrinkWindow := by
  unfold shrinkWindow
  split
  · dsimp only
    split
    · split <;> exact ⟨rfl, rfl, rfl, rfl, rfl, rfl⟩
    · exact ⟨rfl, rfl, rfl, rfl, rfl, rfl⟩
  · exact SameMap.refl r

theorem awaitProof_sameMap : SameMap r r.awaitProof := by
  unfold awaitProof
  split
  · exact ⟨rfl, rfl, rfl, rfl, rfl, rfl⟩
  · exact SameMap.refl r

theorem prepareRequestNextData_sameMap : SameMap r r.prepareRequestNextData.1 := by
  unfold prepareRequestNextData
  split
  · exact SameMap.refl r
  · dsimp only
    split
    · split <;> exact ⟨rfl, rfl, rfl, rfl, rfl, rfl⟩
    · exact ⟨rfl, rfl, rfl, rfl, rfl, rfl⟩

/-- A request that is sent is one that `prepare_request_next_data` builds. -/
theorem requestNext_spec :
    SameMap r (r.requestNext env).1 ∧
      ∀ e ∈ (r.requestNext env).2, e.isPacket = true →
        ∃ data, e = .req data ∧ r.prepareRequestNextData.2 = some data := by
  have hsame := prepareRequestNextData_sameMap r
  unfold requestNext
  split
  · rename_i r' hprep
    rw [hprep] at hsame
    exact ⟨hsame, by simp⟩
  · rename_i r' data hprep
    rw [hprep] at hsame
    split
    · refine ⟨hsame.trans ⟨rfl, rfl, rfl, rfl, rfl, rfl⟩, fun e he _ => ⟨data, ?_, ?_⟩⟩
      · simpa using he
      · rw [hprep]
    · refine ⟨hsame.trans (cancel_sameMap r' env), fun e he hpacket => ?_⟩
      rw [cancel_effects r' env e he] at hpacket
      cases hpacket

/-- The watchdog sends a request only from a resource with the same map that
is not waiting for a hashmap update any more. -/
theorem watchdog_spec :
    SameMap r (r.watchdog env).1 ∧
      ∀ e ∈ (r.watchdog env).2, e.isPacket = true →
        ∃ r' data, SameMap r r' ∧ e = .req data ∧
          r'.prepareRequestNextData.2 = some data := by
  have hcancel : ∀ r' : Resource, SameMap r r' → SameMap r (r'.cancel env).1 ∧
      ∀ e ∈ (r'.cancel env).2, e.isPacket = true →
        ∃ r'' data, SameMap r r'' ∧ e = .req data ∧
          r''.prepareRequestNextData.2 = some data := by
    intro r' hr'
    refine ⟨hr'.trans (cancel_sameMap r' env), fun e he hpacket => ?_⟩
    rw [cancel_effects r' env e he] at hpacket
    cases hpacket
  have hquiet : ∀ quiet : Effect, quiet.isPacket = false →
      ∀ e ∈ [quiet], e.isPacket = true →
        ∃ r'' data, SameMap r r'' ∧ e = .req data ∧
          r''.prepareRequestNextData.2 = some data := by
    intro quiet hquiet e he hpacket
    obtain rfl : e = quiet := by simpa using he
    rw [hquiet] at hpacket
    cases hpacket
  unfold watchdog
  split
  · exact ⟨SameMap.refl r, by simp⟩
  split
  · exact hcancel r (SameMap.refl r)
  split
  · exact ⟨SameMap.refl r, by simp⟩
  split
  · split
    · exact hcancel r (SameMap.refl r)
    · dsimp only
      split
      · exact ⟨⟨rfl, rfl, rfl, rfl, rfl, rfl⟩, hquiet .adv rfl⟩
      · exact hcancel _ ⟨rfl, rfl, rfl, rfl, rfl, rfl⟩
  · split
    · exact hcancel r (SameMap.refl r)
    · split
      · have hretry : SameMap r { r.shrinkWindow with
            retriesLeft := r.retriesLeft - 1, waitingForHmu := false } :=
          (shrinkWindow_sameMap r).trans ⟨rfl, rfl, rfl, rfl, rfl, rfl⟩
        obtain ⟨hsame, heffects⟩ := requestNext_spec { r.shrinkWindow with
          retriesLeft := r.retriesLeft - 1, waitingForHmu := false } env
        refine ⟨hretry.trans hsame, fun e he hpacket => ?_⟩
        obtain ⟨data, rfl, hdata⟩ := heffects e he hpacket
        exact ⟨_, data, hretry, rfl, hdata⟩
      · exact hcancel r (SameMap.refl r)
  · split
    · exact hcancel r (SameMap.refl r)
    · exact ⟨⟨rfl, rfl, rfl, rfl, rfl, rfl⟩, hquiet .cacheRequest rfl⟩
  · exact ⟨SameMap.refl r, by simp⟩

end Reticulum.Resource
