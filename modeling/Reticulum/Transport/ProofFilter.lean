import Reticulum.Transport.ReceiptList

/-!
# The candidates of a proof

A proof that is validated against its candidates only has the effect of one that is
validated against every receipt. An explicit proof names the hash of its packet, and an
implicit one is a signature that is valid for one hash and addressed to it.
-/

namespace Reticulum.Receipt.Tracking

variable {F K : Type*} {c : Crypto} {s : Core F K} {inner : Inner F K} {proof : Bytes}
  {addressed : Option Bytes} {r : Tracked} {now : F}

/-- An implicit proof with an address is a signature for one hash, and the address is the
truncated one. -/
def AddressedToProved (c : Crypto) (proof : Bytes) (addressed : Option Bytes) : Prop :=
  proof.length = implLength → ∀ address, addressed = some address →
    ∃ hash : Bytes, address = hash.take 16 ∧
      ∀ key data, c.verify key proof data = true → data = hash

theorem provable_iff : provable inner = true ↔ inner.status = .sent ∨ inner.status = .failed := by
  simp [provable]

/-- A receipt that is not provable stays as it is. -/
theorem markDelivered_of_not_provable (h : provable inner = false) :
    markDelivered inner now = (false, inner) := by
  have hstatus : ¬ (inner.status = .sent ∨ inner.status = .failed) := by
    rw [← provable_iff, h]
    exact Bool.false_ne_true
  exact if_pos (not_or.mp hstatus)

theorem markDelivered_of_provable (h : provable inner = true) :
    (markDelivered inner now).1 = true ∧ (markDelivered inner now).2.status = .delivered := by
  have hstatus : ¬ (inner.status ≠ .sent ∧ inner.status ≠ .failed) := by
    rcases provable_iff.mp h with h | h
    · exact fun hne => hne.1 h
    · exact fun hne => hne.2 h
  rw [markDelivered, if_neg hstatus]
  exact ⟨rfl, rfl⟩

theorem validateProof_of_not_provable (h : provable inner = false) :
    validateProof c r.receipt proof inner now = (false, inner) := by
  have hcases : validateProof c r.receipt proof inner now = markDelivered inner now ∨ _ :=
    validateProof_cases proof now
  rcases hcases with heq | heq
  · rw [heq, markDelivered_of_not_provable h]
  · exact heq

/-- A signature that is valid for one hash is valid for no other, with either variant of a
key. -/
theorem eq_of_validateWithIdentityVariants {publicKey data hash : Bytes}
    (hsig : ∀ key data, c.verify key proof data = true → data = hash)
    (h : validateWithIdentityVariants c publicKey proof data = true) : data = hash := by
  simp only [validateWithIdentityVariants, Link.validate, Bool.or_eq_true,
    decide_eq_true_eq] at h
  rcases h with h | h
  · exact hsig _ _ h.2
  · exact hsig _ _ h.2.2.2

/-- A proof does nothing to a receipt that it cannot be for. -/
theorem validateProof_of_not_proofFor (hproof : AddressedToProved c proof addressed)
    (h : proofFor proof addressed r = false) :
    validateProof c r.receipt proof inner now = (false, inner) := by
  unfold proofFor at h
  unfold validateProof
  cases r.receipt.identity with
  | none => rfl
  | some publicKey =>
      dsimp only
      split
      · rename_i hlength
        rw [if_pos hlength] at h
        have hne : ¬ proof.take 32 = r.receipt.hash := fun heq => by
          rw [heq, beq_self_eq_true] at h
          cases h
        rw [if_neg fun hand => hne hand.1]
      · rename_i hlength
        rw [if_neg hlength] at h
        split
        · rename_i himplicit
          rw [if_neg]
          intro hvalid
          cases haddressed : addressed with
          | none =>
              rw [haddressed] at h
              cases h
          | some address =>
              obtain ⟨hash, haddress, hsig⟩ := hproof himplicit address haddressed
              have heq := eq_of_validateWithIdentityVariants hsig hvalid
              rw [haddressed, Option.all_some, beq_eq_false_iff_ne] at h
              exact h (by rw [r.truncated_eq, heq, haddress])
        · rfl

/-- A proof marks the receipt delivered, or does nothing. -/
theorem ProofKind.validate_cases (kind : ProofKind) (receipt : PacketReceipt) :
    kind.validate c receipt proof inner now = markDelivered inner now ∨
      kind.validate c receipt proof inner now = (false, inner) := by
  cases kind with
  | plain => exact validateProof_cases proof now
  | link validate => exact validateLinkProofWith_cases proof validate now

/-- What an accepted proof leaves behind. -/
theorem ProofKind.validate_fst {kind : ProofKind} {receipt : PacketReceipt}
    (h : (kind.validate c receipt proof inner now).1 = true) :
    provable inner = true ∧ (kind.validate c receipt proof inner now).2.status = .delivered := by
  rcases kind.validate_cases (c := c) receipt with heq | heq
  · rw [heq] at h ⊢
    have hprovable : provable inner = true := by
      by_contra hnot
      rw [markDelivered_of_not_provable (Bool.eq_false_of_not_eq_true hnot)] at h
      cases h
    exact ⟨hprovable, (markDelivered_of_provable hprovable).2⟩
  · rw [heq] at h
    cases h

theorem ProofKind.validate_snd {kind : ProofKind} {receipt : PacketReceipt}
    (h : (kind.validate c receipt proof inner now).1 = false) :
    (kind.validate c receipt proof inner now).2 = inner := by
  rcases kind.validate_cases (c := c) receipt with heq | heq
  · rw [heq] at h ⊢
    have hprovable : provable inner = false := by
      by_contra hnot
      rw [(markDelivered_of_provable (Bool.eq_true_of_not_eq_false hnot)).1] at h
      cases h
    rw [markDelivered_of_not_provable hprovable]
  · rw [heq]

theorem put_self (s : Core F K) (cell : Nat) : s.put cell (s.cells cell) = s := by
  rw [Core.put, Function.update_eq_self]

/-- A candidate is delivered and forgotten, or nothing happens. -/
theorem concludeCandidate_cases (c : Crypto) (proof : Bytes) (now : F) (s : Core F K)
    (r : Tracked) :
    concludeCandidate c .plain proof now s r = s ∧
        (validateProof c r.receipt proof (s.cells r.cell) now).2 = s.cells r.cell ∨
    provable (s.cells r.cell) = true ∧
      (validateProof c r.receipt proof (s.cells r.cell) now).2.status = .delivered ∧
      concludeCandidate c .plain proof now s r =
        forget (s.put r.cell (validateProof c r.receipt proof (s.cells r.cell) now).2) r.cell := by
  unfold concludeCandidate validateCandidate
  cases hprovable : provable (s.cells r.cell) with
  | false =>
      rw [validateProof_of_not_provable hprovable]
      exact .inl ⟨rfl, rfl⟩
  | true =>
      change _ ∧ (ProofKind.plain.validate c r.receipt proof (s.cells r.cell) now).2 = _ ∨
        _ ∧ (ProofKind.plain.validate c r.receipt proof (s.cells r.cell) now).2.status = _ ∧ _
      simp only [if_true]
      cases hfst : (ProofKind.plain.validate c r.receipt proof (s.cells r.cell) now).1 with
      | true => exact .inr ⟨trivial, (ProofKind.validate_fst hfst).2, rfl⟩
      | false =>
          rw [ProofKind.validate_snd hfst]
          exact .inl ⟨put_self s r.cell, rfl⟩

/-- Cells change only from provable to delivered. -/
def Delivers (cells cells' : Nat → Inner F K) : Prop :=
  ∀ cell, cells' cell = cells cell ∨
    provable (cells cell) = true ∧ (cells' cell).status = .delivered

/-- The receipts that a change of cells has not delivered. -/
def undelivered (cells cells' : Nat → Inner F K) (r : Tracked) : Bool :=
  (cells' r.cell).status ≠ .delivered ∨ (cells r.cell).status = .delivered

theorem not_delivered_of_provable (h : provable inner = true) : inner.status ≠ .delivered := by
  intro hstatus
  rcases provable_iff.mp h with h | h
  · rw [hstatus] at h
    cases h
  · rw [hstatus] at h
    cases h

/-- After one candidate: the cells are those after `validate_proof`, and the list has lost what
was delivered. -/
theorem concludeCandidate_spec (s₀ : Core F K) (proof : Bytes) (r : Tracked) (now : F)
    (hcells : Delivers s₀.cells s.cells)
    (hlist : s.receipts = s₀.receipts.filter (undelivered s₀.cells s.cells)) :
    (concludeCandidate c .plain proof now s r).cells =
        Function.update s.cells r.cell
          (validateProof c r.receipt proof (s.cells r.cell) now).2 ∧
      Delivers s₀.cells (concludeCandidate c .plain proof now s r).cells ∧
      (concludeCandidate c .plain proof now s r).receipts = s₀.receipts.filter
        (undelivered s₀.cells (concludeCandidate c .plain proof now s r).cells) := by
  obtain ⟨heq, hsame⟩ | ⟨hprovable, hstatus, heq⟩ := concludeCandidate_cases c proof now s r
  · rw [heq, hsame, Function.update_eq_self]
    exact ⟨rfl, hcells, hlist⟩
  · generalize (validateProof c r.receipt proof (s.cells r.cell) now).2 = inner' at hstatus heq ⊢
    have hbefore : provable (s₀.cells r.cell) = true := by
      rcases hcells r.cell with h | ⟨h, -⟩
      · rwa [← h]
      · exact h
    rw [heq]
    refine ⟨rfl, fun cell => ?_, ?_⟩
    · change Function.update s.cells r.cell inner' cell = _ ∨ _ ∧ _
      by_cases hcell : cell = r.cell
      · subst hcell
        change _ ∨ _ ∧ (Function.update s.cells r.cell inner' r.cell).status = .delivered
        rw [Function.update_self]
        exact .inr ⟨hbefore, hstatus⟩
      · change _ ∨ _ ∧ (Function.update s.cells r.cell inner' cell).status = .delivered
        rw [Function.update_of_ne hcell]
        exact hcells cell
    · change s.receipts.filter (fun r' => r'.cell != r.cell) = s₀.receipts.filter
        (undelivered s₀.cells (Function.update s.cells r.cell inner'))
      rw [hlist, List.filter_filter]
      refine List.filter_congr fun r' _ => ?_
      unfold undelivered
      by_cases hcell : r'.cell = r.cell
      · rw [hcell, Function.update_self, hstatus]
        simp [not_delivered_of_provable hbefore]
      · rw [Function.update_of_ne hcell]
        simp [hcell]

/-- The same for a row of receipts: those that are no candidates are passed over on one side,
and nothing happens to them on the other. -/
theorem concludeProvedReceipts_spec (s₀ : Core F K) (hproof : AddressedToProved c proof addressed)
    (receipts : List Tracked) (hcells : Delivers s₀.cells s.cells)
    (hlist : s.receipts = s₀.receipts.filter (undelivered s₀.cells s.cells)) :
    (concludeProvedReceipts c .plain proof now s (receipts.filter fun r =>
        proofFor proof addressed r && provable (s₀.cells r.cell))).cells =
        validateAll c proof now s.cells receipts ∧
      Delivers s₀.cells (validateAll c proof now s.cells receipts) ∧
      (concludeProvedReceipts c .plain proof now s (receipts.filter fun r =>
        proofFor proof addressed r && provable (s₀.cells r.cell))).receipts =
        s₀.receipts.filter (undelivered s₀.cells (validateAll c proof now s.cells receipts)) := by
  induction receipts generalizing s with
  | nil => exact ⟨rfl, hcells, hlist⟩
  | cons r receipts ih =>
      by_cases hcandidate : (proofFor proof addressed r && provable (s₀.cells r.cell)) = true
      · rw [List.filter_cons_of_pos
          (p := fun r => proofFor proof addressed r && provable (s₀.cells r.cell)) hcandidate]
        obtain ⟨hupdate, hcells', hlist'⟩ :=
          concludeCandidate_spec (c := c) s₀ proof r now hcells hlist
        have hrest := ih hcells' hlist'
        rw [hupdate] at hrest
        exact hrest
      · rw [List.filter_cons_of_neg
          (p := fun r => proofFor proof addressed r && provable (s₀.cells r.cell)) hcandidate]
        have hsame : (validateProof c r.receipt proof (s.cells r.cell) now).2 =
            s.cells r.cell := by
          rw [Bool.and_eq_true, not_and_or] at hcandidate
          rcases hcandidate with h | h
          · rw [validateProof_of_not_proofFor hproof (Bool.eq_false_of_not_eq_true h)]
          · have hnot : provable (s.cells r.cell) = false := by
              rcases hcells r.cell with heq | ⟨heq, -⟩
              · rw [heq]
                exact Bool.eq_false_of_not_eq_true h
              · exact absurd heq h
            rw [validateProof_of_not_provable hnot]
        have hall : validateAll c proof now s.cells (r :: receipts) =
            validateAll c proof now s.cells receipts := by
          change validateAll c proof now (Function.update s.cells r.cell _) receipts = _
          rw [hsame, Function.update_eq_self]
        rw [hall]
        exact ih hcells hlist

/-- A proof that is validated against its candidates does to the state of every receipt what
`validate_proof` of all receipts does, and the list loses those that it has delivered. -/
theorem proof_filter (hproof : AddressedToProved c proof addressed) (s : Core F K) (now : F) :
    (concludeProvedReceipts c .plain proof now s (proofCandidates s proof addressed)).cells =
        validateAll c proof now s.cells s.receipts ∧
      Delivers s.cells (validateAll c proof now s.cells s.receipts) ∧
      (concludeProvedReceipts c .plain proof now s (proofCandidates s proof addressed)).receipts =
        s.receipts.filter
          (undelivered s.cells (validateAll c proof now s.cells s.receipts)) := by
  refine concludeProvedReceipts_spec s hproof s.receipts (fun cell => .inl rfl) ?_
  symm
  rw [List.filter_eq_self]
  intro r _
  unfold undelivered
  by_cases h : (s.cells r.cell).status = .delivered
  · simp [h]
  · simp [h]

end Reticulum.Receipt.Tracking
