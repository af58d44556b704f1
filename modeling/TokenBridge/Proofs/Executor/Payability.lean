import Mathlib.Algebra.Order.BigOperators.Group.List
import Mathlib.Algebra.Order.Ring.Nat
import TokenBridge.Proofs.Executor.Settlement

namespace TokenBridge

namespace Batch

/-- What it takes to pay a batch out of an account, if none of its destinations is that account. -/
structure Affordable (batch : Batch) (funds : Balances) (custodian relayer : Address) : Prop where
  fees_fit : (batch.payouts.map (·.fee.toNat)).sum < UInt256.size
  destinations_ne : ∀ p ∈ batch.payouts, p.destination.isZero = false
  relayer_ne : relayer.isZero = false ∨ (batch.payouts.map (·.fee.toNat)).sum = 0
  covered : batch.cost ≤ (funds.balance batch.token custodian).toNat
  room : ∀ holder, holder ≠ custodian →
    (funds.balance batch.token holder).toNat + batch.receipts relayer holder < UInt256.size

variable {batch : Batch} {payouts : List Payout} {funds : Balances} {custodian relayer : Address}

/-- The relayer is paid last, and so is the only one who can be the custodian. -/
theorem recipient_ne_custodian (others : ∀ p ∈ batch.payouts, p.destination ≠ custodian)
    (relayer : Address) (fee : UInt256) :
    ∀ t ∈ (batch.transfers relayer fee).dropLast, t.1 ≠ custodian := by
  have paid : ∀ t ∈ batch.payouts.map fun p ↦ (p.destination, p.amount), t.1 ≠ custodian := by
    simpa using others
  rw [transfers]
  split
  · rw [List.append_nil]
    exact fun t ht ↦ paid t (List.dropLast_subset _ ht)
  · rw [List.dropLast_concat]
    exact paid

theorem exists_transferAll_iff_affordable
    (others : ∀ p ∈ batch.payouts, p.destination ≠ custodian) :
    (∃ fee, batch.totalFee = .ok fee ∧ ∃ funds', Custody.transferAll funds batch.token custodian
      (batch.transfers relayer fee) = (.ok (), funds')) ↔
      batch.Affordable funds custodian relayer := by
  constructor
  · rintro ⟨fee, hfee, paid⟩
    obtain ⟨recipients, covered, room⟩ :=
      (Balances.exists_transferAll_iff (recipient_ne_custodian others relayer fee)).1 paid
    obtain ⟨destinations, hrelayer⟩ := (recipient_ne_zero_iff relayer).1 recipients
    rw [totalFee_eq_ok_iff.1 hfee] at hrelayer
    rw [sent_transfers_eq_cost hfee] at covered
    simp only [received_transfers hfee] at room
    exact ⟨exists_totalFee_iff.1 ⟨fee, hfee⟩, destinations, hrelayer, covered, room⟩
  · intro h
    obtain ⟨fee, hfee⟩ := exists_totalFee_iff.2 h.fees_fit
    have hrelayer := h.relayer_ne
    rw [← totalFee_eq_ok_iff.1 hfee] at hrelayer
    refine ⟨fee, hfee,
      (Balances.exists_transferAll_iff (recipient_ne_custodian others relayer fee)).2 ⟨?_, ?_, ?_⟩⟩
    · exact (recipient_ne_zero_iff relayer).2 ⟨h.destinations_ne, hrelayer⟩
    · rw [sent_transfers_eq_cost hfee]
      exact h.covered
    · simp only [received_transfers hfee]
      exact h.room

theorem receipts_le_cost (batch : Batch) (relayer holder : Address) :
    batch.receipts relayer holder ≤ batch.cost := by
  have amounts : ((batch.payouts.filter (·.destination = holder)).map (·.amount.toNat)).sum ≤
      (batch.payouts.map (·.amount.toNat)).sum :=
    (List.filter_sublist.map _).sum_le_sum fun _ _ ↦ Nat.zero_le _
  rw [receipts, cost]
  split
  · exact Nat.add_le_add_right amounts _
  · exact Nat.add_le_add amounts (Nat.zero_le _)

section Reordered

variable (reordered : payouts.Perm batch.payouts)

include reordered

theorem cost_perm : cost { batch with payouts } = batch.cost := by
  rw [cost, cost, (reordered.map _).sum_eq, (reordered.map _).sum_eq]

theorem receipts_perm (relayer holder : Address) :
    receipts { batch with payouts } relayer holder = batch.receipts relayer holder := by
  rw [receipts, receipts, ((reordered.filter _).map _).sum_eq, (reordered.map _).sum_eq]

theorem paidOut_perm (account relayer : Address) :
    paidOut { batch with payouts } account relayer = batch.paidOut account relayer := by
  rw [paidOut, paidOut, ((reordered.filter _).map _).sum_eq, (reordered.map _).sum_eq]

theorem affordable_perm :
    Affordable { batch with payouts } funds custodian relayer ↔
      batch.Affordable funds custodian relayer := by
  have fees : (payouts.map (·.fee.toNat)).sum = (batch.payouts.map (·.fee.toNat)).sum :=
    (reordered.map _).sum_eq
  constructor
  · rintro ⟨fits, destinations, hrelayer, covered, room⟩
    rw [cost_perm reordered] at covered
    simp only [receipts_perm reordered] at room
    exact ⟨fees ▸ fits, fun p hp ↦ destinations p (reordered.mem_iff.2 hp), fees ▸ hrelayer,
      covered, room⟩
  · rintro ⟨fits, destinations, hrelayer, covered, room⟩
    refine ⟨fees.symm ▸ fits, fun p hp ↦ destinations p (reordered.mem_iff.1 hp),
      fees.symm ▸ hrelayer, ?_, ?_⟩
    · rwa [cost_perm reordered]
    · simpa only [receipts_perm reordered] using room

end Reordered

end Batch

namespace Executor

variable {x x₁ x₂ : Executor} {registry : Registry} {batch : Batch}
  {signatures signatures' : SignatureSet} {payouts : List Payout} {funds funds₁ funds₂ : Balances}
  {custodian relayer : Address}

theorem exists_execute_iff (others : ∀ p ∈ batch.payouts, p.destination ≠ custodian)
    (fresh : x.lastNonce batch.token < batch.nonce)
    (approved : ∃ power,
      registry.verify signatures (batch.signingDigest registry.bridgeId) = .ok power) :
    (∃ x' funds',
      x.execute registry batch signatures funds custodian relayer = (.ok (), x', funds')) ↔
      batch.Affordable funds custodian relayer := by
  rw [← Batch.exists_transferAll_iff_affordable others]
  constructor
  · rintro ⟨x', funds', h⟩
    obtain ⟨_, _, ⟨fee, hfee, moved⟩, _⟩ := execute_eq_ok_iff.1 h
    exact ⟨fee, hfee, funds', moved⟩
  · rintro ⟨fee, hfee, funds', moved⟩
    exact ⟨_, funds', execute_eq_ok_iff.2 ⟨fresh, approved, ⟨fee, hfee, moved⟩, rfl⟩⟩

theorem balance_of_execute_perm (reordered : payouts.Perm batch.payouts)
    (h₁ : x.execute registry batch signatures funds custodian relayer = (.ok (), x₁, funds₁))
    (h₂ : x.execute registry { batch with payouts } signatures' funds custodian relayer =
      (.ok (), x₂, funds₂)) (token holder : Address) :
    funds₂.balance token holder = funds₁.balance token holder := by
  by_cases ht : token = batch.token
  · subst ht
    apply UInt256.ext
    by_cases hc : holder = custodian
    · subst hc
      have left₁ := balance_custodian_of_execute h₁
      have left₂ := balance_custodian_of_execute h₂
      rw [Batch.paidOut_perm reordered] at left₂
      exact Nat.add_right_cancel (left₂.trans left₁.symm)
    · have paid₁ := balance_of_execute h₁ hc
      have paid₂ := balance_of_execute h₂ hc
      rw [Batch.receipts_perm reordered] at paid₂
      exact paid₂.trans paid₁.symm
  · rw [balance_of_execute_of_ne h₁ ht, balance_of_execute_of_ne h₂ ht]

/-- A new batch that is signed, and pays nothing to the custodian, is executed just if the custodian
can afford it. In which order its payouts stand makes no difference, to that and to what everyone has
in the end. -/
theorem payable_iff (others : ∀ p ∈ batch.payouts, p.destination ≠ custodian)
    (fresh : x.lastNonce batch.token < batch.nonce)
    (approved : ∃ power,
      registry.verify signatures (batch.signingDigest registry.bridgeId) = .ok power) :
    ((∃ x' funds',
      x.execute registry batch signatures funds custodian relayer = (.ok (), x', funds')) ↔
      batch.Affordable funds custodian relayer) ∧
    ∀ payouts signatures', payouts.Perm batch.payouts →
      (∃ power, registry.verify signatures'
        (Batch.signingDigest { batch with payouts } registry.bridgeId) = .ok power) →
      ((∃ x' funds', x.execute registry { batch with payouts } signatures' funds custodian relayer =
          (.ok (), x', funds')) ↔
        ∃ x' funds',
          x.execute registry batch signatures funds custodian relayer = (.ok (), x', funds')) ∧
      ∀ x₁ x₂ funds₁ funds₂,
        x.execute registry batch signatures funds custodian relayer = (.ok (), x₁, funds₁) →
        x.execute registry { batch with payouts } signatures' funds custodian relayer =
          (.ok (), x₂, funds₂) →
        x₂ = x₁ ∧ ∀ token holder, funds₂.balance token holder = funds₁.balance token holder := by
  refine ⟨exists_execute_iff others fresh approved, ?_⟩
  intro payouts signatures' reordered approved'
  have others' : ∀ p ∈ payouts, p.destination ≠ custodian :=
    fun p hp ↦ others p (reordered.mem_iff.1 hp)
  constructor
  · rw [exists_execute_iff others fresh approved, ← Batch.affordable_perm reordered]
    exact exists_execute_iff others' fresh approved'
  · intro x₁ x₂ funds₁ funds₂ h₁ h₂
    obtain ⟨_, _, _, rfl⟩ := execute_eq_ok_iff.1 h₁
    obtain ⟨_, _, _, rfl⟩ := execute_eq_ok_iff.1 h₂
    exact ⟨rfl, balance_of_execute_perm reordered h₁ h₂⟩

open Bridge

def ferryPair : List Payout :=
  ferryBatch.payouts ++ [⟨FixedBytes.ofNat 20 0x22, ⟨40, by decide⟩, ⟨3, by decide⟩⟩]

def ferryPairSignatures : SignatureSet :=
  ⟨[some ⟨ferryman, {
    r := FixedBytes.ofNat 32 0x837174dba91219ff23484e269d1661bf90f9b77360088b079730d38d8da2bcd8
    s := FixedBytes.ofNat 32 0x75da39e8cd6618731cd41acd4d590b0438963828ece05677ed4bc097921c3e49
    v := 27 }⟩]⟩

def ferryTurnedSignatures : SignatureSet :=
  ⟨[some ⟨ferryman, {
    r := FixedBytes.ofNat 32 0x22c070015788ba106659b56f46d941c17198bcdf92a598261b04d4f65477acd1
    s := FixedBytes.ofNat 32 0x29df6ba90cb35e261fa0f8811ab74801d2f24851c350a392ebfac2b0a611b8a5
    v := 28 }⟩]⟩

/-- The pair is paid out of what there is, whoever of the two comes first, and not out of nothing. -/
theorem payable_iff_ferry :
    let registry := Registry.genesis ferryId .default ferryCrew
    let batch : Batch := ⟨ferryToken, ferryPair, 5⟩
    let turned : Batch := ⟨ferryToken, ferryPair.reverse, 5⟩
    let custodian := FixedBytes.ofNat 20 0xbb
    let relayer := FixedBytes.ofNat 20 0x33
    (¬ ∃ x' funds', empty.execute registry batch ferryPairSignatures Balances.empty custodian
        relayer = (.ok (), x', funds')) ∧
      ∃ x' funds₁ funds₂,
        empty.execute registry batch ferryPairSignatures ferryFunds custodian relayer =
          (.ok (), x', funds₁) ∧
        empty.execute registry turned ferryTurnedSignatures ferryFunds custodian relayer =
          (.ok (), x', funds₂) ∧
        ∀ token holder, funds₂.balance token holder = funds₁.balance token holder := by
  intro registry batch turned custodian relayer
  have approved : ∃ power, registry.verify ferryPairSignatures
      (batch.signingDigest registry.bridgeId) = .ok power :=
    isSome_toOption_iff.1 (by decide +kernel)
  have approved' : ∃ power, registry.verify ferryTurnedSignatures
      (turned.signingDigest registry.bridgeId) = .ok power :=
    isSome_toOption_iff.1 (by decide +kernel)
  have others : ∀ p ∈ batch.payouts, p.destination ≠ custodian := by decide
  have fresh : empty.lastNonce batch.token < batch.nonce := by decide
  have affordable : batch.Affordable ferryFunds custodian relayer := by
    refine ⟨by decide, by decide, .inl (by decide), by decide, ?_⟩
    intro holder hne
    rw [ferryFunds, Balances.balance_set_of_ne _ fun h ↦ hne (Prod.mk.inj h).2]
    exact Nat.lt_of_le_of_lt (Nat.add_le_add_left (batch.receipts_le_cost relayer holder) 0)
      (by decide)
  obtain ⟨paid, orderless⟩ := payable_iff others fresh approved
  obtain ⟨x₁, funds₁, h₁⟩ := paid.2 affordable
  obtain ⟨same, agree⟩ := orderless _ _ ferryPair.reverse_perm approved'
  obtain ⟨x₂, funds₂, h₂⟩ := same.2 ⟨x₁, funds₁, h₁⟩
  obtain ⟨rfl, balances⟩ := agree _ _ _ _ h₁ h₂
  refine ⟨?_, x₂, funds₁, funds₂, h₁, h₂, balances⟩
  intro executed
  have poor := (payable_iff others fresh approved).1.1 executed
  exact absurd poor.covered (by decide)

end Executor

end TokenBridge
