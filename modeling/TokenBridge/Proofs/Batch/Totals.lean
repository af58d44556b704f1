import TokenBridge.Executor
import TokenBridge.Proofs.Custody.Transfers

namespace TokenBridge.Batch

/-- What a batch takes from an account for good, with the fees, which go to the relayer. -/
def paidOut (batch : Batch) (account relayer : Address) : Nat :=
  ((batch.payouts.filter (·.destination ≠ account)).map (·.amount.toNat)).sum +
    if relayer = account then 0 else (batch.payouts.map (·.fee.toNat)).sum

def cost (batch : Batch) : Nat :=
  (batch.payouts.map (·.amount.toNat)).sum + (batch.payouts.map (·.fee.toNat)).sum

/-- What a batch brings a holder: all amounts for it, and all fees if it is the relayer. -/
def receipts (batch : Batch) (relayer holder : Address) : Nat :=
  ((batch.payouts.filter (·.destination = holder)).map (·.amount.toNat)).sum +
    if holder = relayer then (batch.payouts.map (·.fee.toNat)).sum else 0

variable {batch : Batch} {fee : UInt256}

theorem totalFee_eq_ok_iff :
    batch.totalFee = .ok fee ↔ fee.toNat = (batch.payouts.map (·.fee.toNat)).sum := by
  have h : UInt256.sum? (batch.payouts.map (·.fee)) = some fee ↔
      fee.toNat = ((batch.payouts.map (·.fee)).map UInt256.toNat).sum := UInt256.sum?_eq_some_iff
  rw [List.map_map] at h
  refine Iff.trans ?_ h
  unfold totalFee
  cases UInt256.sum? (batch.payouts.map (·.fee)) <;> simp

theorem exists_totalFee_iff :
    (∃ fee, batch.totalFee = .ok fee) ↔ (batch.payouts.map (·.fee.toNat)).sum < UInt256.size := by
  simp only [totalFee_eq_ok_iff]
  constructor
  · rintro ⟨fee, h⟩
    exact h ▸ fee.toNat_lt
  · intro h
    exact ⟨⟨_, h⟩, rfl⟩

theorem recipient_ne_zero_iff (relayer : Address) :
    (∀ t ∈ batch.transfers relayer fee, t.1.isZero = false) ↔
      (∀ p ∈ batch.payouts, p.destination.isZero = false) ∧
        (relayer.isZero = false ∨ fee.toNat = 0) := by
  have zero : fee = .zero ↔ fee.toNat = 0 := UInt256.ext_iff
  rw [transfers, List.forall_mem_append, List.forall_mem_map, ← zero]
  by_cases h : fee = .zero <;> simp [h]

theorem sent_payouts (payouts : List Payout) (account : Address) :
    sent (payouts.map fun p ↦ (p.destination, p.amount)) =
      received account (payouts.map fun p ↦ (p.destination, p.amount)) +
        ((payouts.filter (·.destination ≠ account)).map (·.amount.toNat)).sum := by
  induction payouts with
  | nil => rfl
  | cons p rest ih =>
    rw [List.map_cons, sent, received, ih]
    by_cases h : p.destination = account
    · rw [List.filter_cons_of_neg (by simp [h]), if_pos h.symm]
      omega
    · rw [List.filter_cons_of_pos (by simp [h]), if_neg (Ne.symm h), List.map_cons, List.sum_cons]
      omega

theorem sent_fee (relayer account : Address) (fee : UInt256) :
    sent (if fee = .zero then [] else [(relayer, fee)]) =
      received account (if fee = .zero then [] else [(relayer, fee)]) +
        if relayer = account then 0 else fee.toNat := by
  by_cases hz : fee = .zero
  · subst hz
    simp [sent, received, UInt256.zero]
  · rw [if_neg hz, sent, received, sent, received]
    by_cases hr : relayer = account
    · rw [if_pos hr, if_pos hr.symm, Nat.add_zero]
    · rw [if_neg hr, if_neg (Ne.symm hr), Nat.zero_add, Nat.add_zero]

theorem sent_transfers (h : batch.totalFee = .ok fee) (relayer account : Address) :
    sent (batch.transfers relayer fee) =
      received account (batch.transfers relayer fee) + batch.paidOut account relayer := by
  rw [transfers, sent_append, received_append, sent_payouts _ account, sent_fee relayer account,
    paidOut, ← totalFee_eq_ok_iff.1 h]
  omega

theorem sent_transfers_eq_cost (h : batch.totalFee = .ok fee) (relayer : Address) :
    sent (batch.transfers relayer fee) = batch.cost := by
  have amounts (payouts : List Payout) :
      sent (payouts.map fun p ↦ (p.destination, p.amount)) =
        (payouts.map (·.amount.toNat)).sum := by
    induction payouts with
    | nil => rfl
    | cons p rest ih => rw [List.map_cons, sent, ih, List.map_cons, List.sum_cons]
  have fees : sent (if fee = .zero then [] else [(relayer, fee)]) = fee.toNat := by
    by_cases hz : fee = .zero
    · rw [if_pos hz, hz]
      rfl
    · rw [if_neg hz]
      rfl
  rw [transfers, sent_append, amounts, fees, cost, totalFee_eq_ok_iff.1 h]

theorem paidOut_le_cost (h : batch.totalFee = .ok fee) (account relayer : Address) :
    batch.paidOut account relayer ≤ batch.cost := by
  have hsent := sent_transfers h relayer account
  rw [sent_transfers_eq_cost h] at hsent
  omega

theorem received_payouts (payouts : List Payout) (holder : Address) :
    received holder (payouts.map fun p ↦ (p.destination, p.amount)) =
      ((payouts.filter (·.destination = holder)).map (·.amount.toNat)).sum := by
  induction payouts with
  | nil => rfl
  | cons p rest ih =>
    rw [List.map_cons, received, ih]
    by_cases h : p.destination = holder
    · rw [List.filter_cons_of_pos (by simp [h]), if_pos h.symm, List.map_cons, List.sum_cons]
    · rw [List.filter_cons_of_neg (by simp [h]), if_neg (Ne.symm h), Nat.zero_add]

theorem received_fee (relayer holder : Address) (fee : UInt256) :
    received holder (if fee = .zero then [] else [(relayer, fee)]) =
      if holder = relayer then fee.toNat else 0 := by
  by_cases hz : fee = .zero
  · subst hz
    simp [received, UInt256.zero]
  · rw [if_neg hz, received, received, Nat.add_zero]

theorem received_transfers (h : batch.totalFee = .ok fee) (relayer holder : Address) :
    received holder (batch.transfers relayer fee) = batch.receipts relayer holder := by
  rw [transfers, received_append, received_payouts, received_fee, receipts,
    ← totalFee_eq_ok_iff.1 h]

end TokenBridge.Batch
