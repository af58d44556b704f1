import TokenBridge.Proofs.Batch.Totals
import TokenBridge.Proofs.Bridge.Run

namespace TokenBridge

namespace Executor

variable {x x' : Executor} {registry : Registry} {batch : Batch} {signatures : SignatureSet}
  {funds funds' : Balances} {custodian relayer : Address}

theorem balance_of_execute
    (h : x.execute registry batch signatures funds custodian relayer = (.ok (), x', funds'))
    {holder : Address} (hne : holder ≠ custodian) :
    (funds'.balance batch.token holder).toNat =
      (funds.balance batch.token holder).toNat + batch.receipts relayer holder := by
  obtain ⟨_, _, ⟨fee, hfee, moved⟩, _⟩ := execute_eq_ok_iff.1 h
  have hbalance := Balances.balance_transferAll moved holder
  rwa [if_neg hne, Nat.add_zero, Batch.received_transfers hfee] at hbalance

/-- What the custodian is paid by its own batch is set off against what it pays. -/
theorem balance_custodian_of_execute
    (h : x.execute registry batch signatures funds custodian relayer = (.ok (), x', funds')) :
    (funds'.balance batch.token custodian).toNat + batch.paidOut custodian relayer =
      (funds.balance batch.token custodian).toNat := by
  obtain ⟨_, _, ⟨fee, hfee, moved⟩, _⟩ := execute_eq_ok_iff.1 h
  have hbalance := Balances.balance_transferAll moved custodian
  have hsent := Batch.sent_transfers hfee relayer custodian
  rw [if_pos rfl] at hbalance
  omega

theorem balance_of_execute_of_ne
    (h : x.execute registry batch signatures funds custodian relayer = (.ok (), x', funds'))
    {token : Address} (ht : token ≠ batch.token) (holder : Address) :
    funds'.balance token holder = funds.balance token holder := by
  obtain ⟨_, _, ⟨fee, _, moved⟩, _⟩ := execute_eq_ok_iff.1 h
  exact Balances.balance_transferAll_of_ne moved ht holder

/-- A batch that is executed leaves everyone with just what it says, whoever is the custodian, the
relayer or a destination of how many payouts: others have what it brings them on top of what they
had, and the custodian has what is left. Nothing changes for other tokens. -/
theorem settlement_exact
    (h : x.execute registry batch signatures funds custodian relayer = (.ok (), x', funds')) :
    (∀ holder, holder ≠ custodian → (funds'.balance batch.token holder).toNat =
      (funds.balance batch.token holder).toNat + batch.receipts relayer holder) ∧
    (funds'.balance batch.token custodian).toNat + batch.paidOut custodian relayer =
      (funds.balance batch.token custodian).toNat ∧
    (∀ token holder, token ≠ batch.token →
      funds'.balance token holder = funds.balance token holder) ∧
    x'.lastNonce batch.token = batch.nonce ∧
    ∀ token, token ≠ batch.token → x'.lastNonce token = x.lastNonce token := by
  obtain ⟨_, _, _, rfl⟩ := execute_eq_ok_iff.1 h
  refine ⟨fun holder ↦ balance_of_execute h, balance_custodian_of_execute h,
    fun token holder ht ↦ balance_of_execute_of_ne h ht holder, lastNonce_advance_self x batch, ?_⟩
  intro token ht
  exact lastNonce_advance_of_ne x ht.symm

open Bridge

/-- Here the relayer is paid as a destination, too. -/
theorem settlement_exact_ferry :
    ∃ (registry : Registry) (x' : Executor) (funds' : Balances),
      empty.execute registry ferryBatch ferrySignatures ferryFunds (FixedBytes.ofNat 20 0xbb)
        (FixedBytes.ofNat 20 0x21) = (.ok (), x', funds') ∧
      (funds'.balance ferryToken (FixedBytes.ofNat 20 0x21)).toNat = 32 ∧
      (funds'.balance ferryToken (FixedBytes.ofNat 20 0xbb)).toNat + 32 = 100 ∧
      funds'.balance ferryman ferryman = .zero ∧
      x'.lastNonce ferryToken = 5 ∧ x'.lastNonce ferryman = 0 := by
  have executed : empty.execute (.genesis ferryId .default ferryCrew) ferryBatch ferrySignatures
      ferryFunds (FixedBytes.ofNat 20 0xbb) (FixedBytes.ofNat 20 0x21) = (.ok (), _, _) :=
    execute_eq_ok_iff.2 ⟨by decide, ferry_approved,
      ⟨⟨2, by decide⟩, Batch.totalFee_eq_ok_iff.2 rfl, rfl⟩, rfl⟩
  obtain ⟨others, left, elsewhere, nonce, nonces⟩ := settlement_exact executed
  refine ⟨_, _, _, executed, others _ (by decide), left, ?_, nonce, ?_⟩
  · exact elsewhere ferryman ferryman (by decide)
  · exact nonces ferryman (by decide)

end Executor

end TokenBridge
