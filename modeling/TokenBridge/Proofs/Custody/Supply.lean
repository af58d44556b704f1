import TokenBridge.Proofs.Custody.Transfers
import TokenBridge.Proofs.Table

namespace TokenBridge

open Ranked (rank)

namespace Table

variable {κ ν : Type} [Ranked κ]

def total (count : κ × ν → Nat) (t : Table κ ν) : Nat := (t.entries.map count).sum

theorem sum_put (count : κ × ν → Nat) (k : κ) (v : ν) {entries : List (κ × ν)}
    (h : entries.Pairwise fun a b ↦ rank a.1 < rank b.1) :
    ((put k v entries).map count).sum + ((lookup k entries).map fun old ↦ count (k, old)).getD 0 =
      (entries.map count).sum + count (k, v) := by
  induction entries with
  | nil => simp [put, lookup]
  | cons e rest ih =>
    obtain ⟨he, hrest⟩ := List.pairwise_cons.1 h
    have later := ih hrest
    obtain ⟨key, value⟩ := e
    rw [put, lookup]
    by_cases hlt : rank k < rank key
    · have hnone : lookup k rest = none :=
        lookup_eq_none fun e' he' ↦ Nat.lt_trans hlt (he e' he')
      rw [if_pos hlt, if_neg (Nat.ne_of_gt hlt), hnone]
      simp only [List.map_cons, List.sum_cons, Option.map_none, Option.getD_none]
      omega
    · rw [if_neg hlt]
      by_cases heq : rank k = rank key
      · obtain rfl := Ranked.rank_injective heq
        rw [if_pos heq, if_pos rfl]
        simp only [List.map_cons, List.sum_cons, Option.map_some, Option.getD_some]
        omega
      · rw [if_neg heq, if_neg (Ne.symm heq)]
        simp only [List.map_cons, List.sum_cons]
        omega

theorem total_insert (t : Table κ ν) (count : κ × ν → Nat) (k : κ) (v : ν) :
    (t.insert k v).total count + ((t.get? k).map fun old ↦ count (k, old)).getD 0 =
      t.total count + count (k, v) := sum_put count k v t.sorted

end Table

namespace Balances

variable {b b' : Balances} {token sender recipient holder holder' : Address} {amount : UInt256}

def supply (b : Balances) (token : Address) : Nat :=
  b.table.total fun entry ↦ if entry.1.1 = token then entry.2.toNat else 0

theorem supply_set (b : Balances) (token holder : Address) (amount : UInt256) :
    (b.set token holder amount).supply token + (b.balance token holder).toNat =
      b.supply token + amount.toNat := by
  have h := b.table.total_insert (fun entry ↦ if entry.1.1 = token then entry.2.toNat else 0)
    (token, holder) amount
  have hbalance : (b.balance token holder).toNat =
      ((b.table.get? (token, holder)).map fun old ↦ old.toNat).getD 0 := by
    rw [balance]
    cases b.table.get? (token, holder) <;> rfl
  simp only [if_true] at h
  rw [hbalance]
  exact h

theorem balance_le_supply (b : Balances) (token holder : Address) :
    (b.balance token holder).toNat ≤ b.supply token := by
  have h := b.supply_set token holder .zero
  simp only [UInt256.zero] at h
  omega

/-- Two holders cannot have more than there is. -/
theorem balance_add_balance_le_supply (b : Balances) (token : Address) (h : holder ≠ holder') :
    (b.balance token holder).toNat + (b.balance token holder').toNat ≤ b.supply token := by
  have hempty := b.supply_set token holder .zero
  have hother := balance_le_supply (b.set token holder .zero) token holder'
  rw [balance_set_of_ne _ (by simp [h.symm])] at hother
  simp only [UInt256.zero] at hempty hother
  omega

theorem supply_transfer (h : b.transfer token sender recipient amount = (.ok (), b')) :
    b'.supply token = b.supply token := by
  obtain ⟨_, remaining, hsub, ⟨_, rfl⟩ | ⟨hne, credited, hadd, rfl⟩⟩ := transfer_eq_ok_iff.1 h
  · rfl
  · have hremaining := UInt256.sub?_eq_some_iff.1 hsub
    have hcredited := UInt256.add?_eq_some_iff.1 hadd
    have debit := b.supply_set token sender remaining
    have credit := supply_set (b.set token sender remaining) token recipient credited
    rw [balance_set_of_ne _ (by simp [hne.symm])] at credit
    omega

theorem transfer_succeeds (hrecipient : recipient.isZero = false)
    (hfunds : amount.toNat ≤ (b.balance token sender).toNat)
    (hsupply : b.supply token < UInt256.size) :
    ∃ b', b.transfer token sender recipient amount = (.ok (), b') := by
  refine exists_transfer_iff.2 ⟨hrecipient, hfunds, ?_⟩
  intro hne
  -- the sender's tokens are part of the supply already, so the recipient has room for them
  have hboth := b.balance_add_balance_le_supply token hne
  omega

theorem supply_transferAll {transfers : List (Address × UInt256)}
    (h : Custody.transferAll b token sender transfers = (.ok (), b')) :
    b'.supply token = b.supply token := by
  induction transfers generalizing b with
  | nil =>
    cases h
    rfl
  | cons transfer rest ih =>
    obtain ⟨between, hfirst, hrest⟩ := transferAll_cons.1 h
    rw [ih hrest, supply_transfer hfirst]

/-- Transfers go through if their sender can pay for them all and there is no more of the token
than fits into one balance. -/
theorem transferAll_succeeds {transfers : List (Address × UInt256)}
    (hrecipients : ∀ t ∈ transfers, t.1.isZero = false)
    (hfunds : sent transfers ≤ (b.balance token sender).toNat)
    (hsupply : b.supply token < UInt256.size) :
    ∃ b', Custody.transferAll b token sender transfers = (.ok (), b') := by
  induction transfers generalizing b with
  | nil => exact ⟨b, rfl⟩
  | cons transfer rest ih =>
    obtain ⟨recipient, amount⟩ := transfer
    rw [sent] at hfunds
    have hrecipient : recipient.isZero = false := hrecipients _ List.mem_cons_self
    obtain ⟨between, hfirst⟩ : ∃ between,
        b.transfer token sender recipient amount = (.ok (), between) :=
      transfer_succeeds hrecipient (by omega) hsupply
    have hbalance := balance_transfer hfirst sender
    have hleft : sent rest ≤ (between.balance token sender).toNat := by
      rw [if_pos rfl] at hbalance
      omega
    obtain ⟨after, hrest⟩ := ih (fun t ht ↦ hrecipients t (List.mem_cons_of_mem _ ht)) hleft
      (by rwa [supply_transfer hfirst])
    exact ⟨after, transferAll_cons.2 ⟨between, hfirst, hrest⟩⟩

end Balances

end TokenBridge
