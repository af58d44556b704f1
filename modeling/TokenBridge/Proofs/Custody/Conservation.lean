import Mathlib.Algebra.BigOperators.Finprod
import TokenBridge.Proofs.Custody.Locality
import TokenBridge.Proofs.Custody.Supply

namespace TokenBridge

open Ranked (rank)

namespace Balances

variable {entries : List ((Address × Address) × UInt256)} {token token' holder : Address}

def listed (token : Address) (entries : List ((Address × Address) × UInt256)) (holder : Address) :
    Nat := ((Table.lookup (token, holder) entries).getD .zero).toNat

theorem listed_nil (token holder : Address) : listed token [] holder = 0 := rfl

theorem listed_cons {e : (Address × Address) × UInt256} (he : ∀ e' ∈ entries, rank e.1 < rank e'.1)
    (token holder : Address) :
    listed token (e :: entries) holder =
      (if e.1 = (token, holder) then e.2.toNat else 0) + listed token entries holder := by
  by_cases h : e.1 = (token, holder)
  · have hrest : listed token entries holder = 0 := by
      rw [listed, ← h, Table.lookup_eq_none he]
      rfl
    rw [if_pos h, hrest, Nat.add_zero, listed, ← h, Table.lookup_cons_self]
    rfl
  · have hrank : rank e.1 ≠ rank (token, holder) := fun hr ↦ h (Ranked.rank_injective hr)
    rw [if_neg h, Nat.zero_add, listed, Table.lookup_cons_of_ne hrank, listed]

theorem finsum_single (key : Address × Address) (n : Nat) (token : Address) :
    ∑ᶠ holder, (if key = (token, holder) then n else 0) = if key.1 = token then n else 0 := by
  have hother : ∀ holder, holder ≠ key.2 → (if key = (token, holder) then n else 0) = 0 := by
    intro holder hne
    exact if_neg fun h ↦ hne (congrArg Prod.snd h).symm
  rw [finsum_eq_single _ key.2 hother]
  by_cases h : key.1 = token
  · have hkey : key = (token, key.2) := Prod.ext h rfl
    rw [if_pos h, if_pos hkey]
  · rw [if_neg h, if_neg fun he ↦ h (congrArg Prod.fst he)]

theorem finite_single (key : Address × Address) (n : Nat) (token : Address) :
    (Function.support fun holder ↦ if key = (token, holder) then n else 0).Finite := by
  refine (Set.finite_singleton key.2).subset fun holder h ↦ ?_
  have hkey : key = (token, holder) := by
    by_contra hne
    exact h (if_neg hne)
  exact (congrArg Prod.snd hkey).symm

theorem finite_listed (hsorted : entries.Pairwise fun a b ↦ rank a.1 < rank b.1) (token : Address) :
    (Function.support (listed token entries)).Finite := by
  induction entries with
  | nil =>
    refine Set.finite_empty.subset fun holder h ↦ ?_
    exact h (listed_nil token holder)
  | cons e rest ih =>
    obtain ⟨he, hrest⟩ := List.pairwise_cons.1 hsorted
    rw [funext (listed_cons he token)]
    exact ((finite_single e.1 e.2.toNat token).union (ih hrest)).subset (Function.support_add _ _)

theorem finsum_listed (hsorted : entries.Pairwise fun a b ↦ rank a.1 < rank b.1) (token : Address) :
    ∑ᶠ holder, listed token entries holder =
      (entries.map fun e ↦ if e.1.1 = token then e.2.toNat else 0).sum := by
  induction entries with
  | nil => rw [finsum_congr (listed_nil token), finsum_zero, List.map_nil, List.sum_nil]
  | cons e rest ih =>
    obtain ⟨he, hrest⟩ := List.pairwise_cons.1 hsorted
    calc ∑ᶠ holder, listed token (e :: rest) holder
        = ∑ᶠ holder, ((if e.1 = (token, holder) then e.2.toNat else 0) +
            listed token rest holder) := finsum_congr (listed_cons he token)
      _ = ∑ᶠ holder, (if e.1 = (token, holder) then e.2.toNat else 0) +
            ∑ᶠ holder, listed token rest holder :=
          finsum_add_distrib (finite_single e.1 e.2.toNat token) (finite_listed hrest token)
      _ = (if e.1.1 = token then e.2.toNat else 0) +
            (rest.map fun e ↦ if e.1.1 = token then e.2.toNat else 0).sum := by
          rw [finsum_single, ih hrest]
      _ = ((e :: rest).map fun e ↦ if e.1.1 = token then e.2.toNat else 0).sum := by
          rw [List.map_cons, List.sum_cons]

theorem finite_holders (b : Balances) (token : Address) :
    {holder | (b.balance token holder).toNat ≠ 0}.Finite := finite_listed b.table.sorted token

/-- The supply of a token is what all who may hold it have together. -/
theorem finsum_balance (b : Balances) (token : Address) :
    ∑ᶠ holder, (b.balance token holder).toNat = b.supply token :=
  finsum_listed b.table.sorted token

variable {b b' : Balances} {sender recipient : Address} {amount : UInt256} {e : CustodyError}

theorem supply_congr (h : b.fundsOf token = b'.fundsOf token) : b.supply token = b'.supply token := by
  rw [← finsum_balance, ← finsum_balance, finsum_congr fun holder ↦ by rw [balance_congr h holder]]

theorem supply_empty (token : Address) : empty.supply token = 0 := rfl

/-- A balance can overflow only where there is one, so that nothing new is entered. -/
theorem mint_of_error (h : b.mint token holder amount = (.error e, b')) : b' = b := by
  simp only [mint] at h
  cases hfound : b.table.get? (token, holder) with
  | none =>
    -- what is minted to someone who has nothing always fits
    have hzero : b.balance token holder = .zero := by rw [balance, hfound]; rfl
    have hadd : UInt256.add? .zero amount = some amount :=
      UInt256.add?_eq_some_iff.2 (Nat.zero_add _).symm
    rw [balance_opened, hzero, hadd] at h
    cases h
  | some found =>
    have hsame : b.table.insert (token, holder) (b.balance token holder) = b.table :=
      Table.insert_eq_self (by rw [balance, hfound]; rfl)
    have hopened : b.opened token holder = b := by rw [opened, set, hsame]
    rw [hopened] at h
    split at h
    · cases h
      rfl
    · cases h

theorem supply_set_of_ne (b : Balances) (h : token' ≠ token) (holder : Address)
    (amount : UInt256) : (b.set token holder amount).supply token' = b.supply token' :=
  supply_congr (fundsOf_set_of_ne b h holder amount)

theorem supply_mint_of_ok (h : b.mint token holder amount = (.ok (), b')) (token' : Address) :
    b'.supply token' = b.supply token' + if token = token' then amount.toNat else 0 := by
  simp only [mint] at h
  split at h
  · cases h
  · rename_i sum hsum
    cases h
    have hnat := UInt256.add?_eq_some_iff.1 hsum
    rw [balance_opened] at hnat
    by_cases ht : token = token'
    · subst ht
      have hopened := b.supply_set token holder (b.balance token holder)
      have hset := supply_set (b.opened token holder) token holder sum
      rw [balance_opened] at hset
      rw [if_pos rfl]
      simp only [opened] at hset ⊢
      omega
    · have hne : token' ≠ token := fun he ↦ ht he.symm
      rw [if_neg ht, Nat.add_zero, supply_set_of_ne _ hne, opened, supply_set_of_ne _ hne]

theorem transfer_of_error (h : b.transfer token sender recipient amount = (.error e, b')) :
    b' = b := by
  simp only [transfer] at h
  split at h
  · cases h
    rfl
  · split at h
    · cases h
      rfl
    · split at h
      · cases h
      · split at h
        · cases h
          rfl
        · cases h

/-- Whatever becomes of a transfer, there is as much of every token as before. -/
theorem supply_transfer_eq (b : Balances) (token sender recipient : Address) (amount : UInt256)
    (token' : Address) :
    (b.transfer token sender recipient amount).2.supply token' = b.supply token' := by
  by_cases ht : token' = token
  · subst ht
    rcases hb : b.transfer token' sender recipient amount with ⟨e | _, b'⟩
    · rw [transfer_of_error hb]
    · exact supply_transfer hb
  · exact supply_congr (b.fundsOf_transfer_of_ne ht sender recipient amount)

theorem supply_transferAll_eq (b : Balances) (token sender : Address)
    (transfers : List (Address × UInt256)) (token' : Address) :
    (Custody.transferAll b token sender transfers).2.supply token' = b.supply token' := by
  induction transfers generalizing b with
  | nil => rfl
  | cons transfer rest ih =>
    obtain ⟨recipient, amount⟩ := transfer
    have hfirst := b.supply_transfer_eq token sender recipient amount token'
    rw [Custody.transferAll, custody_transfer]
    rcases hb : b.transfer token sender recipient amount with ⟨e | _, between⟩ <;> rw [hb] at hfirst
    · exact hfirst
    · exact (ih between).trans hfirst

/-- As long as all of a token fits into one balance, no recipient is short of room. -/
theorem transfer_ne_overflow (hsupply : b.supply token' < UInt256.size) :
    (b.transfer token sender recipient amount).1 ≠ .error (.balanceOverflow token' holder) := by
  intro h
  unfold transfer at h
  dsimp only at h
  split at h
  · cases h
  · split at h
    · cases h
    · rename_i remaining hsub
      split at h
      · cases h
      · rename_i hself
        split at h
        · rename_i hadd
          obtain ⟨rfl, rfl⟩ : token = token' ∧ recipient = holder := by simpa using h
          have hboth := b.balance_add_balance_le_supply token hself
          have hremaining := UInt256.sub?_eq_some_iff.1 hsub
          have hfits : (b.balance token recipient).toNat + amount.toNat < UInt256.size := by omega
          have hsum : (b.balance token recipient).add? amount = some ⟨_, hfits⟩ :=
            UInt256.add?_eq_some_iff.2 rfl
          rw [hsum] at hadd
          cases hadd
        · cases h

theorem transferAll_ne_overflow {transfers : List (Address × UInt256)}
    (hsupply : b.supply token' < UInt256.size) :
    (Custody.transferAll b token sender transfers).1 ≠ .error (.balanceOverflow token' holder) := by
  induction transfers generalizing b with
  | nil =>
    intro h
    cases h
  | cons transfer rest ih =>
    obtain ⟨recipient, amount⟩ := transfer
    have hfirst := b.supply_transfer_eq token sender recipient amount token'
    have hroom : (b.transfer token sender recipient amount).1 ≠
        .error (.balanceOverflow token' holder) := transfer_ne_overflow hsupply
    rw [Custody.transferAll, custody_transfer]
    rcases hb : b.transfer token sender recipient amount with ⟨e | _, between⟩ <;>
      rw [hb] at hfirst hroom
    · exact hroom
    · exact ih (by rwa [hfirst])

end Balances

end TokenBridge
