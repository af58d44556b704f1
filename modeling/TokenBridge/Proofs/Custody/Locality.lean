import TokenBridge.Proofs.Custody.Transfers
import TokenBridge.Proofs.Table

namespace TokenBridge

theorem exists_of_fst_eq {α β : Type} {p q : α × β} (h : p.1 = q.1) :
    ∃ a x y, p = (a, x) ∧ q = (a, y) := ⟨p.1, p.2, q.2, rfl, by rw [h]⟩

namespace Balances

variable {b b' : Balances} {token token' : Address}

def fundsOf (b : Balances) (token holder : Address) : Option UInt256 := b.table.get? (token, holder)

theorem ext_fundsOf (h : ∀ token, b.fundsOf token = b'.fundsOf token) : b = b' := by
  obtain ⟨table⟩ := b
  obtain ⟨table'⟩ := b'
  have htable : table = table' := Table.ext_get? fun k ↦ congrFun (h k.1) k.2
  rw [htable]

theorem balance_congr (h : b.fundsOf token = b'.fundsOf token) (holder : Address) :
    b.balance token holder = b'.balance token holder :=
  congrArg (·.getD .zero) (congrFun h holder)

theorem fundsOf_set_of_ne (b : Balances) (h : token' ≠ token) (holder : Address)
    (amount : UInt256) : (b.set token holder amount).fundsOf token' = b.fundsOf token' := by
  funext holder'
  exact b.table.get?_insert_of_ne (by simp [h]) amount

theorem fundsOf_set_congr (h : b.fundsOf token = b'.fundsOf token) (holder : Address)
    (amount : UInt256) :
    (b.set token holder amount).fundsOf token = (b'.set token holder amount).fundsOf token := by
  funext holder'
  by_cases hh : (token, holder') = (token, holder)
  · cases hh
    rw [fundsOf, fundsOf, set, set, Table.get?_insert_self, Table.get?_insert_self]
  · have hsame := congrFun h holder'
    rw [fundsOf, fundsOf, set, set, Table.get?_insert_of_ne _ hh, Table.get?_insert_of_ne _ hh]
    exact hsame

/-- A transfer leaves the other tokens alone, whether it fails or not. -/
theorem fundsOf_transfer_of_ne (b : Balances) (h : token' ≠ token) (sender recipient : Address)
    (amount : UInt256) :
    (b.transfer token sender recipient amount).2.fundsOf token' = b.fundsOf token' := by
  unfold transfer
  dsimp only
  split
  · rfl
  · split
    · rfl
    · split
      · rfl
      · split
        · rfl
        · rw [fundsOf_set_of_ne _ h, fundsOf_set_of_ne _ h]

/-- What becomes of a transfer depends on its own token only. -/
theorem transfer_congr (h : b.fundsOf token = b'.fundsOf token) (sender recipient : Address)
    (amount : UInt256) :
    (b.transfer token sender recipient amount).1 = (b'.transfer token sender recipient amount).1 ∧
      (b.transfer token sender recipient amount).2.fundsOf token =
        (b'.transfer token sender recipient amount).2.fundsOf token := by
  unfold transfer
  rw [balance_congr h sender, balance_congr h recipient]
  dsimp only
  split
  · exact ⟨rfl, h⟩
  · split
    · exact ⟨rfl, h⟩
    · split
      · exact ⟨rfl, h⟩
      · split
        · exact ⟨rfl, h⟩
        · exact ⟨rfl, fundsOf_set_congr (fundsOf_set_congr h _ _) _ _⟩

theorem fundsOf_transferAll_of_ne (b : Balances) (h : token' ≠ token) (sender : Address)
    (transfers : List (Address × UInt256)) :
    (Custody.transferAll b token sender transfers).2.fundsOf token' = b.fundsOf token' := by
  induction transfers generalizing b with
  | nil => rfl
  | cons transfer rest ih =>
    obtain ⟨recipient, amount⟩ := transfer
    have hfirst := b.fundsOf_transfer_of_ne h sender recipient amount
    rw [Custody.transferAll, custody_transfer]
    rcases ht : b.transfer token sender recipient amount with ⟨e | _, between⟩ <;> rw [ht] at hfirst
    · exact hfirst
    · exact (ih between).trans hfirst

theorem transferAll_congr (h : b.fundsOf token = b'.fundsOf token) (sender : Address)
    (transfers : List (Address × UInt256)) :
    (Custody.transferAll b token sender transfers).1 =
        (Custody.transferAll b' token sender transfers).1 ∧
      (Custody.transferAll b token sender transfers).2.fundsOf token =
        (Custody.transferAll b' token sender transfers).2.fundsOf token := by
  induction transfers generalizing b b' with
  | nil => exact ⟨rfl, h⟩
  | cons transfer rest ih =>
    obtain ⟨recipient, amount⟩ := transfer
    obtain ⟨hfirst, hbetween⟩ := transfer_congr h sender recipient amount
    rw [Custody.transferAll, Custody.transferAll, custody_transfer, custody_transfer]
    obtain ⟨outcome, between, between', ht, ht'⟩ := exists_of_fst_eq hfirst
    rw [ht, ht'] at hbetween ⊢
    cases outcome with
    | error e => exact ⟨rfl, hbetween⟩
    | ok _ => exact ih hbetween

end Balances

end TokenBridge
