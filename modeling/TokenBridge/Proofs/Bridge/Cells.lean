import TokenBridge.Proofs.Bridge.Run
import TokenBridge.Proofs.Custody.Locality

namespace TokenBridge

/-- The parts of a bridge that calls work on. Batch nonces and balances are kept token by token. -/
inductive Cell where
  | gate
  | registry
  | ledger
  | batchNonce (token : Address)
  | funds (token : Address)

namespace Call

/-- What a call may change. It depends on what it changes, also in whether it succeeds. -/
def Writes : Call → Cell → Prop
  | start .., cell => cell = .registry ∨ cell = .ledger ∨ ∃ token, cell = .batchNonce token
  | deposit _ token _ _, cell => cell = .ledger ∨ cell = .funds token
  | rotate .., cell => cell = .registry
  | submitBatch _ token _ _ _, cell => cell = .batchNonce token ∨ cell = .funds token
  | executeBatch _ batch _, cell => cell = .batchNonce batch.token ∨ cell = .funds batch.token
  | changeAdmin .., cell => cell = .gate
  | upgrade .., cell => cell = .gate

def Reads : Call → Cell → Prop
  | submitBatch .., cell | executeBatch .., cell | upgrade .., cell => cell = .registry
  | _, _ => False

def Uses (c : Call) (cell : Cell) : Prop := c.Writes cell ∨ c.Reads cell

variable {c : Call} {cell : Cell}

theorem writes_of_payment {p : Payment} (h : c.payment? = some p) :
    c.Writes cell ↔ cell = .batchNonce p.batch.token ∨ cell = .funds p.batch.token := by
  cases c with
  | submitBatch =>
    cases h
    rfl
  | executeBatch =>
    cases h
    rfl
  | _ => cases h

theorem uses_of_payment {p : Payment} (h : c.payment? = some p) :
    c.Uses cell ↔
      cell = .registry ∨ cell = .batchNonce p.batch.token ∨ cell = .funds p.batch.token := by
  rw [Uses, writes_of_payment h, or_comm]
  cases c with
  | submitBatch => rfl
  | executeBatch => rfl
  | _ => cases h

end Call

theorem Executor.execute_frame {x x' : Executor} {registry : Registry} {batch : Batch}
    {signatures : SignatureSet} {funds funds' : Balances} {account relayer token : Address}
    (h : x.execute registry batch signatures funds account relayer = (.ok (), x', funds'))
    (hne : token ≠ batch.token) :
    x'.lastNonces.get? token = x.lastNonces.get? token ∧
      funds'.fundsOf token = funds.fundsOf token := by
  obtain ⟨_, _, ⟨fee, _, moved⟩, rfl⟩ := execute_eq_ok_iff.1 h
  have hfunds := funds.fundsOf_transferAll_of_ne hne account (batch.transfers relayer fee)
  rw [moved] at hfunds
  exact ⟨x.lastNonces.get?_insert_of_ne hne _, hfunds⟩

namespace Bridge

variable {b b' : Bridge Balances} {c : Call} {cell : Cell}

/-- Two bridges have the same in a cell. That a bridge is not started shows in every cell of its
state. -/
def SameAt (b b' : Bridge Balances) : Cell → Prop
  | .gate => b.gate = b'.gate
  | .registry => b.state.map (·.registry) = b'.state.map (·.registry)
  | .ledger => b.state.map (·.ledger) = b'.state.map (·.ledger)
  | .batchNonce token =>
    b.state.map (·.executor.lastNonces.get? token) = b'.state.map (·.executor.lastNonces.get? token)
  | .funds token => b.custody.fundsOf token = b'.custody.fundsOf token

theorem SameAt.symm (h : b.SameAt b' cell) : b'.SameAt b cell := by
  cases cell <;> exact Eq.symm h

theorem SameAt.trans {b'' : Bridge Balances} (h : b.SameAt b' cell) (h' : b'.SameAt b'' cell) :
    b.SameAt b'' cell := by
  cases cell <;> exact Eq.trans h h'

theorem SameAt.rfl : b.SameAt b cell := by
  cases cell <;> exact Eq.refl _

theorem state_eq_of_sameAt (hregistry : b.SameAt b' .registry) (hledger : b.SameAt b' .ledger)
    (hnonces : ∀ token, b.SameAt b' (.batchNonce token)) : b.state = b'.state := by
  simp only [SameAt] at hregistry hledger hnonces
  rcases hs : b.state with _ | ⟨registry, ledger, ⟨nonces⟩⟩ <;>
    rcases hs' : b'.state with _ | ⟨registry', ledger', ⟨nonces'⟩⟩ <;>
    rw [hs, hs'] at hregistry hledger hnonces
  · cases hregistry
  · cases hregistry
  · cases hregistry
    cases hledger
    have hnonces' : nonces = nonces' := Table.ext_get? fun token ↦ Option.some.inj (hnonces token)
    rw [hnonces']

theorem eq_of_sameAt (h : ∀ cell, b.SameAt b' cell) :
    b.gate = b'.gate ∧ b.state = b'.state ∧ b.custody = b'.custody :=
  ⟨h .gate, state_eq_of_sameAt (h .registry) (h .ledger) fun token ↦ h (.batchNonce token),
    Balances.ext_fundsOf fun token ↦ h (.funds token)⟩

theorem sameAt_of_payment {answer : Answer} {p : Payment} (h : b.Effect c answer b')
    (hp : c.payment? = some p) (hcell : ¬ c.Writes cell) : b'.SameAt b cell := by
  obtain ⟨state, executor, ready, ready', executed⟩ := h.of_payment hp
  have hgate : b'.gate = b.gate := by
    cases h with
    | submitBatch => rfl
    | executeBatch => rfl
    | _ => cases hp
  rw [Call.writes_of_payment hp, not_or] at hcell
  cases cell with
  | gate => exact hgate
  | registry => simp [SameAt, ready, ready']
  | ledger => simp [SameAt, ready, ready']
  | batchNonce token =>
    have hne : token ≠ p.batch.token := fun he ↦ hcell.1 (he ▸ rfl)
    simp [SameAt, ready, ready', (Executor.execute_frame executed hne).1]
  | funds token =>
    have hne : token ≠ p.batch.token := fun he ↦ hcell.2 (he ▸ rfl)
    exact (Executor.execute_frame executed hne).2

theorem sameAt_of_effect {answer : Answer} (h : b.Effect c answer b') (hcell : ¬ c.Writes cell) :
    b'.SameAt b cell := by
  cases h with
  | start fresh =>
    cases cell with
    | gate => rfl
    | funds token => rfl
    | _ => simp [Call.Writes] at hcell
  | @deposit sender token _ amount _ _ _ _ _ ready _ _ _ moved =>
    cases cell with
    | ledger => simp [Call.Writes] at hcell
    | funds token' =>
      have hne : token' ≠ token := by simpa [Call.Writes] using hcell
      have hfunds := b.custody.fundsOf_transfer_of_ne hne sender b.account amount
      rw [← Balances.custody_transfer, moved] at hfunds
      exact hfunds
    | _ => simp [SameAt, ready]
  | rotate ready =>
    cases cell with
    | registry => simp [Call.Writes] at hcell
    | _ => simp [SameAt, ready]
  | submitBatch payouts_ne ready executed =>
    exact sameAt_of_payment (.submitBatch payouts_ne ready executed) rfl hcell
  | executeBatch ready executed =>
    exact sameAt_of_payment (.executeBatch ready executed) rfl hcell
  | changeAdmin new_ne =>
    cases cell with
    | gate => simp [Call.Writes] at hcell
    | _ => rfl
  | upgrade checked =>
    cases cell with
    | gate => simp [Call.Writes] at hcell
    | _ => rfl

/-- What a call does not write it leaves as it was. -/
theorem sameAt_call (b : Bridge Balances) (hcell : ¬ c.Writes cell) : (b.call c).2.SameAt b cell := by
  cases h : (b.call c).1 with
  | error e =>
    rw [call_of_error h]
    exact .rfl
  | ok answer => exact sameAt_of_effect (effect_of_ok h) hcell

end Bridge

end TokenBridge
