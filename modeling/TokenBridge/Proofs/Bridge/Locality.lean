import TokenBridge.Proofs.Bridge.Cells
import TokenBridge.Proofs.Bridge.Footprint

namespace TokenBridge

def BridgeState.Agrees (state : BridgeState) (funds : Balances) (state' : BridgeState)
    (funds' : Balances) : Cell → Prop
  | .gate => True
  | .registry => state.registry = state'.registry
  | .ledger => state.ledger = state'.ledger
  | .batchNonce token =>
    state.executor.lastNonces.get? token = state'.executor.lastNonces.get? token
  | .funds token => funds.fundsOf token = funds'.fundsOf token

theorem Executor.execute_congr {x x' : Executor} {batch : Batch} {funds funds' : Balances}
    (registry : Registry) (signatures : SignatureSet) (account relayer : Address)
    (hnonce : x.lastNonces.get? batch.token = x'.lastNonces.get? batch.token)
    (hfunds : funds.fundsOf batch.token = funds'.fundsOf batch.token) :
    let outcome := x.execute registry batch signatures funds account relayer
    let outcome' := x'.execute registry batch signatures funds' account relayer
    outcome.1 = outcome'.1 ∧
      outcome.2.1.lastNonces.get? batch.token = outcome'.2.1.lastNonces.get? batch.token ∧
      outcome.2.2.fundsOf batch.token = outcome'.2.2.fundsOf batch.token := by
  have hlast : x.lastNonce batch.token = x'.lastNonce batch.token := congrArg (·.getD 0) hnonce
  have hadvance : (x.advance batch).lastNonces.get? batch.token =
      (x'.advance batch).lastNonces.get? batch.token := by
    rw [advance, advance, Table.get?_insert_self, Table.get?_insert_self]
  unfold execute
  rw [hlast]
  dsimp only
  split
  · exact ⟨rfl, hnonce, hfunds⟩
  · split
    · exact ⟨rfl, hnonce, hfunds⟩
    · split
      · exact ⟨rfl, hnonce, hfunds⟩
      · rename_i fee _
        obtain ⟨hpaid, hleft⟩ :=
          Balances.transferAll_congr hfunds account (batch.transfers relayer fee)
        obtain ⟨outcome, after, after', ht, ht'⟩ := exists_of_fst_eq hpaid
        rw [ht, ht'] at hleft ⊢
        cases outcome with
        | error e => exact ⟨rfl, hadvance, hleft⟩
        | ok _ => exact ⟨rfl, hadvance, hleft⟩

namespace Bridge

variable {b b' : Bridge Balances} {c : Call} {cell : Cell} {state state' : BridgeState}
  {funds funds' : Balances}

theorem sameAt_iff_agrees (ready : b.state = some state) (ready' : b'.state = some state')
    (hcell : cell ≠ .gate) :
    b.SameAt b' cell ↔ state.Agrees b.custody state' b'.custody cell := by
  cases cell with
  | gate => exact absurd rfl hcell
  | _ => simp [SameAt, BridgeState.Agrees, ready, ready']

theorem SameAt.isSome_eq (h : b.SameAt b' .registry ∨ b.SameAt b' .ledger) :
    b.state.isSome = b'.state.isSome := by
  rcases h with h | h
  · simpa [SameAt] using congrArg Option.isSome h
  · simpa [SameAt] using congrArg Option.isSome h

/-- Two outcomes are the same as far as some cells can tell. -/
def Alike {α : Type} (cells : Cell → Prop) (outcome outcome' : Except BridgeError α × Bridge Balances) :
    Prop := outcome.1 = outcome'.1 ∧ ∀ cell, cells cell → outcome.2.SameAt outcome'.2 cell

theorem Alike.answering {α : Type} {cells : Cell → Prop}
    {outcome outcome' : Except BridgeError α × Bridge Balances} (h : Alike cells outcome outcome')
    (wrap : α → Answer) : Alike cells (answering wrap outcome) (answering wrap outcome') :=
  ⟨congrArg (Except.map wrap) h.1, h.2⟩

/-- Where the body of a call does the same to states that agree in some cells, so does the call to
bridges that have the same in them. -/
theorem transact_congr_of_agrees {α : Type} {entry : EntryPoint} (he : entry ≠ .probe)
    {body : BridgeState → Balances → Except BridgeError (α × Event) × BridgeState × Balances}
    {cells : Cell → Prop} (hgate : ¬ cells .gate) (hstate : cells .registry ∨ cells .ledger)
    (h : ∀ cell, cells cell → b.SameAt b' cell)
    (hbody : ∀ state state' funds funds',
      (∀ cell, cells cell → state.Agrees funds state' funds' cell) →
      (body state funds).1 = (body state' funds').1 ∧
        ∀ cell, cells cell → (body state funds).2.1.Agrees (body state funds).2.2
          (body state' funds').2.1 (body state' funds').2.2 cell) :
    Alike cells (b.transact entry body) (b'.transact entry body) := by
  have hne {cell : Cell} (hcell : cells cell) : cell ≠ .gate := fun heq ↦ hgate (heq ▸ hcell)
  have hready : b.state.isSome = b'.state.isSome := SameAt.isSome_eq (hstate.imp (h _) (h _))
  cases ready : b.state with
  | none =>
    have ready' : b'.state = none := by simpa [ready] using hready.symm
    rw [transact_of_none he ready, transact_of_none he ready']
    exact ⟨rfl, h⟩
  | some state =>
    obtain ⟨state', ready'⟩ : ∃ state', b'.state = some state' :=
      Option.isSome_iff_exists.1 (by rw [← hready, ready]; rfl)
    obtain ⟨houtcome, hafter⟩ := hbody state state' b.custody b'.custody fun cell hcell ↦
      (sameAt_iff_agrees ready ready' (hne hcell)).1 (h cell hcell)
    rw [transact_of_some he ready, transact_of_some he ready']
    obtain ⟨outcome, ⟨after, left⟩, ⟨after', left'⟩, hb, hb'⟩ := exists_of_fst_eq houtcome
    rw [hb, hb'] at hafter ⊢
    cases outcome with
    | error e => exact ⟨rfl, h⟩
    | ok found =>
      exact ⟨rfl, fun cell hcell ↦ (sameAt_iff_agrees rfl rfl (hne hcell)).2 (hafter cell hcell)⟩

theorem recordDeposit_congr {token : Address} (account sender : Address) (bytes : Bytes)
    (amount : UInt256) (hledger : state.ledger = state'.ledger)
    (hfunds : funds.fundsOf token = funds'.fundsOf token) :
    let outcome := recordDeposit account sender token bytes amount state funds
    let outcome' := recordDeposit account sender token bytes amount state' funds'
    outcome.1 = outcome'.1 ∧ outcome.2.1.ledger = outcome'.2.1.ledger ∧
      outcome.2.2.fundsOf token = outcome'.2.2.fundsOf token := by
  obtain ⟨hmoved, hleft⟩ := Balances.transfer_congr hfunds sender account amount
  unfold recordDeposit
  dsimp only
  split
  · exact ⟨rfl, hledger, hfunds⟩
  · split
    · exact ⟨rfl, hledger, hfunds⟩
    · split
      · exact ⟨rfl, hledger, hfunds⟩
      · rw [Balances.custody_transfer, Balances.custody_transfer]
        obtain ⟨outcome, after, after', ht, ht'⟩ := exists_of_fst_eq hmoved
        rw [ht, ht'] at hleft ⊢
        cases outcome with
        | error e => exact ⟨rfl, hledger, hleft⟩
        | ok _ =>
          dsimp only
          rw [hledger]
          split
          · exact ⟨rfl, rfl, hleft⟩
          · exact ⟨rfl, rfl, hleft⟩

theorem settle_congr {batch : Batch} (account relayer : Address) (signatures : SignatureSet)
    (hregistry : state.registry = state'.registry)
    (hnonce : state.executor.lastNonces.get? batch.token =
      state'.executor.lastNonces.get? batch.token)
    (hfunds : funds.fundsOf batch.token = funds'.fundsOf batch.token) :
    let outcome := settle account relayer batch signatures state funds
    let outcome' := settle account relayer batch signatures state' funds'
    outcome.1 = outcome'.1 ∧ outcome.2.1.registry = outcome'.2.1.registry ∧
      outcome.2.1.executor.lastNonces.get? batch.token =
        outcome'.2.1.executor.lastNonces.get? batch.token ∧
      outcome.2.2.fundsOf batch.token = outcome'.2.2.fundsOf batch.token := by
  obtain ⟨hpaid, hnonce', hleft⟩ :=
    Executor.execute_congr state'.registry signatures account relayer hnonce hfunds
  unfold settle
  rw [hregistry]
  obtain ⟨outcome, ⟨x, after⟩, ⟨x', after'⟩, hx, hx'⟩ := exists_of_fst_eq hpaid
  rw [hx, hx'] at hnonce' hleft ⊢
  cases outcome with
  | error e => exact ⟨rfl, rfl, hnonce', hleft⟩
  | ok _ => exact ⟨rfl, rfl, hnonce', hleft⟩

theorem replaceSet_congr (addresses : List Address) (powers : List UInt64) (nonce : UInt64)
    (signatures : SignatureSet) (hregistry : state.registry = state'.registry) :
    let outcome := replaceSet addresses powers nonce signatures state funds
    let outcome' := replaceSet addresses powers nonce signatures state' funds'
    outcome.1 = outcome'.1 ∧ outcome.2.1.registry = outcome'.2.1.registry := by
  unfold replaceSet
  dsimp only
  rw [hregistry]
  split
  · exact ⟨rfl, hregistry⟩
  · split
    · exact ⟨rfl, rfl⟩
    · exact ⟨rfl, rfl⟩

theorem start_congr_state (h : b.state = b'.state) (id : BridgeId) (basisPoints : UInt32)
    (addresses : List Address) (powers : List UInt64) :
    (b.start id basisPoints addresses powers).1 = (b'.start id basisPoints addresses powers).1 ∧
      (b.start id basisPoints addresses powers).2.state =
        (b'.start id basisPoints addresses powers).2.state := by
  simp only [start, ensureSupported_start, ← h]
  split
  · exact ⟨rfl, h⟩
  · split
    · exact ⟨rfl, h⟩
    · split
      · exact ⟨rfl, h⟩
      · exact ⟨rfl, rfl⟩

theorem checkState_congr_registry (h : b.SameAt b' .registry) : b.checkState = b'.checkState := by
  have hstate : b.state.map (·.registry) = b'.state.map (·.registry) := h
  unfold checkState
  rcases hs : b.state with _ | state <;> rcases hs' : b'.state with _ | state' <;>
    rw [hs, hs'] at hstate
  · cases hstate
  · cases hstate
  · have hregistry : state.registry = state'.registry := Option.some.inj hstate
    simp only [hregistry]

theorem deposit_congr_cells (haccount : b.account = b'.account) (sender token : Address)
    (bytes : Bytes) (amount : UInt256)
    (h : ∀ cell, (Call.deposit sender token bytes amount).Uses cell → b.SameAt b' cell) :
    Alike (Call.deposit sender token bytes amount).Uses (b.deposit sender token bytes amount)
      (b'.deposit sender token bytes amount) := by
  rw [deposit, deposit, ← haccount]
  refine transact_congr_of_agrees (by decide) (by simp [Call.Uses, Call.Writes, Call.Reads])
    (.inr (.inl (.inl rfl))) h ?_
  intro state state' funds funds' hagrees
  obtain ⟨houtcome, hledger, hfunds⟩ := recordDeposit_congr b.account sender bytes amount
    (hagrees .ledger (.inl (.inl rfl))) (hagrees (.funds token) (.inl (.inr rfl)))
  refine ⟨houtcome, ?_⟩
  rintro cell ((rfl | rfl) | ⟨⟨⟩⟩)
  · exact hledger
  · exact hfunds

theorem rotate_congr_cells (addresses : List Address) (powers : List UInt64) (nonce : UInt64)
    (signatures : SignatureSet)
    (h : ∀ cell, (Call.rotate addresses powers nonce signatures).Uses cell → b.SameAt b' cell) :
    Alike (Call.rotate addresses powers nonce signatures).Uses
      (b.rotate addresses powers nonce signatures)
      (b'.rotate addresses powers nonce signatures) := by
  refine transact_congr_of_agrees (by decide) (by simp [Call.Uses, Call.Writes, Call.Reads])
    (.inl (.inl rfl)) h ?_
  intro state state' funds funds' hagrees
  obtain ⟨houtcome, hregistry⟩ := replaceSet_congr addresses powers nonce signatures
    (hagrees .registry (.inl rfl))
  refine ⟨houtcome, ?_⟩
  rintro cell (rfl | ⟨⟨⟩⟩)
  exact hregistry

theorem executeBatch_congr_cells (haccount : b.account = b'.account) (relayer : Address)
    (batch : Batch) (signatures : SignatureSet)
    (h : ∀ cell, (Call.executeBatch relayer batch signatures).Uses cell → b.SameAt b' cell) :
    Alike (Call.executeBatch relayer batch signatures).Uses (b.executeBatch relayer batch signatures)
      (b'.executeBatch relayer batch signatures) := by
  rw [executeBatch, executeBatch, ← haccount]
  refine transact_congr_of_agrees (by decide) (by simp [Call.Uses, Call.Writes, Call.Reads])
    (.inl (.inr rfl)) h ?_
  intro state state' funds funds' hagrees
  obtain ⟨houtcome, hregistry, hnonce, hfunds⟩ := settle_congr b.account relayer signatures
    (hagrees _ (.inr rfl)) (hagrees (.batchNonce batch.token) (.inl (.inl rfl)))
    (hagrees (.funds batch.token) (.inl (.inr rfl)))
  refine ⟨houtcome, ?_⟩
  rintro cell ((rfl | rfl) | rfl)
  · exact hnonce
  · exact hfunds
  · exact hregistry

theorem changeAdmin_congr (h : b.gate = b'.gate) (caller new : Address) :
    (b.changeAdmin caller new).1 = (b'.changeAdmin caller new).1 ∧
      (b.changeAdmin caller new).2.gate = (b'.changeAdmin caller new).2.gate := by
  simp only [changeAdmin, ← h]
  rcases b.gate.changeAdmin caller new with ⟨e | previous, gate⟩ <;> exact ⟨rfl, rfl⟩

/-- What a call comes to, and what it makes of the cells that it uses, depends on these alone. -/
theorem call_congr (haccount : b.account = b'.account)
    (h : ∀ cell, c.Uses cell → b.SameAt b' cell) : Alike c.Uses (b.call c) (b'.call c) := by
  cases c with
  | start id basisPoints addresses powers =>
    have hregistry : b.SameAt b' .registry := h _ (.inl (.inl rfl))
    have hledger : b.SameAt b' .ledger := h _ (.inl (.inr (.inl rfl)))
    have hnonces token : b.SameAt b' (.batchNonce token) := h _ (.inl (.inr (.inr ⟨token, rfl⟩)))
    obtain ⟨houtcome, hstate⟩ := start_congr_state
      (state_eq_of_sameAt hregistry hledger hnonces) id basisPoints addresses powers
    refine ⟨congrArg (Except.map _) houtcome, ?_⟩
    rintro cell ((rfl | rfl | ⟨token, rfl⟩) | ⟨⟨⟩⟩)
    · exact congrArg (Option.map _) hstate
    · exact congrArg (Option.map _) hstate
    · exact congrArg (Option.map _) hstate
  | deposit sender token bytes amount =>
    exact (deposit_congr_cells haccount sender token bytes amount h).answering _
  | rotate addresses powers nonce signatures =>
    exact (rotate_congr_cells addresses powers nonce signatures h).answering _
  | submitBatch relayer token payouts nonce signatures =>
    refine Alike.answering ?_ _
    simp only [submitBatch]
    cases hb : Batch.ofPayouts token payouts nonce with
    | error e => exact ⟨rfl, h⟩
    | ok batch =>
      obtain ⟨-, rfl⟩ := Batch.ofPayouts_eq_ok_iff.1 hb
      exact executeBatch_congr_cells haccount relayer ⟨token, payouts, nonce⟩ signatures h
  | executeBatch relayer batch signatures =>
    exact (executeBatch_congr_cells haccount relayer batch signatures h).answering _
  | changeAdmin caller new =>
    obtain ⟨houtcome, hgate⟩ := changeAdmin_congr (h .gate (.inl rfl)) caller new
    refine ⟨congrArg (Except.map _) houtcome, ?_⟩
    rintro cell (rfl | ⟨⟨⟩⟩)
    exact hgate
  | upgrade caller version =>
    have hregistry : b.SameAt b' .registry := h _ (.inr rfl)
    obtain ⟨houtcome, hgate⟩ := call_congr_of_gate (c := .upgrade caller version)
      (h .gate (.inl rfl)) (checkState_congr_registry hregistry) rfl
    refine ⟨houtcome, ?_⟩
    rintro cell (rfl | rfl)
    · exact hgate
    · exact (sameAt_call b (by simp [Call.Writes])).trans
        (hregistry.trans (sameAt_call b' (by simp [Call.Writes])).symm)

end Bridge

end TokenBridge
