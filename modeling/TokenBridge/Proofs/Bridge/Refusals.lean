import TokenBridge.Proofs.Bridge.Effects

namespace TokenBridge

theorem Ledger.record_ne_custody {l : Ledger} {token sender : Address} {destination : Destination}
    {amount : UInt256} {e : CustodyError} :
    (l.record token sender destination amount).1 ≠ .error (.custody e) := by
  intro h
  unfold record at h
  split at h
  · cases h
  · split at h
    · cases h
    · cases h

theorem Registry.rotate_ne_custody {r : Registry} {vs : ValidatorSet} {nonce : UInt64}
    {signatures : SignatureSet} {e : CustodyError} :
    (r.rotate vs nonce signatures).1 ≠ .error (.custody e) := by
  intro h
  unfold rotate at h
  split at h
  · cases h
  · dsimp only at h
    split at h
    · cases h
    · cases h

theorem Gate.ensureAdmin_ne_custody {g : Gate} {caller : Address} {e : CustodyError} :
    g.ensureAdmin caller ≠ .error (.custody e) := by
  intro h
  unfold ensureAdmin at h
  split at h
  · cases h
  · cases h

theorem Gate.changeAdmin_ne_custody {g : Gate} {caller new : Address} {e : CustodyError} :
    (g.changeAdmin caller new).1 ≠ .error (.custody e) := by
  intro h
  unfold changeAdmin at h
  split at h
  · rename_i hadmin
    cases h
    exact ensureAdmin_ne_custody hadmin
  · split at h
    · cases h
    · cases h

theorem Gate.upgrade_ne_custody {g : Gate} {caller : Address} {version : Implementation}
    {e : CustodyError} : (g.upgrade caller version).1 ≠ .error (.custody e) := by
  intro h
  unfold upgrade at h
  split at h
  · rename_i hadmin
    cases h
    exact ensureAdmin_ne_custody hadmin
  · cases h

section

variable {C : Type} [Custody C] {e : CustodyError}

/-- A batch does to the funds what some transfers of its token do, if only none, and the custody
refuses it only as it refuses these. -/
theorem Executor.exists_transferAll (x : Executor) (registry : Registry) (batch : Batch)
    (signatures : SignatureSet) (funds : C) (custodian relayer : Address) :
    let outcome := x.execute registry batch signatures funds custodian relayer
    ∃ transfers, outcome.2.2 = (Custody.transferAll funds batch.token custodian transfers).2 ∧
      ∀ e, outcome.1 = .error (.custody e) →
        (Custody.transferAll funds batch.token custodian transfers).1 = .error e := by
  unfold execute
  dsimp only
  split
  · exact ⟨[], rfl, nofun⟩
  · split
    · exact ⟨[], rfl, nofun⟩
    · split
      · exact ⟨[], rfl, nofun⟩
      · rename_i fee _
        refine ⟨batch.transfers relayer fee, ?_⟩
        rcases Custody.transferAll funds batch.token custodian (batch.transfers relayer fee)
          with ⟨e | _, after⟩
        · exact ⟨rfl, fun e' h ↦ by cases h; rfl⟩
        · exact ⟨rfl, nofun⟩

namespace Bridge

section

omit [Custody C]

variable {b : Bridge C} {α : Type}

theorem body_of_transact_error {entry : EntryPoint} (he : entry ≠ .probe)
    {body : BridgeState → C → Except BridgeError (α × Event) × BridgeState × C}
    (h : (b.transact entry body).1 = .error (.custody e)) :
    ∃ state, (body state b.custody).1 = .error (.custody e) := by
  cases hstate : b.state with
  | none =>
    rw [transact_of_none he hstate] at h
    cases h
  | some state =>
    rw [transact_of_some he hstate] at h
    refine ⟨state, ?_⟩
    rcases hb : body state b.custody with ⟨e' | _, after⟩ <;> rw [hb] at h
    · exact congrArg Except.error (Except.error.inj h)
    · cases h

theorem start_ne_custody {id : BridgeId} {basisPoints : UInt32} {addresses : List Address}
    {powers : List UInt64} :
    (b.start id basisPoints addresses powers).1 ≠ .error (.custody e) := by
  intro h
  simp only [start, ensureSupported_start] at h
  split at h
  · cases h
  · split at h
    · cases h
    · split at h
      · cases h
      · cases h

theorem replaceSet_ne_custody {addresses : List Address} {powers : List UInt64} {nonce : UInt64}
    {signatures : SignatureSet} {state : BridgeState} {funds : C} :
    (replaceSet addresses powers nonce signatures state funds).1 ≠ .error (.custody e) := by
  intro h
  unfold replaceSet at h
  split at h
  · cases h
  · split at h
    · rename_i hrotate
      cases h
      exact Registry.rotate_ne_custody (congrArg Prod.fst hrotate)
    · cases h

theorem changeAdmin_ne_custody {caller new : Address} :
    (b.changeAdmin caller new).1 ≠ .error (.custody e) := by
  intro h
  unfold changeAdmin at h
  split at h
  · rename_i hgate
    cases h
    exact Gate.changeAdmin_ne_custody (congrArg Prod.fst hgate)
  · cases h

theorem upgrade_ne_custody {caller : Address} {version : Implementation} :
    (b.upgrade caller version).1 ≠ .error (.custody e) := by
  intro h
  unfold upgrade checkState at h
  split at h
  · rename_i hgate
    cases h
    exact Gate.upgrade_ne_custody (congrArg Prod.fst hgate)
  · split at h
    · rename_i hcheck
      cases h
      split at hcheck
      · cases hcheck
      · split at hcheck
        · cases hcheck
        · cases hcheck
    · cases h

end

variable {b : Bridge C}

theorem transfer_of_recordDeposit_error {account sender token : Address} {bytes : Bytes}
    {amount : UInt256} {state : BridgeState} {funds : C}
    (h : (recordDeposit account sender token bytes amount state funds).1 = .error (.custody e)) :
    (Custody.transfer funds token sender account amount).1 = .error e := by
  unfold recordDeposit at h
  split at h
  · cases h
  · split at h
    · cases h
    · split at h
      · cases h
      · split at h
        · rename_i ht
          cases h
          rw [ht]
        · split at h
          · rename_i hrecord
            cases h
            exact absurd (congrArg Prod.fst hrecord) Ledger.record_ne_custody
          · cases h

theorem execute_of_settle_error {account relayer : Address} {batch : Batch}
    {signatures : SignatureSet} {state : BridgeState} {funds : C}
    (h : (settle account relayer batch signatures state funds).1 = .error (.custody e)) :
    (state.executor.execute state.registry batch signatures funds account relayer).1 =
      .error (.custody e) := by
  unfold settle at h
  split at h
  · rename_i hx
    cases h
    rw [hx]
  · cases h

/-- A call that the custody refuses has made transfers that the custody refuses. -/
theorem transferAll_of_call_error {c : Call} (h : (b.call c).1 = .error (.custody e)) :
    ∃ token sender transfers,
      (Custody.transferAll b.custody token sender transfers).1 = .error e := by
  have hbatch {relayer : Address} {batch : Batch} {signatures : SignatureSet}
      (hb : (b.executeBatch relayer batch signatures).1 = .error (.custody e)) :
      ∃ token sender transfers,
        (Custody.transferAll b.custody token sender transfers).1 = .error e := by
    obtain ⟨state, hsettle⟩ := body_of_transact_error (by decide) hb
    obtain ⟨transfers, -, hrefused⟩ := state.executor.exists_transferAll state.registry batch
      signatures b.custody b.account relayer
    exact ⟨_, _, transfers, hrefused _ (execute_of_settle_error hsettle)⟩
  cases c with
  | start => exact absurd (error_of_answering h) start_ne_custody
  | deposit sender token bytes amount =>
    obtain ⟨state, hrecord⟩ := body_of_transact_error (by decide) (error_of_answering h)
    refine ⟨token, sender, [(b.account, amount)], ?_⟩
    have hmoved := transfer_of_recordDeposit_error hrecord
    rw [Custody.transferAll]
    rcases ht : Custody.transfer b.custody token sender b.account amount with ⟨e' | _, after⟩ <;>
      rw [ht] at hmoved
    · exact hmoved
    · cases hmoved
  | rotate =>
    obtain ⟨state, hreplace⟩ := body_of_transact_error (by decide) (error_of_answering h)
    exact absurd hreplace replaceSet_ne_custody
  | submitBatch relayer token payouts nonce signatures =>
    have hsubmit := error_of_answering h
    unfold submitBatch at hsubmit
    split at hsubmit
    · cases hsubmit
    · exact hbatch hsubmit
  | executeBatch => exact hbatch (error_of_answering h)
  | changeAdmin => exact absurd (error_of_answering h) changeAdmin_ne_custody
  | upgrade => exact absurd (error_of_answering h) upgrade_ne_custody

end Bridge

end

end TokenBridge
