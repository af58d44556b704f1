import TokenBridge.Bridge.Call
import TokenBridge.Proofs.Validation

namespace TokenBridge

variable {C : Type}

/-- Implementations differ in the probe only. -/
theorem Gate.ensureSupported_eq_ok (g : Gate) {entry : EntryPoint} (h : entry ≠ .probe) :
    g.ensureSupported entry = .ok () := by
  obtain ⟨admin, version⟩ := g
  cases version <;> cases entry <;> first | rfl | exact absurd rfl h

theorem Ledger.record_eq_ok_iff {l l' : Ledger} {token sender : Address} {destination : Destination}
    {amount : UInt256} {record : Deposit} :
    l.record token sender destination amount = (.ok record, l') ↔
      amount ≠ .zero ∧ l.lastNonce.toNat + 1 < UInt64.size ∧
        record = ⟨token, sender, destination, amount, l.lastNonce + 1⟩ ∧
        l' = ⟨l.lastNonce + 1⟩ := by
  unfold Ledger.record
  split
  · simp_all
  · split
    · simp only [Prod.mk.injEq, reduceCtorEq, false_and, false_iff]
      omega
    · simp_all [eq_comm]

theorem Registry.rotate_eq_ok_iff {r r' : Registry} {vs : ValidatorSet} {nonce : UInt64}
    {signatures : SignatureSet} {checkpoint : Checkpoint} :
    r.rotate vs nonce signatures = (.ok checkpoint, r') ↔
      r.nonce < nonce ∧
        (∃ power,
          r.verify signatures (Checkpoint.compute r.bridgeId vs nonce).signingDigest = .ok power) ∧
        checkpoint = Checkpoint.compute r.bridgeId vs nonce ∧
        r' = { r with checkpoint := Checkpoint.compute r.bridgeId vs nonce, validators := vs } := by
  unfold Registry.rotate
  by_cases h : nonce ≤ r.nonce
  · simp [h, UInt64.not_lt.2 h]
  · have hlt := UInt64.not_le.1 h
    cases hv : r.verify signatures (Checkpoint.compute r.bridgeId vs nonce).signingDigest with
    | error e => simp [h, hv]
    | ok power => simp [h, hv, hlt, eq_comm]

theorem Gate.changeAdmin_of_error {g g' : Gate} {caller new : Address} {e : BridgeError}
    (h : g.changeAdmin caller new = (.error e, g')) : g' = g := by
  unfold changeAdmin at h
  split at h
  · exact (Prod.mk.inj h).2.symm
  · split at h
    · exact (Prod.mk.inj h).2.symm
    · cases (Prod.mk.inj h).1

theorem Executor.lastNonce_empty (token : Address) : empty.lastNonce token = 0 := rfl

theorem Executor.lastNonce_advance_self (x : Executor) (batch : Batch) :
    (x.advance batch).lastNonce batch.token = batch.nonce := by
  simp [lastNonce, advance]

theorem Executor.lastNonce_advance_of_ne (x : Executor) {batch : Batch} {token : Address}
    (h : batch.token ≠ token) : (x.advance batch).lastNonce token = x.lastNonce token := by
  simp [lastNonce, advance, Table.get?_insert_of_ne _ h.symm]

theorem Executor.execute_eq_ok_iff [Custody C] {x x' : Executor} {registry : Registry}
    {batch : Batch} {signatures : SignatureSet} {custody custody' : C} {custodian relayer : Address} :
    x.execute registry batch signatures custody custodian relayer = (.ok (), x', custody') ↔
      x.lastNonce batch.token < batch.nonce ∧
        (∃ power, registry.verify signatures (batch.signingDigest registry.bridgeId) = .ok power) ∧
        (∃ fee, batch.totalFee = .ok fee ∧
          Custody.transferAll custody batch.token custodian (batch.transfers relayer fee) =
            (.ok (), custody')) ∧
        x' = x.advance batch := by
  unfold Executor.execute
  by_cases h : batch.nonce ≤ x.lastNonce batch.token
  · simp [h, UInt64.not_lt.2 h]
  · have hlt := UInt64.not_le.1 h
    cases hv : registry.verify signatures (batch.signingDigest registry.bridgeId) with
    | error e => simp [h]
    | ok power =>
      cases hf : batch.totalFee with
      | error e => simp [h]
      | ok fee =>
        rcases ht : Custody.transferAll custody batch.token custodian (batch.transfers relayer fee)
          with ⟨_ | _, after⟩ <;> simp [h, ht, hlt, eq_comm, and_comm]

namespace Bridge

section

variable {α : Type} {b b' : Bridge C} {e : BridgeError}

def commit (b : Bridge C) :
    Except BridgeError (α × Event) × BridgeState × C → Except BridgeError α × Bridge C
  | (.error e, _, _) => (.error e, b)
  | (.ok (answer, event), state, custody) =>
    (.ok answer, { b with state := some state, custody, journal := b.journal ++ [event] })

theorem transact_of_none {entry : EntryPoint} (he : entry ≠ .probe) (h : b.state = none)
    (body : BridgeState → C → Except BridgeError (α × Event) × BridgeState × C) :
    b.transact entry body = (.error .notInitialized, b) := by
  simp [transact, Gate.ensureSupported_eq_ok _ he, ready, h]

theorem transact_of_some {entry : EntryPoint} (he : entry ≠ .probe) {state : BridgeState}
    (h : b.state = some state)
    (body : BridgeState → C → Except BridgeError (α × Event) × BridgeState × C) :
    b.transact entry body = b.commit (body state b.custody) := by
  simp only [transact, Gate.ensureSupported_eq_ok _ he, ready, h]
  rfl

theorem transact_eq_ok_iff {entry : EntryPoint} (he : entry ≠ .probe)
    {body : BridgeState → C → Except BridgeError (α × Event) × BridgeState × C} {answer : α} :
    b.transact entry body = (.ok answer, b') ↔
      ∃ state event state' custody, b.state = some state ∧
        body state b.custody = (.ok (answer, event), state', custody) ∧
        b' = { b with state := some state', custody, journal := b.journal ++ [event] } := by
  cases h : b.state with
  | none => simp [transact_of_none he h]
  | some state =>
    rw [transact_of_some he h]
    rcases hb : body state b.custody with ⟨_ | ⟨answer', event⟩, state', custody⟩
    · simp [hb, commit]
    · simp [hb, commit, eq_comm, and_assoc]

theorem transact_error {entry : EntryPoint}
    {body : BridgeState → C → Except BridgeError (α × Event) × BridgeState × C}
    (h : (b.transact entry body).1 = .error e) : (b.transact entry body).2 = b := by
  unfold transact at h ⊢
  split
  · rfl
  · split
    · rfl
    · split
      · rfl
      · simp_all

theorem start_of_error {id : BridgeId} {basisPoints : UInt32} {addresses : List Address}
    {powers : List UInt64} (h : (b.start id basisPoints addresses powers).1 = .error e) :
    (b.start id basisPoints addresses powers).2 = b := by
  unfold start at h ⊢
  split
  · rfl
  · split
    · rfl
    · split
      · rfl
      · split
        · rfl
        · simp_all

theorem changeAdmin_of_error {caller new : Address} (h : (b.changeAdmin caller new).1 = .error e) :
    (b.changeAdmin caller new).2 = b := by
  unfold changeAdmin at h ⊢
  split
  · rename_i hgate
    rw [Gate.changeAdmin_of_error hgate]
  · simp_all

theorem upgrade_of_error {caller : Address} {version : Implementation}
    (h : (b.upgrade caller version).1 = .error e) : (b.upgrade caller version).2 = b := by
  unfold upgrade at h ⊢
  split
  · rfl
  · split
    · rfl
    · simp_all

theorem error_of_answering {wrap : α → Answer} {outcome : Except BridgeError α × Bridge C}
    (h : (answering wrap outcome).1 = .error e) : outcome.1 = .error e := by
  rcases outcome with ⟨e' | a, after⟩
  · simpa [answering, Except.map] using h
  · cases h

end

variable [Custody C]

/-- What a call does where it succeeds, and on which conditions it does. The parts of the bridge
that a rule does not mention stay as they are. -/
inductive Effect (b : Bridge C) : Call → Answer → Bridge C → Prop
  | start {id : BridgeId} {basisPoints : UInt32} {addresses : List Address} {powers : List UInt64}
      {threshold : PowerThreshold} {vs : ValidatorSet} (fresh : b.state = none)
      (threshold_eq : PowerThreshold.ofBasisPoints basisPoints = .ok threshold)
      (set_eq : ValidatorSet.ofParts addresses powers = .ok vs) :
      Effect b (.start id basisPoints addresses powers) (.checkpoint (Checkpoint.compute id vs 0))
        { b with
          state := some (.new (.genesis id threshold vs))
          journal := b.journal ++ [.validatorSetUpdated (Commitment.checkpoint id vs 0) 0] }
  | deposit {sender token : Address} {bytes : Bytes} {amount : UInt256} {state : BridgeState}
      {destination : Destination} {custody : C} {record : Deposit} {ledger : Ledger}
      (ready : b.state = some state) (destination_eq : Destination.ofBytes bytes = .ok destination)
      (amount_ne : amount ≠ .zero) (sender_ne : sender ≠ b.account)
      (moved : Custody.transfer b.custody token sender b.account amount = (.ok (), custody))
      (recorded : state.ledger.record token sender destination amount = (.ok record, ledger)) :
      Effect b (.deposit sender token bytes amount) (.deposit record)
        { b with
          state := some { state with ledger }
          custody
          journal := b.journal ++ [.deposit record] }
  | rotate {addresses : List Address} {powers : List UInt64} {nonce : UInt64}
      {signatures : SignatureSet} {state : BridgeState} {vs : ValidatorSet}
      {checkpoint : Checkpoint} {registry : Registry} (ready : b.state = some state)
      (set_eq : ValidatorSet.ofParts addresses powers = .ok vs)
      (rotated : state.registry.rotate vs nonce signatures = (.ok checkpoint, registry)) :
      Effect b (.rotate addresses powers nonce signatures) (.checkpoint checkpoint)
        { b with
          state := some { state with registry }
          journal := b.journal ++ [.validatorSetUpdated checkpoint.commitment checkpoint.nonce] }
  | submitBatch {relayer token : Address} {payouts : List Payout} {nonce : UInt64}
      {signatures : SignatureSet} {state : BridgeState} {executor : Executor} {custody : C}
      (payouts_ne : payouts ≠ []) (ready : b.state = some state)
      (executed : state.executor.execute state.registry ⟨token, payouts, nonce⟩ signatures b.custody
        b.account relayer = (.ok (), executor, custody)) :
      Effect b (.submitBatch relayer token payouts nonce signatures) .done
        { b with
          state := some { state with executor }
          custody
          journal := b.journal ++ [.batchExecuted token nonce] }
  | executeBatch {relayer : Address} {batch : Batch} {signatures : SignatureSet}
      {state : BridgeState} {executor : Executor} {custody : C} (ready : b.state = some state)
      (executed : state.executor.execute state.registry batch signatures b.custody b.account
        relayer = (.ok (), executor, custody)) :
      Effect b (.executeBatch relayer batch signatures) .done
        { b with
          state := some { state with executor }
          custody
          journal := b.journal ++ [.batchExecuted batch.token batch.nonce] }
  | changeAdmin {new : Address} (new_ne : new.isZero = false) :
      Effect b (.changeAdmin b.gate.admin new) .done
        { b with
          gate := { b.gate with admin := new }
          journal := b.journal ++ [.adminChanged b.gate.admin new] }
  | upgrade {version : Implementation} (checked : b.checkState = .ok ()) :
      Effect b (.upgrade b.gate.admin version) .done
        { b with
          gate := { b.gate with implementation := version }
          journal := b.journal ++ [.upgraded version.number] }

variable {b b' : Bridge C}

omit [Custody C] in
theorem ensureSupported_start : b.gate.ensureSupported .start = .ok () :=
  b.gate.ensureSupported_eq_ok (by decide)

theorem start_eq_ok_iff {id : BridgeId} {basisPoints : UInt32} {addresses : List Address}
    {powers : List UInt64} {checkpoint : Checkpoint} :
    b.start id basisPoints addresses powers = (.ok checkpoint, b') ↔
      b.Effect (.start id basisPoints addresses powers) (.checkpoint checkpoint) b' := by
  constructor
  · intro h
    cases hs : b.state with
    | some state =>
      simp [start, ensureSupported_start, hs] at h
    | none =>
      cases ht : PowerThreshold.ofBasisPoints basisPoints with
      | error e =>
        simp [start, ensureSupported_start, hs, ht] at h
      | ok threshold =>
        cases hv : ValidatorSet.ofParts addresses powers with
        | error e =>
          simp [start, ensureSupported_start, hs, ht, hv] at h
        | ok vs =>
          simp [start, ensureSupported_start, hs, ht, hv] at h
          obtain ⟨rfl, rfl⟩ := h
          exact .start hs ht hv
  · intro h
    cases h with
    | start hs ht hv =>
      simp only [start, ensureSupported_start, hs, ht, hv, Option.isSome_none, Bool.false_eq_true,
        if_false]
      rfl

theorem deposit_eq_ok_iff {sender token : Address} {bytes : Bytes} {amount : UInt256}
    {record : Deposit} :
    b.deposit sender token bytes amount = (.ok record, b') ↔
      b.Effect (.deposit sender token bytes amount) (.deposit record) b' := by
  rw [deposit, transact_eq_ok_iff (by decide)]
  constructor
  · rintro ⟨state, event, state', custody, ready, h, rfl⟩
    unfold recordDeposit at h
    split at h
    · simp at h
    · rename_i destination hd
      split at h
      · simp at h
      · rename_i ha
        split at h
        · simp at h
        · rename_i hs
          split at h
          · simp at h
          · rename_i moved ht
            split at h
            · simp at h
            · rename_i record' ledger hr
              simp only [Except.ok.injEq, Prod.mk.injEq] at h
              obtain ⟨⟨rfl, rfl⟩, rfl, rfl⟩ := h
              exact .deposit ready hd ha hs ht hr
  · intro h
    cases h with
    | deposit ready hd ha hs ht hr =>
      exact ⟨_, _, _, _, ready, by simp only [recordDeposit, hd, ha, hs, ht, hr, if_false], rfl⟩

theorem rotate_eq_ok_iff {addresses : List Address} {powers : List UInt64} {nonce : UInt64}
    {signatures : SignatureSet} {checkpoint : Checkpoint} :
    b.rotate addresses powers nonce signatures = (.ok checkpoint, b') ↔
      b.Effect (.rotate addresses powers nonce signatures) (.checkpoint checkpoint) b' := by
  rw [rotate, transact_eq_ok_iff (by decide)]
  constructor
  · rintro ⟨state, event, state', custody, ready, h, rfl⟩
    unfold replaceSet at h
    split at h
    · simp at h
    · rename_i vs hv
      split at h
      · simp at h
      · rename_i checkpoint' registry hr
        simp only [Except.ok.injEq, Prod.mk.injEq] at h
        obtain ⟨⟨rfl, rfl⟩, rfl, rfl⟩ := h
        exact .rotate ready hv hr
  · intro h
    cases h with
    | rotate ready hv hr => exact ⟨_, _, _, _, ready, by simp only [replaceSet, hv, hr], rfl⟩

theorem executeBatch_eq_ok_iff {relayer : Address} {batch : Batch} {signatures : SignatureSet} :
    b.executeBatch relayer batch signatures = (.ok (), b') ↔
      b.Effect (.executeBatch relayer batch signatures) .done b' := by
  rw [executeBatch, transact_eq_ok_iff (by decide)]
  constructor
  · rintro ⟨state, event, state', custody, ready, h, rfl⟩
    unfold settle at h
    split at h
    · simp at h
    · rename_i executor after hx
      simp only [Except.ok.injEq, Prod.mk.injEq, true_and] at h
      obtain ⟨rfl, rfl, rfl⟩ := h
      exact .executeBatch ready hx
  · intro h
    cases h with
    | executeBatch ready hx => exact ⟨_, _, _, _, ready, by simp only [settle, hx], rfl⟩

theorem submitBatch_eq_ok_iff {relayer token : Address} {payouts : List Payout} {nonce : UInt64}
    {signatures : SignatureSet} :
    b.submitBatch relayer token payouts nonce signatures = (.ok (), b') ↔
      b.Effect (.submitBatch relayer token payouts nonce signatures) .done b' := by
  constructor
  · intro h
    by_cases hp : payouts = []
    · simp [submitBatch, Batch.ofPayouts, hp] at h
    · simp only [submitBatch, Batch.ofPayouts, hp, if_false, executeBatch_eq_ok_iff] at h
      cases h with
      | executeBatch ready hx => exact .submitBatch hp ready hx
  · intro h
    cases h with
    | submitBatch hp ready hx =>
      simp only [submitBatch, Batch.ofPayouts, hp, if_false]
      exact executeBatch_eq_ok_iff.2 (.executeBatch ready hx)

theorem changeAdmin_eq_ok_iff {caller new : Address} :
    b.changeAdmin caller new = (.ok (), b') ↔ b.Effect (.changeAdmin caller new) .done b' := by
  constructor
  · intro h
    by_cases hc : caller = b.gate.admin
    · subst hc
      cases hz : new.isZero with
      | true => simp [changeAdmin, Gate.changeAdmin, Gate.ensureAdmin, hz] at h
      | false =>
        simp only [changeAdmin, Gate.changeAdmin, Gate.ensureAdmin, hz, if_true] at h
        cases h
        exact .changeAdmin hz
    · simp [changeAdmin, Gate.changeAdmin, Gate.ensureAdmin, hc] at h
  · intro h
    cases h with
    | changeAdmin hz => simp [changeAdmin, Gate.changeAdmin, Gate.ensureAdmin, hz]

theorem upgrade_eq_ok_iff {caller : Address} {version : Implementation} :
    b.upgrade caller version = (.ok (), b') ↔ b.Effect (.upgrade caller version) .done b' := by
  constructor
  · intro h
    by_cases hc : caller = b.gate.admin
    · subst hc
      cases hk : b.checkState with
      | error e => simp [upgrade, Gate.upgrade, Gate.ensureAdmin, hk] at h
      | ok done =>
        simp only [upgrade, Gate.upgrade, Gate.ensureAdmin, hk, if_true] at h
        cases h
        exact .upgrade hk
    · simp [upgrade, Gate.upgrade, Gate.ensureAdmin, hc] at h
  · intro h
    cases h with
    | upgrade hk => simp [upgrade, Gate.upgrade, Gate.ensureAdmin, hk]

theorem answering_eq_ok_iff {α : Type} {wrap : α → Answer}
    {outcome : Except BridgeError α × Bridge C} {c : Call} {answer : Answer}
    (ho : ∀ a, outcome = (.ok a, b') ↔ b.Effect c (wrap a) b')
    (hw : b.Effect c answer b' → ∃ a, wrap a = answer) :
    answering wrap outcome = (.ok answer, b') ↔ b.Effect c answer b' := by
  constructor
  · intro h
    rcases outcome with ⟨_ | a, after⟩ <;> simp only [answering, Except.map, Prod.mk.injEq,
      reduceCtorEq, false_and, Except.ok.injEq] at h
    obtain ⟨rfl, rfl⟩ := h
    exact (ho a).1 rfl
  · intro h
    obtain ⟨a, rfl⟩ := hw h
    rw [(ho a).2 h]
    rfl

/-- The rules above are all there is to a successful call. -/
theorem call_eq_ok_iff {c : Call} {answer : Answer} :
    b.call c = (.ok answer, b') ↔ b.Effect c answer b' := by
  cases c with
  | start => exact answering_eq_ok_iff (fun _ ↦ start_eq_ok_iff) (by rintro ⟨⟩; exact ⟨_, rfl⟩)
  | deposit => exact answering_eq_ok_iff (fun _ ↦ deposit_eq_ok_iff) (by rintro ⟨⟩; exact ⟨_, rfl⟩)
  | rotate => exact answering_eq_ok_iff (fun _ ↦ rotate_eq_ok_iff) (by rintro ⟨⟩; exact ⟨_, rfl⟩)
  | submitBatch =>
    exact answering_eq_ok_iff (fun _ ↦ submitBatch_eq_ok_iff) (by rintro ⟨⟩; exact ⟨(), rfl⟩)
  | executeBatch =>
    exact answering_eq_ok_iff (fun _ ↦ executeBatch_eq_ok_iff) (by rintro ⟨⟩; exact ⟨(), rfl⟩)
  | changeAdmin =>
    exact answering_eq_ok_iff (fun _ ↦ changeAdmin_eq_ok_iff) (by rintro ⟨⟩; exact ⟨(), rfl⟩)
  | upgrade => exact answering_eq_ok_iff (fun _ ↦ upgrade_eq_ok_iff) (by rintro ⟨⟩; exact ⟨(), rfl⟩)

theorem effect_of_ok {c : Call} {answer : Answer} (h : (b.call c).1 = .ok answer) :
    b.Effect c answer (b.call c).2 :=
  call_eq_ok_iff.1 (Prod.ext h rfl)

theorem submitBatch_of_error {e : BridgeError} {relayer token : Address} {payouts : List Payout}
    {nonce : UInt64} {signatures : SignatureSet}
    (h : (b.submitBatch relayer token payouts nonce signatures).1 = .error e) :
    (b.submitBatch relayer token payouts nonce signatures).2 = b := by
  unfold submitBatch at h ⊢
  split
  · rfl
  · rename_i batch hb
    simp only [hb] at h
    exact transact_error h

theorem call_of_error {e : BridgeError} {c : Call} (h : (b.call c).1 = .error e) :
    (b.call c).2 = b := by
  cases c with
  | start => exact start_of_error (error_of_answering h)
  | deposit => exact transact_error (error_of_answering h)
  | rotate => exact transact_error (error_of_answering h)
  | submitBatch => exact submitBatch_of_error (error_of_answering h)
  | executeBatch => exact transact_error (error_of_answering h)
  | changeAdmin => exact changeAdmin_of_error (error_of_answering h)
  | upgrade => exact upgrade_of_error (error_of_answering h)

end Bridge

end TokenBridge
