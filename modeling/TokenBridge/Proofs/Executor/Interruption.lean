import TokenBridge.Proofs.Custody.Conservation
import TokenBridge.Proofs.Executor.Settlement

namespace TokenBridge

/-- Transfers stop at one that fails, and what was moved before it stays moved. -/
theorem Balances.transferAll_of_error {b b' : Balances} {token sender : Address}
    {transfers : List (Address × UInt256)} {e : CustodyError}
    (h : Custody.transferAll b token sender transfers = (.error e, b')) :
    ∃ made recipient amount rest, transfers = made ++ (recipient, amount) :: rest ∧
      Custody.transferAll b token sender made = (.ok (), b') ∧
      b'.transfer token sender recipient amount = (.error e, b') := by
  induction transfers generalizing b with
  | nil => cases h
  | cons transfer later ih =>
    obtain ⟨recipient, amount⟩ := transfer
    rw [Custody.transferAll, custody_transfer] at h
    rcases hfirst : b.transfer token sender recipient amount with ⟨cause | _, between⟩ <;>
      rw [hfirst] at h
    · cases h
      obtain rfl := transfer_of_error hfirst
      exact ⟨[], recipient, amount, later, rfl, rfl, hfirst⟩
    · obtain ⟨made, recipient', amount', rest, hsplit, hmade, hfailed⟩ := ih h
      exact ⟨(recipient, amount) :: made, recipient', amount', rest, congrArg _ hsplit,
        transferAll_cons.2 ⟨between, hfirst, hmade⟩, hfailed⟩

namespace Executor

variable {x x' : Executor} {registry : Registry} {batch : Batch} {signatures : SignatureSet}
  {funds funds' : Balances} {custodian relayer : Address}

theorem execute_eq_custody_iff {cause : CustodyError} :
    x.execute registry batch signatures funds custodian relayer =
        (.error (.custody cause), x', funds') ↔
      x.lastNonce batch.token < batch.nonce ∧
        (∃ power, registry.verify signatures (batch.signingDigest registry.bridgeId) = .ok power) ∧
        (∃ fee, batch.totalFee = .ok fee ∧
          Custody.transferAll funds batch.token custodian (batch.transfers relayer fee) =
            (.error cause, funds')) ∧
        x' = x.advance batch := by
  unfold execute
  by_cases h : batch.nonce ≤ x.lastNonce batch.token
  · simp [h, UInt64.not_lt.2 h]
  · have hlt := UInt64.not_le.1 h
    cases hv : registry.verify signatures (batch.signingDigest registry.bridgeId) with
    | error e => simp [h]
    | ok power =>
      cases hf : batch.totalFee with
      | error e => simp [h]
      | ok fee =>
        rcases ht : Custody.transferAll funds batch.token custodian (batch.transfers relayer fee)
          with ⟨_ | _, after⟩ <;> simp [h, ht, hlt, eq_comm, and_comm, and_left_comm, and_assoc]

/-- Up to the point where the nonce is taken there is nothing to undo. -/
theorem execute_of_error {e : BridgeError} (hcause : ∀ cause, e ≠ .custody cause)
    (h : x.execute registry batch signatures funds custodian relayer = (.error e, x', funds')) :
    x' = x ∧ funds' = funds := by
  unfold execute at h
  dsimp only at h
  split at h
  · cases h
    exact ⟨rfl, rfl⟩
  · split at h
    · cases h
      exact ⟨rfl, rfl⟩
    · split at h
      · cases h
        exact ⟨rfl, rfl⟩
      · split at h
        · cases h
          exact absurd rfl (hcause _)
        · cases h

theorem execute_stale (h : batch.nonce ≤ x.lastNonce batch.token) (registry : Registry)
    (signatures : SignatureSet) (funds : Balances) (custodian relayer : Address) :
    x.execute registry batch signatures funds custodian relayer =
      (.error (.staleBatchNonce batch.token batch.nonce (x.lastNonce batch.token)), x, funds) :=
  if_pos h

end Executor

structure Submission where
  registry : Registry
  batch : Batch
  signatures : SignatureSet
  custodian : Address
  relayer : Address

structure Trial where
  executor : Executor
  funds : Balances
  submission : Submission

namespace Trial

variable (t : Trial)

def token : Address := t.submission.batch.token

def nonce : UInt64 := t.submission.batch.nonce

def outcome : Except BridgeError Unit × Executor × Balances :=
  t.executor.execute t.submission.registry t.submission.batch t.submission.signatures t.funds
    t.submission.custodian t.submission.relayer

def answer : Except BridgeError Unit := t.outcome.1

def executorAfter : Executor := t.outcome.2.1

def fundsAfter : Balances := t.outcome.2.2

def ChangesBalance : Prop :=
  ∃ token holder, t.fundsAfter.balance token holder ≠ t.funds.balance token holder

/-- Of the payouts in their order, and the fees after them if there are any, those stay made that
come before the one that fails. -/
def Interrupted (cause : CustodyError) : Prop :=
  ∃ fee made recipient amount rest, t.submission.batch.totalFee = .ok fee ∧
    (t.submission.batch.payouts.map fun p ↦ (p.destination, p.amount)) ++
      (if fee = .zero then [] else [(t.submission.relayer, fee)]) =
        made ++ (recipient, amount) :: rest ∧
    Custody.transferAll t.funds t.token t.submission.custodian made = (.ok (), t.fundsAfter) ∧
    t.fundsAfter.transfer t.token t.submission.custodian recipient amount =
      (.error cause, t.fundsAfter)

variable {t}

theorem outcome_eq {answer : Except BridgeError Unit} (h : t.answer = answer) :
    t.outcome = (answer, t.executorAfter, t.fundsAfter) := by
  rw [← h]
  rfl

theorem unchanged_of_error {e : BridgeError} (h : t.answer = .error e)
    (hcause : ∀ cause, e ≠ .custody cause) :
    t.executorAfter = t.executor ∧ t.fundsAfter = t.funds :=
  Executor.execute_of_error hcause (outcome_eq h)

theorem executorAfter_of_custody_error {cause : CustodyError}
    (h : t.answer = .error (.custody cause)) :
    t.executorAfter = t.executor.advance t.submission.batch := by
  obtain ⟨_, _, _, taken⟩ := Executor.execute_eq_custody_iff.1 (outcome_eq h)
  exact taken

theorem interrupted_of_custody_error {cause : CustodyError}
    (h : t.answer = .error (.custody cause)) : t.Interrupted cause := by
  obtain ⟨_, _, ⟨fee, counted, stopped⟩, _⟩ := Executor.execute_eq_custody_iff.1 (outcome_eq h)
  obtain ⟨made, recipient, amount, rest, split, moved, failed⟩ :=
    Balances.transferAll_of_error stopped
  exact ⟨fee, made, recipient, amount, rest, counted, split, moved, failed⟩

/-- A trial does nothing at all, or it takes a nonce that was not taken. -/
theorem unchanged_or_taken (t : Trial) :
    (t.executorAfter = t.executor ∧ t.fundsAfter = t.funds) ∨
      (t.executor.lastNonce t.token < t.nonce ∧
        t.executorAfter = t.executor.advance t.submission.batch) := by
  cases h : t.answer with
  | ok _ =>
    obtain ⟨fresh, _, _, taken⟩ := Executor.execute_eq_ok_iff.1 (outcome_eq h)
    exact .inr ⟨fresh, taken⟩
  | error e =>
    by_cases hcause : ∃ cause, e = .custody cause
    · obtain ⟨cause, rfl⟩ := hcause
      obtain ⟨fresh, _, _, taken⟩ := Executor.execute_eq_custody_iff.1 (outcome_eq h)
      exact .inr ⟨fresh, taken⟩
    · exact .inl (unchanged_of_error h (not_exists.1 hcause))

theorem lastNonce_of_taken (taken : t.executorAfter = t.executor.advance t.submission.batch) :
    t.executorAfter.lastNonce t.token = t.nonce := by
  rw [taken]
  exact t.executor.lastNonce_advance_self t.submission.batch

theorem lastNonce_of_ne (taken : t.executorAfter = t.executor.advance t.submission.batch)
    {token : Address} (hne : token ≠ t.token) :
    t.executorAfter.lastNonce token = t.executor.lastNonce token := by
  rw [taken]
  exact t.executor.lastNonce_advance_of_ne hne.symm

theorem lastNonce_le (t : Trial) (token : Address) :
    t.executor.lastNonce token ≤ t.executorAfter.lastNonce token := by
  obtain ⟨same, _⟩ | ⟨fresh, taken⟩ := t.unchanged_or_taken
  · rw [same]
    exact UInt64.le_refl _
  · by_cases ht : token = t.token
    · rw [ht, lastNonce_of_taken taken]
      exact UInt64.le_of_lt fresh
    · rw [lastNonce_of_ne taken ht]
      exact UInt64.le_refl _

theorem lastNonce_of_changesBalance (h : t.ChangesBalance) :
    t.executorAfter.lastNonce t.token = t.nonce := by
  obtain ⟨_, same⟩ | ⟨_, taken⟩ := t.unchanged_or_taken
  · obtain ⟨token, holder, hne⟩ := h
    rw [same] at hne
    exact absurd rfl hne
  · exact lastNonce_of_taken taken

theorem not_changesBalance_of_stale (h : t.nonce ≤ t.executor.lastNonce t.token) :
    ¬ t.ChangesBalance := by
  intro h
  obtain ⟨token, holder, hne⟩ := h
  obtain ⟨_, same⟩ | ⟨fresh, _⟩ := t.unchanged_or_taken
  · rw [same] at hne
    exact hne rfl
  · exact UInt64.not_lt.2 h fresh

theorem answer_of_stale (h : t.nonce ≤ t.executor.lastNonce t.token) :
    t.answer = .error (.staleBatchNonce t.token t.nonce (t.executor.lastNonce t.token)) :=
  congrArg Prod.fst (Executor.execute_stale h ..)

end Trial

namespace Executor

variable {x : Executor} {funds : Balances} {submissions : List Submission} {t : Trial}

/-- Submissions in turn, where each meets all that the one before has left, even if it failed. -/
def trials (x : Executor) (funds : Balances) : List Submission → List Trial
  | [] => []
  | s :: rest =>
    let t : Trial := ⟨x, funds, s⟩
    t :: trials t.executorAfter t.fundsAfter rest

theorem lastNonce_le_of_mem_trials (h : t ∈ x.trials funds submissions) (token : Address) :
    x.lastNonce token ≤ t.executor.lastNonce token := by
  induction submissions generalizing x funds with
  | nil => cases h
  | cons s rest ih =>
    obtain rfl | later := List.mem_cons.1 h
    · exact UInt64.le_refl _
    · exact UInt64.le_trans (Trial.lastNonce_le ⟨x, funds, s⟩ token) (ih later)

theorem pairwise_trials (x : Executor) (funds : Balances) (submissions : List Submission) :
    (x.trials funds submissions).Pairwise fun t t' ↦
      ∀ token, t.executorAfter.lastNonce token ≤ t'.executor.lastNonce token := by
  induction submissions generalizing x funds with
  | nil => exact .nil
  | cons s rest ih =>
    exact .cons (fun t' later ↦ lastNonce_le_of_mem_trials later) (ih _ _)

/-- An executor whose failures are not undone still pays for a nonce only once. It takes the nonce
when nothing but a transfer can fail any more, so that a batch that is interrupted keeps the
transfers made, and is stale when it comes again. -/
theorem nonce_spent_once :
    (∀ (t : Trial) e, t.answer = .error e → (∀ cause, e ≠ .custody cause) →
      t.executorAfter = t.executor ∧ t.fundsAfter = t.funds) ∧
    (∀ (t : Trial) cause, t.answer = .error (.custody cause) →
      t.executorAfter.lastNonce t.token = t.nonce ∧
      (∀ token, token ≠ t.token →
        t.executorAfter.lastNonce token = t.executor.lastNonce token) ∧
      t.Interrupted cause) ∧
    ∀ (x : Executor) funds submissions, (x.trials funds submissions).Pairwise fun t t' ↦
      t'.token = t.token → t'.nonce = t.nonce →
        (t.ChangesBalance → ¬ t'.ChangesBalance) ∧
        ∀ cause, t.answer = .error (.custody cause) →
          t'.answer =
            .error (.staleBatchNonce t'.token t'.nonce (t'.executor.lastNonce t'.token)) := by
  refine ⟨fun t e ↦ Trial.unchanged_of_error, ?_, ?_⟩
  · intro t cause h
    have taken := Trial.executorAfter_of_custody_error h
    exact ⟨Trial.lastNonce_of_taken taken, fun token ↦ Trial.lastNonce_of_ne taken,
      Trial.interrupted_of_custody_error h⟩
  · intro x funds submissions
    refine (x.pairwise_trials funds submissions).imp ?_
    intro t t' hle htoken hnonce
    -- whoever has spent the nonce before, it is not above the last one that the later trial meets
    have stale (spent : t.executorAfter.lastNonce t.token = t.nonce) :
        t'.nonce ≤ t'.executor.lastNonce t'.token := by
      rw [htoken, hnonce, ← spent]
      exact hle t.token
    constructor
    · intro changes
      exact Trial.not_changesBalance_of_stale (stale (Trial.lastNonce_of_changesBalance changes))
    · intro cause h
      have taken := Trial.executorAfter_of_custody_error h
      exact Trial.answer_of_stale (stale (Trial.lastNonce_of_taken taken))

open Bridge

def scarceFunds : Balances :=
  Balances.empty.set ferryToken (FixedBytes.ofNat 20 0xbb) (.ofUInt64 31)

def shortage : CustodyError :=
  .insufficientBalance ferryToken (FixedBytes.ofNat 20 0xbb) (.ofUInt64 1) (.ofUInt64 2)

def ferrySubmission (registry : Registry) : Submission :=
  ⟨registry, ferryBatch, ferrySignatures, FixedBytes.ofNat 20 0xbb, FixedBytes.ofNat 20 0x33⟩

theorem nonce_spent_once_ferry :
    ∃ registry : Registry,
      let first : Trial := ⟨empty, scarceFunds, ferrySubmission registry⟩
      let second : Trial := ⟨first.executorAfter, first.fundsAfter, ferrySubmission registry⟩
      first.answer = .error (.custody shortage) ∧
      first.executorAfter.lastNonce ferryToken = 5 ∧ first.Interrupted shortage ∧
      first.ChangesBalance ∧ ¬ second.ChangesBalance ∧
      second.answer = .error (.staleBatchNonce ferryToken 5 5) ∧
      second.executorAfter = second.executor ∧ second.fundsAfter = second.funds := by
  obtain ⟨unchanged, interrupted, once⟩ := nonce_spent_once
  -- which registry it is does not matter, and must not be computed
  obtain ⟨registry, approved⟩ : ∃ registry : Registry, ∃ power, registry.verify ferrySignatures
      (ferryBatch.signingDigest registry.bridgeId) = .ok power := ⟨_, ferry_approved⟩
  let submission := ferrySubmission registry
  let first : Trial := ⟨empty, scarceFunds, submission⟩
  let transfers := ferryBatch.transfers (FixedBytes.ofNat 20 0x33) ⟨2, by decide⟩
  have refused : (Custody.transferAll scarceFunds ferryToken (FixedBytes.ofNat 20 0xbb)
      transfers).1 = .error shortage := by decide
  have paid : (Custody.transferAll scarceFunds ferryToken (FixedBytes.ofNat 20 0xbb)
      transfers).2.balance ferryToken (FixedBytes.ofNat 20 0x21) ≠ .zero := by decide
  generalize moved : Custody.transferAll scarceFunds ferryToken (FixedBytes.ofNat 20 0xbb)
    transfers = result at refused paid
  obtain ⟨answer, left⟩ := result
  obtain rfl : answer = .error shortage := refused
  have fresh : empty.lastNonce ferryToken < 5 := by decide
  have stopped : first.outcome = (.error (.custody shortage), empty.advance ferryBatch, left) :=
    execute_eq_custody_iff.2 ⟨fresh, approved,
      ⟨⟨2, by decide⟩, Batch.totalFee_eq_ok_iff.2 rfl, moved⟩, rfl⟩
  have failed : first.answer = .error (.custody shortage) := congrArg Prod.fst stopped
  have fundsAfter : first.fundsAfter = left := congrArg (·.2.2) stopped
  obtain ⟨spent, _, stops⟩ := interrupted first _ failed
  have changes : first.ChangesBalance := by
    refine ⟨ferryToken, FixedBytes.ofNat 20 0x21, ?_⟩
    rw [fundsAfter]
    exact paid
  obtain ⟨apart, _⟩ := List.pairwise_cons.1 (once empty scarceFunds [submission, submission])
  obtain ⟨still, stale⟩ := apart _ (List.mem_singleton.2 rfl) rfl rfl
  have again := stale _ failed
  refine ⟨_, failed, spent, stops, changes, still changes, again.trans ?_,
    unchanged _ _ again (by simp)⟩
  exact congrArg (fun last ↦ Except.error (BridgeError.staleBatchNonce ferryToken 5 last)) spent

end Executor

end TokenBridge
