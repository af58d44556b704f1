import TokenBridge.Json.Values
import TokenBridge.Proofs.Borsh.Recovery
import TokenBridge.Proofs.Bridge.Replay
import TokenBridge.Proofs.Bridge.Trust

namespace TokenBridge

namespace Batch

inductive Assembled : Batch → Prop
  | ofPayouts {batch : Batch} {token : Address} {payouts : List Payout} {nonce : UInt64}
      (h : Batch.ofPayouts token payouts nonce = .ok batch) : Assembled batch
  | ofParts {batch : Batch} {token : Address} {amounts : List UInt256}
      {destinations : List Address} {fees : List UInt256} {nonce : UInt64}
      (h : Batch.ofParts token amounts destinations fees nonce = .ok batch) : Assembled batch

inductive Decoded : Batch → Prop
  | borsh {batch : Batch} {input : Bytes} (h : Borsh.Format.batch.read input = .ok batch) :
      Decoded batch
  | json {batch : Batch} {text : String} (h : Json.Format.batch.ofText? text = some batch) :
      Decoded batch

theorem assembled_iff {batch : Batch} : batch.Assembled ↔ batch.payouts ≠ [] := by
  constructor
  · intro h
    cases h with
    | ofPayouts h =>
      obtain ⟨hne, rfl⟩ := ofPayouts_eq_ok_iff.1 h
      exact hne
    | ofParts h =>
      unfold ofParts at h
      split at h
      · cases h
      · obtain ⟨hne, rfl⟩ := ofPayouts_eq_ok_iff.1 h
        exact hne
  · intro h
    exact .ofPayouts (ofPayouts_eq_ok_iff.2 ⟨h, rfl⟩)

theorem decoded_of_length_lt {batch : Batch} (h : batch.payouts.length < UInt32.size) :
    batch.Decoded :=
  .borsh (Borsh.Format.batch_recovers h).read_encode

theorem totalFee_of_empty {batch : Batch} (h : batch.payouts = []) : batch.totalFee = .ok .zero := by
  rw [totalFee, h]
  rfl

theorem transfers_of_empty {batch : Batch} (h : batch.payouts = []) (relayer : Address) :
    batch.transfers relayer .zero = [] := by
  rw [transfers, h]
  rfl

end Batch

variable {C ε : Type} [Custody C] {world : ε → C → C}

theorem Executor.execute_empty_iff {x x' : Executor} {registry : Registry} {batch : Batch}
    (hbatch : batch.payouts = []) {signatures : SignatureSet} {custody custody' : C}
    {custodian relayer : Address} :
    x.execute registry batch signatures custody custodian relayer = (.ok (), x', custody') ↔
      x.lastNonce batch.token < batch.nonce ∧
        registry.Approves signatures (batch.signingDigest registry.bridgeId) ∧
        x' = x.advance batch ∧ custody' = custody := by
  -- Without payouts there are no fees either, so that no transfer is tried that could fail.
  have hfee := Batch.totalFee_of_empty hbatch
  have hpaid : Custody.transferAll custody batch.token custodian (batch.transfers relayer .zero) =
      (.ok (), custody) := by
    rw [Batch.transfers_of_empty hbatch]
    rfl
  rw [execute_eq_ok_iff, Registry.Approves, ← ValidatorSet.exists_verify_eq_ok_iff]
  refine and_congr_right fun _ ↦ and_congr_right fun _ ↦ ⟨?_, ?_⟩
  · rintro ⟨⟨fee, hfee', hpaid'⟩, rfl⟩
    obtain rfl : UInt256.zero = fee := by simpa [hfee] using hfee'
    rw [hpaid] at hpaid'
    exact ⟨rfl, (congrArg Prod.snd hpaid').symm⟩
  · rintro ⟨rfl, rfl⟩
    exact ⟨⟨.zero, hfee, hpaid⟩, rfl⟩

namespace Bridge

variable {b b' : Bridge C}

theorem executeBatch_empty_iff {relayer : Address} {batch : Batch} (hbatch : batch.payouts = [])
    {signatures : SignatureSet} :
    b.executeBatch relayer batch signatures = (.ok (), b') ↔
      ∃ state, b.state = some state ∧ state.executor.lastNonce batch.token < batch.nonce ∧
        state.registry.Approves signatures (batch.signingDigest state.registry.bridgeId) ∧
        b' = { b with
          state := some { state with executor := state.executor.advance batch }
          journal := b.journal ++ [.batchExecuted batch.token batch.nonce] } := by
  rw [executeBatch_eq_ok_iff]
  constructor
  · intro h
    cases h with
    | executeBatch ready executed =>
      obtain ⟨hlt, approved, rfl, rfl⟩ := (Executor.execute_empty_iff hbatch).1 executed
      exact ⟨_, ready, hlt, approved, rfl⟩
  · rintro ⟨state, ready, hlt, approved, rfl⟩
    exact .executeBatch ready ((Executor.execute_empty_iff hbatch).2 ⟨hlt, approved, rfl, rfl⟩)

theorem Effect.executes_of_empty {c : Call} {answer : Answer} {p : Payment}
    (h : b.Effect c answer b') (hp : c.payment? = some p) (hempty : p.batch.payouts = []) :
    c = .executeBatch p.relayer p.batch p.signatures := by
  cases h with
  | submitBatch payouts_ne =>
    cases hp
    exact absurd hempty payouts_ne
  | executeBatch =>
    cases hp
    rfl
  | _ => cases hp

/-- That there is something to pay is settled where a batch is assembled, and nowhere else: a batch
of nothing that was read is as good as any other. -/
theorem empty_batch_paid_iff_approved (account admin : Address) (custody : C) (world : ε → C → C)
    (steps : List (Step ε)) :
    let b := (new account admin custody).reach world steps
    (∀ c answer p, (b.call c).1 = .ok answer → c.payment? = some p → p.batch.payouts = [] →
      c = .executeBatch p.relayer p.batch p.signatures ∧ ¬ p.batch.Assembled) ∧
    (∀ relayer token nonce signatures, ∃ e,
      b.submitBatch relayer token [] nonce signatures = (.error e, b) ∧ e.kind = .invalidInput) ∧
    ∀ batch : Batch, batch.payouts = [] → batch.Decoded ∧
      ∀ relayer signatures b', b.executeBatch relayer batch signatures = (.ok (), b') ↔
        ∃ state, b.state = some state ∧ state.executor.lastNonce batch.token < batch.nonce ∧
          state.registry.Approves signatures (batch.signingDigest state.registry.bridgeId) ∧
          b' = { b with
            state := some { state with executor := state.executor.advance batch }
            journal := b.journal ++ [.batchExecuted batch.token batch.nonce] } := by
  intro b
  refine ⟨?_, ?_, ?_⟩
  · intro c answer p h hp hempty
    have hassembled : ¬ p.batch.Assembled := fun ha ↦ Batch.assembled_iff.1 ha hempty
    exact ⟨(effect_of_ok h).executes_of_empty hp hempty, hassembled⟩
  · intro relayer token nonce signatures
    exact ⟨.data .emptyBatch, rfl, rfl⟩
  · intro batch hbatch
    have hlength : batch.payouts.length < UInt32.size := by
      rw [hbatch]
      decide
    exact ⟨Batch.decoded_of_length_lt hlength, fun _ _ _ ↦ executeBatch_empty_iff hbatch⟩

def ferryNothing : Batch := ⟨ferryToken, [], 1⟩

def ferryNothingText : String := "[\"00000000000000000000000000000000000000ee\",[],1]"

def ferryNothingSignatures : SignatureSet :=
  ⟨[some ⟨ferryman, {
    r := FixedBytes.ofNat 32 0xdd324ec646c3957bd9e1ad7938962dd1fdb8941d563dd0dd54a9d15d68b756c0
    s := FixedBytes.ofNat 32 0x3c6b5385dfed1027d5e31a7639668f16717ee57c412adec19c119fc6e4f0da9d
    v := 27 }⟩]⟩

def ferryIdling : Call :=
  .executeBatch (FixedBytes.ofNat 20 0x33) ferryNothing ferryNothingSignatures

theorem ferry_idles :
    ((ferry.reach (fun funds _ ↦ funds) ferrySteps).call ferryIdling).1 = .ok .done :=
  toOption_eq_some_iff.1 (by decide +kernel)

/-- A batch of nothing, which bytes and texts can hold, takes the first nonce of its token. -/
theorem ferry_empty_batch_paid :
    let b := ferry.reach (fun funds _ ↦ funds) ferrySteps
    Borsh.Format.batch.read (ferryToken.bytes ++ [0, 0, 0, 0] ++ [1, 0, 0, 0, 0, 0, 0, 0]) =
        .ok ferryNothing ∧
      Json.Format.batch.ofText? ferryNothingText = some ferryNothing ∧
      ferryNothing.payouts = [] ∧ (b.call ferryIdling).1 = .ok .done ∧
      b.lastBatchNonce ferryToken = .ok 0 ∧
      (b.call ferryIdling).2.lastBatchNonce ferryToken = .ok 1 := by
  intro b
  have idled : (b.perform (fun funds _ ↦ funds) (.call ferryIdling)).state = some _ :=
    state_of_payment ferry_idles rfl ferry_started
  have last_eq : b.lastBatchNonce ferryToken = .ok 0 :=
    lastBatchNonce_of_state ferry_started ferryToken
  have last_eq' : (b.call ferryIdling).2.lastBatchNonce ferryToken = .ok 1 := by
    rw [perform] at idled
    rw [lastBatchNonce_of_state idled]
    exact congrArg Except.ok (Executor.lastNonce_advance_self _ ferryNothing)
  exact ⟨rfl, by decide +kernel, rfl, ferry_idles, last_eq, last_eq'⟩

end Bridge

end TokenBridge
