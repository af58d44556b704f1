import TokenBridge.Proofs.Borsh.Canonical
import Mathlib.Tactic.SplitIfs

namespace TokenBridge.Borsh.Format

variable {α β : Type} {f : Format α} {g : Format β}

theorem Total.pair (hf : f.Total) (hg : g.Total) : (f.pair g).Total :=
  (Canonical.pair hf hg).of_iff fun _ ↦ and_self_iff

theorem Total.option (hf : f.Total) : f.option.Total :=
  (Canonical.option hf).of_iff fun _ ↦ by simp

theorem Total.list (hf : f.Total) : f.list.Canonical fun as ↦ as.length < UInt32.size :=
  (Canonical.list hf).of_iff fun _ ↦ by simp

theorem address_total : address.Total := fixed_total 20

theorem word_total : word.Total := fixed_total 32

theorem bridgeId_total : bridgeId.Total := word_total.checked BridgeId.ofWord_eq_ok_iff

theorem threshold_total : threshold.Total :=
  uint32_total.checked PowerThreshold.ofBasisPoints_eq_ok_iff

theorem validator_total : validator.Total :=
  (address_total.pair uint64_total).via (fun _ ↦ rfl) fun _ ↦ rfl

theorem validatorSet_canonical : validatorSet.Canonical fun vs ↦ vs.members.length < UInt32.size :=
  validator_total.list.checked ValidatorSet.ofList_eq_ok_iff

theorem signature_total : signature.Total :=
  (word_total.pair (word_total.pair byte_total)).via (fun _ ↦ rfl) fun _ ↦ rfl

theorem attestation_total : attestation.Total :=
  (address_total.pair signature_total).via (fun _ ↦ rfl) fun _ ↦ rfl

theorem signatureSet_canonical : signatureSet.Canonical fun s ↦ s.slots.length < UInt32.size :=
  attestation_total.option.list.via (fun _ ↦ rfl) fun _ ↦ rfl

theorem checkpoint_total : checkpoint.Total :=
  (bridgeId_total.pair (uint64_total.pair word_total)).via (fun _ ↦ rfl) fun _ ↦ rfl

theorem destination_total : destination.Total := by
  refine Canonical.of_iff (byte_total.list.checked Destination.ofBytes_eq_ok_iff) fun d ↦ ?_
  have hlength : d.bytes.length < UInt32.size := Nat.lt_of_le_of_lt d.length_le (by decide)
  exact ⟨fun _ ↦ trivial, fun _ ↦ hlength⟩

theorem deposit_total : deposit.Total :=
  (address_total.pair (address_total.pair (destination_total.pair
    (uint256_total.pair uint64_total)))).via (fun _ ↦ rfl) fun _ ↦ rfl

theorem payout_total : payout.Total :=
  (address_total.pair (uint256_total.pair uint256_total)).via (fun _ ↦ rfl) fun _ ↦ rfl

theorem batch_canonical : batch.Canonical fun b ↦ b.payouts.length < UInt32.size := by
  have hfields := Canonical.pair address_total (Canonical.pair payout_total.list uint64_total)
  exact Canonical.of_iff (hfields.via (fun _ ↦ rfl) fun _ ↦ rfl) fun b ↦ by simp

theorem Total.decodeAs_encode (h : f.Total) (build : α → β) (a : α) (rest : Bytes) :
    f.decodeAs build (f.encode a ++ rest) = .ok (build a, rest) := by
  simp only [decodeAs, h.recovers trivial rest]

theorem Total.encode_of_decodeAs {build : α → β} {input rest : Bytes} {b : β} (h : f.Total)
    (hd : f.decodeAs build input = .ok (b, rest)) : ∃ a, build a = b ∧ f.encode a ++ rest = input := by
  obtain ⟨a, ha, rfl⟩ := decodeAs_eq_ok_iff.1 hd
  exact ⟨a, rfl, (h.consumes ha).2⟩

theorem event_total : event.Total where
  recovers {e} _ rest := by
    cases e with
    | deposit record => exact deposit_total.decodeAs_encode _ record rest
    | validatorSetUpdated checkpoint nonce =>
      exact (word_total.pair uint64_total).decodeAs_encode _ (checkpoint, nonce) rest
    | batchExecuted token nonce =>
      exact (address_total.pair uint64_total).decodeAs_encode _ (token, nonce) rest
    | adminChanged previous new =>
      exact (address_total.pair address_total).decodeAs_encode _ (previous, new) rest
    | upgraded version => exact uint64_total.decodeAs_encode _ version rest
  consumes {input e rest} hd := by
    refine ⟨trivial, ?_⟩
    rcases input with _ | ⟨tag, input⟩
    · cases hd
    · simp only [event, eventOf] at hd
      -- one case for each tag, and one for the tags that no kind of event has
      split_ifs at hd with htag htag htag htag htag
      · obtain ⟨record, rfl, rfl⟩ := deposit_total.encode_of_decodeAs hd
        rw [htag]
        rfl
      · obtain ⟨p, rfl, rfl⟩ := (word_total.pair uint64_total).encode_of_decodeAs hd
        rw [htag]
        rfl
      · obtain ⟨p, rfl, rfl⟩ := (address_total.pair uint64_total).encode_of_decodeAs hd
        rw [htag]
        rfl
      · obtain ⟨p, rfl, rfl⟩ := (address_total.pair address_total).encode_of_decodeAs hd
        rw [htag]
        rfl
      · obtain ⟨version, rfl, rfl⟩ := uint64_total.encode_of_decodeAs hd
        rw [htag]
        rfl

theorem entryPoint_total : entryPoint.Total :=
  oneOf_total (fun e ↦ by cases e <;> decide) (by decide) (by decide)

theorem implementation_total : implementation.Total :=
  oneOf_total (fun v ↦ by cases v <;> decide) (by decide) (by decide)

theorem ledger_total : ledger.Total := uint64_total.via (fun _ ↦ rfl) fun _ ↦ rfl

theorem gate_total : gate.Total :=
  (address_total.pair implementation_total).via (fun _ ↦ rfl) fun _ ↦ rfl

theorem registry_canonical :
    registry.Canonical fun r ↦ r.validators.members.length < UInt32.size := by
  have hfields :=
    Canonical.pair checkpoint_total (Canonical.pair validatorSet_canonical threshold_total)
  exact Canonical.of_iff (hfields.via (fun _ ↦ rfl) fun _ ↦ rfl) fun r ↦ by simp

/-- Every value that is not too long to be written comes back from its encoding, with the total power
of a validator set taken from the members that were read. An encoding is the only one of its value,
and neither a part of it nor what goes on behind it can be read. -/
theorem encodings_canonical :
    bridgeId.SelfDelimiting (fun _ ↦ True) ∧
    threshold.SelfDelimiting (fun _ ↦ True) ∧
    validator.SelfDelimiting (fun _ ↦ True) ∧
    validatorSet.SelfDelimiting (fun vs ↦ vs.members.length < UInt32.size) ∧
    signature.SelfDelimiting (fun _ ↦ True) ∧
    attestation.SelfDelimiting (fun _ ↦ True) ∧
    signatureSet.SelfDelimiting (fun s ↦ s.slots.length < UInt32.size) ∧
    checkpoint.SelfDelimiting (fun _ ↦ True) ∧
    destination.SelfDelimiting (fun _ ↦ True) ∧
    deposit.SelfDelimiting (fun _ ↦ True) ∧
    payout.SelfDelimiting (fun _ ↦ True) ∧
    batch.SelfDelimiting (fun b ↦ b.payouts.length < UInt32.size) ∧
    event.SelfDelimiting (fun _ ↦ True) ∧
    entryPoint.SelfDelimiting (fun _ ↦ True) ∧
    implementation.SelfDelimiting (fun _ ↦ True) ∧
    ledger.SelfDelimiting (fun _ ↦ True) ∧
    gate.SelfDelimiting (fun _ ↦ True) ∧
    registry.SelfDelimiting (fun r ↦ r.validators.members.length < UInt32.size) ∧
    ∀ input, (validatorSet.read input).map (·.totalPower.toNat) =
      (validatorSet.read input).map fun vs ↦ Validator.totalPower vs.members := by
  refine ⟨bridgeId_total.selfDelimiting, threshold_total.selfDelimiting,
    validator_total.selfDelimiting, validatorSet_canonical.selfDelimiting,
    signature_total.selfDelimiting, attestation_total.selfDelimiting,
    signatureSet_canonical.selfDelimiting, checkpoint_total.selfDelimiting,
    destination_total.selfDelimiting, deposit_total.selfDelimiting, payout_total.selfDelimiting,
    batch_canonical.selfDelimiting, event_total.selfDelimiting, entryPoint_total.selfDelimiting,
    implementation_total.selfDelimiting, ledger_total.selfDelimiting, gate_total.selfDelimiting,
    registry_canonical.selfDelimiting, ?_⟩
  intro input
  cases validatorSet.read input with
  | error e => rfl
  | ok vs => exact congrArg Except.ok vs.toNat_totalPower

/-- Two empty slots, cut short and with a byte too many. -/
theorem encodings_canonical_abstaining :
    (SignatureSet.abstaining 2).slots.length < UInt32.size ∧
      signatureSet.read [2, 0, 0, 0, 0, 0] = .ok (SignatureSet.abstaining 2) ∧
      (∃ e, signatureSet.read [2, 0, 0, 0, 0] = .error e) ∧
      signatureSet.read [2, 0, 0, 0, 0, 0, 7] = .error .leftOver := by
  obtain ⟨_, _, _, _, _, _, slots, _⟩ := encodings_canonical
  have hlength : (SignatureSet.abstaining 2).slots.length < UInt32.size := by decide
  have hencode : signatureSet.encode (SignatureSet.abstaining 2) = [2, 0, 0, 0, 0, 0] := by decide
  have hread := slots.read_encode _ hlength
  have hexcess := slots.excess_refused _ hlength [7] (List.cons_ne_nil 7 [])
  rw [hencode] at hread hexcess
  exact ⟨hlength, hread, slots.part_refused _ hlength _ [0] (List.cons_ne_nil 0 []) hencode, hexcess⟩

end TokenBridge.Borsh.Format
