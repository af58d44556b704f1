import TokenBridge.Proofs.Admission.Borsh
import TokenBridge.Proofs.Bridge.Run

namespace TokenBridge.Registry

open Borsh.Format (looseRegistry looseState)

variable {r r' : Registry} {e : Inconsistency}

theorem check_eq_error_iff :
    r.check = .error e ↔
      r.checkpoint.commitment ≠ Commitment.checkpoint r.bridgeId r.validators r.nonce ∧
        e = .checkpointMismatch r.checkpoint.commitment r.nonce := by
  rw [check_eq]
  split <;> simp [*, eq_comm]

theorem rotate_of_error {vs : ValidatorSet} {nonce : UInt64} {signatures : SignatureSet}
    {cause : BridgeError} (h : r.rotate vs nonce signatures = (.error cause, r')) : r' = r := by
  unfold rotate at h
  split at h
  · exact (Prod.mk.inj h).2.symm
  · dsimp only at h
    split at h
    · exact (Prod.mk.inj h).2.symm
    · cases (Prod.mk.inj h).1

/-- Nothing but the checkpoint of a registry can be at odds with the rest, the check tells whether
it is, and a rotation mends it. -/
structure Mendable (r : Registry) : Prop where
  admissible : Admissible r.fields
  check_ok_iff : r.check = .ok () ↔
    r.checkpoint.commitment = Commitment.checkpoint r.bridgeId r.validators r.nonce
  check_error_iff : ∀ e, r.check = .error e ↔
    r.checkpoint.commitment ≠ Commitment.checkpoint r.bridgeId r.validators r.nonce ∧
      e = .checkpointMismatch r.checkpoint.commitment r.nonce
  rotated : ∀ vs nonce signatures checkpoint r',
    r.rotate vs nonce signatures = (.ok checkpoint, r') →
      r'.Consistent ∧ r'.check = .ok () ∧ r'.bridgeId = r.bridgeId ∧ r'.threshold = r.threshold ∧
        r'.validators = vs ∧ r'.nonce = nonce ∧ r'.checkpoint = checkpoint
  refused : ∀ vs nonce signatures cause r',
    r.rotate vs nonce signatures = (.error cause, r') → r' = r

theorem mendable (r : Registry) : r.Mendable := by
  refine ⟨(admissible_iff _).2 ⟨r, rfl⟩, check_eq_ok_iff_commitment, fun e ↦ check_eq_error_iff,
    ?_, fun vs nonce signatures cause r' ↦ rotate_of_error⟩
  intro vs nonce signatures checkpoint r' h
  obtain ⟨hconsistent, hid, hthreshold⟩ := rotate_consistent h
  obtain ⟨_, _, rfl, rfl⟩ := rotate_eq_ok_iff.1 h
  exact ⟨hconsistent, check_eq_ok_iff.2 hconsistent, hid, hthreshold, rfl, rfl, rfl⟩

/-- Bytes that are read as a registry, alone or in the state of a bridge, hold one of which only the
checkpoint can be wrong. -/
theorem stored_registries_mendable :
    (∀ input r, Borsh.Format.registry.read input = .ok r →
      looseRegistry.read input = .ok r.fields ∧ r.Mendable) ∧
    ∀ input s, Borsh.Format.state.read input = .ok s →
      looseState.read input = .ok s.fields ∧ s.registry.Mendable := by
  constructor
  · intro input r h
    rw [Borsh.Format.read_eq_ok_iff, Borsh.Format.registry_screens] at h
    exact ⟨Borsh.Format.read_eq_ok_iff.2 h, r.mendable⟩
  · intro input s h
    rw [Borsh.Format.read_eq_ok_iff, Borsh.Format.state_screens] at h
    exact ⟨Borsh.Format.read_eq_ok_iff.2 h, s.registry.mendable⟩

open Bridge (ferryId ferryCrew)

/-- A registry of the ferry with a commitment that is not that of its validators. -/
def adrift : Registry where
  checkpoint := ⟨ferryId, 0, FixedBytes.zero 32⟩
  validators := ferryCrew
  threshold := .default

def anchor : SignatureSet :=
  ⟨[some ⟨Bridge.ferryman, {
    r := FixedBytes.ofNat 32 0x0260b53a757c32a66f12f50cef51659634d2d30b04b9d7436c40c97b6153c972
    s := FixedBytes.ofNat 32 0x27ba62652afc66a2ff32053d26ccac634eb20a4140411af762c12b4917ecfd1e
    v := 28 }⟩]⟩

theorem stored_registries_mendable_adrift :
    Borsh.Format.registry.read (Borsh.Format.registry.encode adrift) = .ok adrift ∧
    Borsh.Format.state.read (Borsh.Format.state.encode (.new adrift)) = .ok (.new adrift) ∧
    adrift.check = .error (.checkpointMismatch (FixedBytes.zero 32) 0) ∧
    (adrift.rotate adrift.validators 0 anchor).2 = adrift ∧
    ∃ checkpoint r, adrift.rotate adrift.validators 1 anchor = (.ok checkpoint, r) ∧
      r.check = .ok () ∧ r.bridgeId = ferryId ∧ r.nonce = 1 := by
  have alone : Borsh.Format.registry.read (Borsh.Format.registry.encode adrift) = .ok adrift :=
    toOption_eq_some_iff.1 (by decide +kernel)
  have within :
      Borsh.Format.state.read (Borsh.Format.state.encode (.new adrift)) = .ok (.new adrift) :=
    toOption_eq_some_iff.1 (by decide +kernel)
  obtain ⟨registries, states⟩ := stored_registries_mendable
  obtain ⟨_, _, _, checked, rotated, _⟩ := registries _ _ alone
  obtain ⟨_, _, _, _, _, refused⟩ := states _ _ within
  have mismatch :
      adrift.checkpoint.commitment ≠
        Commitment.checkpoint adrift.bridgeId adrift.validators adrift.nonce := by
    decide +kernel
  obtain ⟨checkpoint, accepted⟩ :
      ∃ checkpoint, (adrift.rotate adrift.validators 1 anchor).1 = .ok checkpoint :=
    isSome_toOption_iff.1 (by decide +kernel)
  generalize success : adrift.rotate adrift.validators 1 anchor = result at accepted
  obtain ⟨outcome, r⟩ := result
  obtain rfl : outcome = .ok checkpoint := accepted
  obtain ⟨_, mended, hid, _, _, hnonce, _⟩ := rotated adrift.validators 1 anchor _ r success
  exact ⟨alone, within, (checked _).2 ⟨mismatch, rfl⟩, refused adrift.validators 0 anchor _ _ rfl,
    checkpoint, r, rfl, mended, hid, hnonce⟩

end TokenBridge.Registry
