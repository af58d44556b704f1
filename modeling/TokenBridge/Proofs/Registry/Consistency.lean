import TokenBridge.Proofs.Bridge.Effects
import Mathlib.Algebra.Ring.Nat

namespace TokenBridge

theorem Validator.totalPower_eq_sum (members : List Validator) :
    totalPower members = ((members.map (·.power)).map UInt64.toNat).sum := by
  induction members with
  | nil => rfl
  | cons v rest ih => rw [totalPower, ih, List.map_cons, List.map_cons, List.sum_cons]

namespace Registry

/-- The parts of a registry are sound each for itself and fit together. -/
structure Consistent (r : Registry) : Prop where
  members_ne_nil : r.validators.members ≠ []
  addresses_nodup : r.validators.addresses.Nodup
  address_ne_zero : ∀ a ∈ r.validators.addresses, a.isZero = false
  power_ne_zero : ∀ p ∈ r.validators.powers, p ≠ 0
  totalPower_eq : r.totalPower.toNat = (r.validators.powers.map UInt64.toNat).sum
  sum_lt : (r.validators.powers.map UInt64.toNat).sum < 2 ^ 64
  checkpoint_eq : r.checkpoint = Checkpoint.compute r.bridgeId r.validators r.nonce
  bridgeId_ne_zero : r.bridgeId.word.isZero = false
  threshold_pos : 1 ≤ r.threshold.basisPoints.toNat
  threshold_le : r.threshold.basisPoints.toNat ≤ 10000

variable {r r' : Registry}

/-- Only the checkpoint can be at odds with the rest: the other parts cannot be built unsound. -/
theorem consistent_iff : r.Consistent ↔
    r.checkpoint = Checkpoint.compute r.bridgeId r.validators r.nonce := by
  refine ⟨fun h ↦ h.checkpoint_eq, fun h ↦ ?_⟩
  have hsum : Validator.totalPower r.validators.members =
      (r.validators.powers.map UInt64.toNat).sum := Validator.totalPower_eq_sum _
  refine {
    members_ne_nil := r.validators.members_ne_nil
    addresses_nodup := r.validators.nodup
    address_ne_zero := ?_
    power_ne_zero := ?_
    totalPower_eq := r.validators.toNat_totalPower.trans hsum
    sum_lt := hsum ▸ r.validators.power_lt
    checkpoint_eq := h
    bridgeId_ne_zero := r.bridgeId.ne_zero
    threshold_pos := r.threshold.pos
    threshold_le := r.threshold.le_denominator }
  · intro a ha
    obtain ⟨v, hv, rfl⟩ := List.mem_map.1 ha
    exact r.validators.address_ne_zero v hv
  · intro p hp
    obtain ⟨v, hv, rfl⟩ := List.mem_map.1 hp
    exact r.validators.power_ne_zero v hv

/-- Of the four things that are checked only the checkpoint can be wrong: no part that violates one
of the others can be built. -/
theorem check_eq (r : Registry) :
    r.check =
      if r.checkpoint.commitment = Commitment.checkpoint r.bridgeId r.validators r.nonce then .ok ()
      else .error (.checkpointMismatch r.checkpoint.commitment r.nonce) := by
  have hid : ¬ r.bridgeId.word.isZero = true := Bool.eq_false_iff.1 r.bridgeId.ne_zero
  have hsum : ¬ Validator.totalPower r.validators.members ≠ r.totalPower.toNat :=
    not_not.2 r.validators.toNat_totalPower.symm
  have hmatch : (!r.checkpoint.isOf r.validators) = true ↔
      ¬ r.checkpoint.commitment = Commitment.checkpoint r.bridgeId r.validators r.nonce := by
    rw [Bool.not_eq_true', Checkpoint.isOf, decide_eq_false_iff_not, eq_comm]
    rfl
  rw [check, if_neg hid, PowerThreshold.ofBasisPoints_basisPoints]
  dsimp only
  by_cases h : r.checkpoint.commitment = Commitment.checkpoint r.bridgeId r.validators r.nonce
  · rw [if_neg (mt hmatch.1 (not_not.2 h)), if_neg hsum, if_pos h]
  · rw [if_pos (hmatch.2 h), if_neg h]

theorem check_eq_ok_iff_commitment :
    r.check = .ok () ↔
      r.checkpoint.commitment = Commitment.checkpoint r.bridgeId r.validators r.nonce := by
  rw [check_eq]
  split <;> simp [*]

theorem check_eq_ok_iff : r.check = .ok () ↔ r.Consistent := by
  rw [check_eq_ok_iff_commitment, consistent_iff]
  obtain ⟨⟨id, n, commitment⟩, vs, threshold⟩ := r
  simp [Checkpoint.compute, bridgeId, nonce]

theorem genesis_consistent (id : BridgeId) (threshold : PowerThreshold) (vs : ValidatorSet) :
    (genesis id threshold vs).Consistent := consistent_iff.2 rfl

/-- A rotation replaces the set together with the checkpoint, whatever it finds. -/
theorem rotate_consistent {vs : ValidatorSet} {nonce : UInt64} {signatures : SignatureSet}
    {checkpoint : Checkpoint} (h : r.rotate vs nonce signatures = (.ok checkpoint, r')) :
    r'.Consistent ∧ r'.bridgeId = r.bridgeId ∧ r'.threshold = r.threshold := by
  obtain ⟨_, _, _, rfl⟩ := rotate_eq_ok_iff.1 h
  exact ⟨consistent_iff.2 rfl, rfl, rfl⟩

end Registry

end TokenBridge
