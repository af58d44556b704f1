import TokenBridge.Proofs.Bridge.EmptyBatch
import TokenBridge.Proofs.Commitment.Binding
import TokenBridge.Proofs.Validator.Verdict

namespace TokenBridge

namespace ValidatorSet

def sharedSigners (vs : ValidatorSet) (s₁ s₂ : SignatureSet) : List Validator :=
  ((vs.members.zip (s₁.slots.zip s₂.slots)).filter fun e ↦ e.2.1.isSome && e.2.2.isSome).map (·.1)

/-- What signature sets that a validator set has accepted, each over a digest of its own, are bound
to have in common. -/
structure Overlap (recover : Recovery) (vs : ValidatorSet) (threshold : PowerThreshold)
    (s₁ s₂ : SignatureSet) (d₁ d₂ : Word) : Prop where
  sublist : (vs.sharedSigners s₁ s₂).Sublist vs.members
  power_le : (2 * threshold.basisPoints.toNat - 10000) * vs.totalPower.toNat ≤
    10000 * Validator.totalPower (vs.sharedSigners s₁ s₂)
  ne_nil : vs.sharedSigners s₁ s₂ ≠ []
  authentic : ∀ v ∈ vs.sharedSigners s₁ s₂, ∃ i a₁ a₂, vs.Filled s₁ i v a₁ ∧ vs.Filled s₂ i v a₂ ∧
    a₁.AuthenticBy recover d₁ v ∧ a₂.AuthenticBy recover d₂ v

variable {vs : ValidatorSet} {recover : Recovery} {threshold : PowerThreshold}
  {s₁ s₂ : SignatureSet} {d₁ d₂ : Word}

theorem map_fst_zip_sublist {α β : Type} (l : List α) (m : List β) :
    ((l.zip m).map (·.1)).Sublist l := by
  induction l generalizing m with
  | nil => exact .slnil
  | cons a l ih =>
    cases m with
    | nil => exact List.nil_sublist _
    | cons b m => exact (ih m).cons_cons a

theorem sharedSigners_sublist : (vs.sharedSigners s₁ s₂).Sublist vs.members :=
  (List.filter_sublist.map _).trans (map_fst_zip_sublist _ _)

theorem mem_sharedSigners_iff {v : Validator} :
    v ∈ vs.sharedSigners s₁ s₂ ↔
      ∃ i a₁ a₂, vs.Filled s₁ i v a₁ ∧ vs.Filled s₂ i v a₂ := by
  simp only [sharedSigners, Filled, List.mem_map, List.mem_filter, Bool.and_eq_true,
    Option.isSome_iff_exists]
  constructor
  · intro h
    obtain ⟨⟨w, slot₁, slot₂⟩, ⟨hmem, ⟨a₁, h₁⟩, ⟨a₂, h₂⟩⟩, hv⟩ := h
    obtain ⟨i, hi⟩ := List.mem_iff_getElem?.1 hmem
    simp only [List.getElem?_zip_eq_some] at hi
    dsimp only at h₁ h₂ hv
    subst h₁ h₂ hv
    exact ⟨i, a₁, a₂, ⟨hi.1, hi.2.1⟩, hi.1, hi.2.2⟩
  · intro h
    obtain ⟨i, a₁, a₂, ⟨hv, h₁⟩, _, h₂⟩ := h
    refine ⟨(v, some a₁, some a₂), ⟨List.mem_iff_getElem?.2 ⟨i, ?_⟩, ⟨a₁, rfl⟩, a₂, rfl⟩, rfl⟩
    simp only [List.getElem?_zip_eq_some]
    exact ⟨hv, h₁, h₂⟩

/-- The powers behind two signature sets are counted twice together for the shared signers only. -/
theorem signedPower_add_signedPower_le :
    vs.signedPower s₁ + vs.signedPower s₂ ≤
      Validator.totalPower vs.members + Validator.totalPower (vs.sharedSigners s₁ s₂) := by
  unfold signedPower sharedSigners
  generalize vs.members = members
  generalize s₁.slots = slots₁
  generalize s₂.slots = slots₂
  induction members generalizing slots₁ slots₂ with
  | nil => simp [filledPower]
  | cons v rest ih =>
    have hnone : filledPower ((v :: rest).zip []) = 0 := rfl
    cases slots₁ with
    | nil =>
      rw [hnone, Nat.zero_add]
      exact Nat.le_add_right_of_le (filledPower_zip_le _ _)
    | cons slot₁ slots₁ =>
      cases slots₂ with
      | nil =>
        rw [hnone, Nat.add_zero]
        exact Nat.le_add_right_of_le (filledPower_zip_le _ _)
      | cons slot₂ slots₂ =>
        have hrest := ih slots₁ slots₂
        cases slot₁ <;> cases slot₂ <;>
          simp [filledPower, Validator.totalPower] at hrest ⊢ <;> omega

theorem overlap_of_accepted (majority : 10000 < 2 * threshold.basisPoints.toNat)
    (accepted₁ : ∃ power, vs.verifyBy recover threshold s₁ d₁ = .ok power)
    (accepted₂ : ∃ power, vs.verifyBy recover threshold s₂ d₂ = .ok power) :
    vs.Overlap recover threshold s₁ s₂ d₁ d₂ := by
  obtain ⟨_, h₁⟩ := accepted₁
  obtain ⟨_, h₂⟩ := accepted₂
  obtain ⟨_, authentic₁, _, enough₁⟩ := verifyBy_eq_ok_iff.1 h₁
  obtain ⟨_, authentic₂, _, enough₂⟩ := verifyBy_eq_ok_iff.1 h₂
  have hsum : vs.signedPower s₁ + vs.signedPower s₂ ≤
      vs.totalPower.toNat + Validator.totalPower (vs.sharedSigners s₁ s₂) := by
    rw [vs.toNat_totalPower]
    exact signedPower_add_signedPower_le
  have hpower : (2 * threshold.basisPoints.toNat - 10000) * vs.totalPower.toNat ≤
      10000 * Validator.totalPower (vs.sharedSigners s₁ s₂) := by
    rw [Nat.sub_mul, Nat.mul_assoc]
    omega
  refine ⟨sharedSigners_sublist, hpower, ?_, ?_⟩
  · intro hnone
    have hpos : 0 < (2 * threshold.basisPoints.toNat - 10000) * vs.totalPower.toNat := by
      apply Nat.mul_pos
      · omega
      · rw [vs.toNat_totalPower]
        exact vs.totalPower_pos
    rw [hnone, Validator.totalPower] at hpower
    omega
  · intro v hv
    obtain ⟨i, a₁, a₂, filled₁, filled₂⟩ := mem_sharedSigners_iff.1 hv
    exact ⟨i, a₁, a₂, filled₁, filled₂, authentic_slots_iff.1 authentic₁ i v a₁ filled₁,
      authentic_slots_iff.1 authentic₂ i v a₂ filled₂⟩

end ValidatorSet

namespace Registry

/-- A registry acts on an approval: it installs the new set, or the batch is paid. -/
inductive ActsOn (r : Registry) (s : SignatureSet) : Approval → Prop
  | rotation {vs : ValidatorSet} {nonce : UInt64} {checkpoint : Checkpoint} {r' : Registry}
      (rotated : r.rotate vs nonce s = (.ok checkpoint, r')) :
      ActsOn r s (.rotation r.bridgeId vs nonce)
  | payment {C : Type} [Custody C] {x x' : Executor} {batch : Batch} {funds funds' : C}
      {custodian relayer : Address}
      (executed : x.execute r batch s funds custodian relayer = (.ok (), x', funds')) :
      ActsOn r s (.payment r.bridgeId batch)

theorem ActsOn.accepted {r : Registry} {s : SignatureSet} {a : Approval} (h : r.ActsOn s a) :
    ∃ power, r.validators.verifyBy recoverSigner r.threshold s a.digest = .ok power := by
  cases h with
  | rotation rotated =>
    obtain ⟨_, verified, _, _⟩ := rotate_eq_ok_iff.1 rotated
    exact verified
  | payment executed =>
    obtain ⟨_, verified, _, _⟩ := Executor.execute_eq_ok_iff.1 executed
    exact verified

/-- Where more than half of the power is asked for, signatures that are accepted for one digest and
those that are accepted for another share signers, and as much power among them as the two thresholds
together exceed the whole by. So do the approvals that one set has given to any two actions. -/
theorem quorums_intersect (vs : ValidatorSet) (threshold : PowerThreshold)
    (majority : 10000 < 2 * threshold.basisPoints.toNat) :
    (∀ recover s₁ s₂ d₁ d₂, (∃ power, vs.verifyBy recover threshold s₁ d₁ = .ok power) →
      (∃ power, vs.verifyBy recover threshold s₂ d₂ = .ok power) →
      vs.Overlap recover threshold s₁ s₂ d₁ d₂) ∧
    ∀ (r₁ r₂ : Registry) s₁ s₂ a₁ a₂, r₁.validators = vs → r₂.validators = vs →
      r₁.threshold = threshold → r₂.threshold = threshold → r₁.ActsOn s₁ a₁ → r₂.ActsOn s₂ a₂ →
      vs.Overlap recoverSigner threshold s₁ s₂ a₁.digest a₂.digest := by
  constructor
  · intro recover s₁ s₂ d₁ d₂ accepted₁ accepted₂
    exact ValidatorSet.overlap_of_accepted majority accepted₁ accepted₂
  · intro r₁ r₂ s₁ s₂ a₁ a₂ hvs₁ hvs₂ ht₁ ht₂ acts₁ acts₂
    have accepted₁ := acts₁.accepted
    have accepted₂ := acts₂.accepted
    rw [hvs₁, ht₁] at accepted₁
    rw [hvs₂, ht₂] at accepted₂
    exact ValidatorSet.overlap_of_accepted majority accepted₁ accepted₂

open ValidatorSet Bridge

def trio : ValidatorSet where
  members :=
    [⟨FixedBytes.ofNat 20 1, 3333⟩, ⟨FixedBytes.ofNat 20 2, 3334⟩, ⟨FixedBytes.ofNat 20 3, 3333⟩]
  totalPower := 10000
  members_ne_nil := by decide
  address_ne_zero := by decide
  power_ne_zero := by decide
  nodup := by decide
  toNat_totalPower := by decide

/-- Two of three agree to one thing and two to another, and the one among them both has no more power
than there has to be. The ferryman alone has agreed to two batches. -/
theorem quorums_intersect_trio :
    let majority : PowerThreshold := ⟨6667, by decide, by decide⟩
    let s₁ : SignatureSet := ⟨[some (numbered 1), some (numbered 2), none]⟩
    let s₂ : SignatureSet := ⟨[none, some (numbered 2), some (numbered 3)]⟩
    trio.Overlap numberedSigner majority s₁ s₂ (FixedBytes.ofNat 32 1) (FixedBytes.ofNat 32 2) ∧
      10000 * Validator.totalPower (trio.sharedSigners s₁ s₂) =
        (2 * majority.basisPoints.toNat - 10000) * trio.totalPower.toNat ∧
      ∃ registry : Registry,
        registry.ActsOn ferrySignatures (.payment ferryId ferryBatch) ∧
        registry.ActsOn ferryNothingSignatures (.payment ferryId ferryNothing) ∧
        registry.validators.Overlap recoverSigner .default ferrySignatures ferryNothingSignatures
          (ferryBatch.signingDigest ferryId) (ferryNothing.signingDigest ferryId) := by
  intro majority s₁ s₂
  obtain ⟨state, _, ready, _, crossed⟩ := (effect_of_ok ferry_crosses).of_payment rfl
  obtain ⟨state', _, ready', _, idled⟩ := (effect_of_ok ferry_idles).of_payment rfl
  obtain rfl := Option.some.inj (ferry_started.symm.trans ready)
  obtain rfl := Option.some.inj (ferry_started.symm.trans ready')
  obtain ⟨trios, _⟩ := quorums_intersect trio majority (by decide)
  obtain ⟨_, ferries⟩ := quorums_intersect ferryCrew .default (by decide)
  refine ⟨trios _ _ _ _ _ ⟨6667, rfl⟩ ⟨6667, rfl⟩, by decide, .genesis ferryId .default ferryCrew,
    .payment crossed, .payment idled, ?_⟩
  exact ferries _ _ _ _ _ _ rfl rfl rfl rfl (.payment crossed) (.payment idled)

end Registry

end TokenBridge
