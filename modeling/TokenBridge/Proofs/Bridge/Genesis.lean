import TokenBridge.Genesis
import TokenBridge.Proofs.Bridge.Run

namespace TokenBridge

theorem ValidatorSet.ofParts_map (members : List Validator) :
    ofParts (members.map (·.address)) (members.map (·.power)) = ofList members := by
  have hmembers : List.zipWith Validator.mk (members.map (·.address)) (members.map (·.power)) =
      members := by
    rw [List.zipWith_map, List.zipWith_self]
    exact List.map_id members
  have hlength : (members.map (·.address)).length = (members.map (·.power)).length := by
    rw [List.length_map, List.length_map]
  rw [ofParts, if_neg (not_not.2 hlength), hmembers]

namespace GenesisDraft

/-- The part of the check that a bridge makes once more when it is started. -/
def quorum (d : GenesisDraft) : Except QuorumError (PowerThreshold × ValidatorSet) :=
  match PowerThreshold.ofBasisPoints d.threshold with
  | .error e => .error e
  | .ok threshold =>
    match ValidatorSet.ofList d.validators with
    | .error e => .error e
    | .ok validators => .ok (threshold, validators)

variable {d : GenesisDraft}

theorem quorum_eq_ok_iff {threshold : PowerThreshold} {validators : ValidatorSet} :
    d.quorum = .ok (threshold, validators) ↔
      PowerThreshold.ofBasisPoints d.threshold = .ok threshold ∧
        ValidatorSet.ofList d.validators = .ok validators := by
  unfold quorum
  cases PowerThreshold.ofBasisPoints d.threshold with
  | error e => simp
  | ok threshold => cases ValidatorSet.ofList d.validators <;> simp

theorem validate_eq_ok_iff {g : Genesis} :
    d.validate = .ok g ↔
      BridgeId.ofText d.bridgeId = .ok g.bridgeId ∧ d.admin.isZero = false ∧ d.admin = g.admin ∧
        d.quorum = .ok (g.threshold, g.validators) := by
  rw [quorum_eq_ok_iff]
  constructor
  · intro h
    unfold validate at h
    split at h
    · cases h
    · rename_i id hid
      split at h
      · cases h
      · rename_i threshold hthreshold
        split at h
        · cases h
        · rename_i hadmin
          split at h
          · cases h
          · rename_i validators hvalidators
            cases h
            exact ⟨hid, Bool.eq_false_iff.2 hadmin, rfl, hthreshold, hvalidators⟩
  · rintro ⟨hid, hadmin, heq, hthreshold, hvalidators⟩
    simp only [validate, hid, hthreshold, hadmin, hvalidators, Bool.false_eq_true, if_false]
    rw [heq]

theorem validate_of_quorum_error {id : BridgeId} {q : QuorumError}
    (hid : BridgeId.ofText d.bridgeId = .ok id) (hadmin : d.admin.isZero = false)
    (h : d.quorum = .error q) : d.validate = .error (.validators q) := by
  unfold quorum at h
  simp only [validate, hid, hadmin, Bool.false_eq_true, if_false]
  cases ht : PowerThreshold.ofBasisPoints d.threshold with
  | error e =>
    rw [ht] at h
    cases h
    rfl
  | ok threshold =>
    rw [ht] at h
    cases hv : ValidatorSet.ofList d.validators with
    | error e =>
      rw [hv] at h
      cases h
      rfl
    | ok validators =>
      rw [hv] at h
      cases h

end GenesisDraft

namespace Bridge

variable {C : Type} {b : Bridge C} {d : GenesisDraft}

def startDraft (b : Bridge C) (d : GenesisDraft) (id : BridgeId) :
    Except BridgeError Checkpoint × Bridge C :=
  b.start id d.threshold (d.validators.map (·.address)) (d.validators.map (·.power))

theorem startDraft_of_fresh (fresh : b.state = none) (id : BridgeId) :
    b.startDraft d id = match d.quorum with
      | .error q => (.error (.quorum q), b)
      | .ok (threshold, validators) =>
        (.ok (Checkpoint.compute id validators 0), { b with
          state := some (.new (.genesis id threshold validators))
          journal :=
            b.journal ++ [.validatorSetUpdated (Commitment.checkpoint id validators 0) 0] }) := by
  simp only [startDraft, start, GenesisDraft.quorum, ensureSupported_start, fresh,
    ValidatorSet.ofParts_map, Option.isSome_none, Bool.false_eq_true, if_false]
  cases PowerThreshold.ofBasisPoints d.threshold with
  | error q => rfl
  | ok threshold => cases ValidatorSet.ofList d.validators <;> rfl

/-- What an operator writes down passes the check exactly if a bridge that was not started yet can be
started with it. The bridge then goes by what was checked; and what is wrong with the threshold or
the validators is reported alike. -/
theorem draft_foretells_start (fresh : b.state = none) (d : GenesisDraft) :
    ((∃ g, d.validate = .ok g) ↔
      ∃ id checkpoint, BridgeId.ofText d.bridgeId = .ok id ∧ d.admin.isZero = false ∧
        (b.startDraft d id).1 = .ok checkpoint) ∧
    (∀ g, d.validate = .ok g →
      BridgeId.ofText d.bridgeId = .ok g.bridgeId ∧ d.admin = g.admin ∧
        (b.startDraft d g.bridgeId).1 = .ok g.checkpoint ∧
        (b.startDraft d g.bridgeId).2.bridgeId = .ok g.bridgeId ∧
        (b.startDraft d g.bridgeId).2.threshold = .ok g.threshold ∧
        (b.startDraft d g.bridgeId).2.validators = .ok g.validators ∧
        (b.startDraft d g.bridgeId).2.totalPower = .ok g.validators.totalPower) ∧
    ∀ id e, BridgeId.ofText d.bridgeId = .ok id → d.admin.isZero = false → d.validate = .error e →
      ∃ q, e = .validators q ∧ (b.startDraft d id).1 = .error (.quorum q) := by
  refine ⟨⟨?_, ?_⟩, ?_, ?_⟩
  · rintro ⟨g, hg⟩
    obtain ⟨hid, hadmin, _, hquorum⟩ := GenesisDraft.validate_eq_ok_iff.1 hg
    refine ⟨g.bridgeId, g.checkpoint, hid, hadmin, ?_⟩
    rw [startDraft_of_fresh fresh, hquorum]
    rfl
  · rintro ⟨id, checkpoint, hid, hadmin, hstart⟩
    rw [startDraft_of_fresh fresh] at hstart
    rcases hquorum : d.quorum with q | ⟨threshold, validators⟩
    · rw [hquorum] at hstart
      cases hstart
    · exact ⟨⟨id, threshold, d.admin, validators⟩,
        GenesisDraft.validate_eq_ok_iff.2 ⟨hid, hadmin, rfl, hquorum⟩⟩
  · intro g hg
    obtain ⟨hid, _, hadmin, hquorum⟩ := GenesisDraft.validate_eq_ok_iff.1 hg
    rw [startDraft_of_fresh fresh, hquorum]
    exact ⟨hid, hadmin, rfl, rfl, rfl, rfl, rfl⟩
  · intro id e hid hadmin he
    rcases hquorum : d.quorum with q | ⟨threshold, validators⟩
    · rw [GenesisDraft.validate_of_quorum_error hid hadmin hquorum] at he
      rw [startDraft_of_fresh fresh, hquorum]
      exact ⟨q, (Except.error.inj he).symm, rfl⟩
    · have hg : d.validate = .ok ⟨id, threshold, d.admin, validators⟩ :=
        GenesisDraft.validate_eq_ok_iff.2 ⟨hid, hadmin, rfl, hquorum⟩
      rw [hg] at he
      cases he

def ferryDraft : GenesisDraft where
  bridgeId := "ferry"
  threshold := 6666
  admin := FixedBytes.ofNat 20 0xad
  validators := [⟨ferryman, 1⟩]

/-- The ferry can be started as it is written down, but not without a validator. -/
theorem draft_foretells_start_ferry :
    ferry.state = none ∧
    (∃ g, ferryDraft.validate = .ok g ∧
      (ferry.startDraft ferryDraft g.bridgeId).1 = .ok g.checkpoint) ∧
    (∃ q, { ferryDraft with validators := [] }.validate = .error (.validators q) ∧
      (ferry.startDraft { ferryDraft with validators := [] } ferryId).1 = .error (.quorum q)) := by
  have fresh : ferry.state = none := rfl
  have hadmin : ferryDraft.admin.isZero = false := by decide
  have hid : BridgeId.ofText "ferry" = .ok ferryId := by decide +kernel
  obtain ⟨g, hg⟩ : ∃ g, ferryDraft.validate = .ok g := isSome_toOption_iff.1 (by decide +kernel)
  refine ⟨fresh, ?_, ?_⟩
  · exact ⟨g, hg, ((draft_foretells_start fresh ferryDraft).2.1 g hg).2.2.1⟩
  · obtain ⟨_, _, hrefused⟩ := draft_foretells_start fresh { ferryDraft with validators := [] }
    have hempty : { ferryDraft with validators := [] }.validate =
        .error (.validators .emptyValidatorSet) :=
      GenesisDraft.validate_of_quorum_error hid hadmin rfl
    obtain ⟨q, hq, hstart⟩ := hrefused ferryId _ hid hadmin hempty
    exact ⟨q, hq ▸ hempty, hstart⟩

end Bridge

end TokenBridge
