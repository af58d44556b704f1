import TokenBridge.Proofs.Bridge.Run
import TokenBridge.Proofs.Validator.Quorum

namespace TokenBridge

def Registry.Approves (r : Registry) (signatures : SignatureSet) (digest : Word) : Prop :=
  r.validators.Quorum r.threshold signatures digest

/-- The validators of a registry have approved just what a call applies: the new set at its nonce,
or the batch. Other calls need no approval. -/
def Registry.Authorizes (r : Registry) : Call → Prop
  | .rotate addresses powers nonce signatures =>
    ∃ vs, ValidatorSet.ofParts addresses powers = .ok vs ∧
      r.Approves signatures (Checkpoint.compute r.bridgeId vs nonce).signingDigest
  | .submitBatch _ token payouts nonce signatures =>
    r.Approves signatures (Batch.signingDigest ⟨token, payouts, nonce⟩ r.bridgeId)
  | .executeBatch _ batch signatures => r.Approves signatures (batch.signingDigest r.bridgeId)
  | .start .. | .deposit .. | .changeAdmin .. | .upgrade .. => True

namespace Call

def needsApproval : Call → Bool
  | rotate .. | submitBatch .. | executeBatch .. => true
  | _ => false

def installs : Call → Bool
  | start .. | rotate .. => true
  | _ => false

end Call

def Event.announced? : Event → Option (Word × UInt64)
  | validatorSetUpdated checkpoint nonce => some (checkpoint, nonce)
  | _ => none

variable {C ε : Type} [Custody C]

/-- How the registry of a bridge came to be trusted in the course of a run: the bridge was started
with it, or a registry trusted until then has approved it. -/
inductive Trusted : List (Moment C ε) → Registry → Prop
  | genesis {past : List (Moment C ε)} {m : Moment C ε} {id : BridgeId} {basisPoints : UInt32}
      {addresses : List Address} {powers : List UInt64} {answer : Answer}
      {threshold : PowerThreshold} {vs : ValidatorSet}
      (success : m.success? = some (.start id basisPoints addresses powers, answer))
      (threshold_eq : PowerThreshold.ofBasisPoints basisPoints = .ok threshold)
      (set_eq : ValidatorSet.ofParts addresses powers = .ok vs) :
      Trusted (past ++ [m]) (.genesis id threshold vs)
  | rotation {past : List (Moment C ε)} {m : Moment C ε} {state : BridgeState}
      {addresses : List Address} {powers : List UInt64} {nonce : UInt64} {signatures : SignatureSet}
      {answer : Answer} {vs : ValidatorSet} (trusted : Trusted past state.registry)
      (ready : m.bridge.state = some state)
      (success : m.success? = some (.rotate addresses powers nonce signatures, answer))
      (set_eq : ValidatorSet.ofParts addresses powers = .ok vs)
      (approved : state.registry.Approves signatures
        (Checkpoint.compute state.registry.bridgeId vs nonce).signingDigest) :
      Trusted (past ++ [m]) { state.registry with
        checkpoint := Checkpoint.compute state.registry.bridgeId vs nonce
        validators := vs }
  | other {past : List (Moment C ε)} {m : Moment C ε} {r : Registry} (trusted : Trusted past r)
      (installs_none : ∀ c answer, m.success? = some (c, answer) → c.installs = false) :
      Trusted (past ++ [m]) r

namespace Bridge

variable {world : ε → C → C} {b b' : Bridge C} {c : Call} {answer : Answer}

theorem Effect.authorizes (h : b.Effect c answer b') (hc : c.needsApproval) :
    ∃ state, b.state = some state ∧ state.registry.Authorizes c := by
  cases h with
  | rotate ready set_eq rotated =>
    obtain ⟨_, verified, _, _⟩ := Registry.rotate_eq_ok_iff.1 rotated
    exact ⟨_, ready, _, set_eq, ValidatorSet.exists_verify_eq_ok_iff.1 verified⟩
  | submitBatch _ ready executed =>
    obtain ⟨_, verified, _, _⟩ := Executor.execute_eq_ok_iff.1 executed
    exact ⟨_, ready, ValidatorSet.exists_verify_eq_ok_iff.1 verified⟩
  | executeBatch ready executed =>
    obtain ⟨_, verified, _, _⟩ := Executor.execute_eq_ok_iff.1 executed
    exact ⟨_, ready, ValidatorSet.exists_verify_eq_ok_iff.1 verified⟩
  | _ => cases hc

theorem trusted_of_effect {past : List (Moment C ε)} {state' : BridgeState}
    (before : ∀ state, b.state = some state → Trusted past state.registry)
    (success : Moment.success? (⟨b, .call c⟩ : Moment C ε) = some (c, answer))
    (h : b.Effect c answer b') (ready' : b'.state = some state') :
    Trusted (past ++ [⟨b, .call c⟩]) state'.registry := by
  have other (hc : c.installs = false) {state : BridgeState} (ready : b.state = some state)
      (heq : state'.registry = state.registry) :
      Trusted (past ++ [⟨b, .call c⟩]) state'.registry := by
    rw [heq]
    exact .other (before state ready) (by simp [success, hc])
  cases h with
  | start fresh threshold_eq set_eq =>
    cases ready'
    exact .genesis success threshold_eq set_eq
  | rotate ready set_eq rotated =>
    obtain ⟨_, verified, _, rfl⟩ := Registry.rotate_eq_ok_iff.1 rotated
    cases ready'
    exact .rotation (before _ ready) ready success set_eq
      (ValidatorSet.exists_verify_eq_ok_iff.1 verified)
  | deposit ready =>
    cases ready'
    exact other rfl ready rfl
  | submitBatch _ ready =>
    cases ready'
    exact other rfl ready rfl
  | executeBatch ready =>
    cases ready'
    exact other rfl ready rfl
  | changeAdmin => exact other rfl ready' rfl
  | upgrade => exact other rfl ready' rfl

theorem trusted_reach (account admin : Address) (custody : C) (steps : List (Step ε)) :
    ∀ state, ((new account admin custody).reach world steps).state = some state →
      Trusted ((new account admin custody).trace world steps) state.registry := by
  induction steps using run_induction world (new account admin custody) with
  | nil =>
    intro state h
    cases h
  | silent steps s hs ih =>
    intro state h
    rw [reach_concat, (frame_of_no_success hs).2.2.1] at h
    rw [trace_concat]
    exact .other (ih state h) (by simp [hs])
  | success steps c answer hs he ih =>
    intro state h
    rw [trace_concat]
    exact trusted_of_effect ih hs he h

/-- What the journal announced last is the checkpoint of the registry. -/
theorem announced_of_effect {events : List Event} {state' : BridgeState}
    (before : ∀ state, b.state = some state → (events.filterMap Event.announced?).getLast? =
      some (state.registry.checkpoint.commitment, state.registry.nonce))
    (h : b.Effect c answer b') (ready' : b'.state = some state') :
    ((events ++ c.events answer).filterMap Event.announced?).getLast? =
      some (state'.registry.checkpoint.commitment, state'.registry.nonce) := by
  cases h with
  | start fresh =>
    cases ready'
    simp only [Call.events, List.filterMap_append, List.filterMap_cons, Event.announced?,
      List.filterMap_nil, List.getLast?_concat]
    rfl
  | rotate ready _ rotated =>
    obtain ⟨_, _, rfl, rfl⟩ := Registry.rotate_eq_ok_iff.1 rotated
    cases ready'
    simp only [Call.events, List.filterMap_append, List.filterMap_cons, Event.announced?,
      List.filterMap_nil, List.getLast?_concat]
    rfl
  | deposit ready =>
    cases ready'
    simpa [Call.events, Event.announced?] using before _ ready
  | submitBatch _ ready =>
    cases ready'
    simpa [Call.events, Event.announced?] using before _ ready
  | executeBatch ready =>
    cases ready'
    simpa [Call.events, Event.announced?] using before _ ready
  | changeAdmin => simpa [Call.events, Event.announced?] using before _ ready'
  | upgrade => simpa [Call.events, Event.announced?] using before _ ready'

theorem announced_reach (account admin : Address) (custody : C) (steps : List (Step ε)) :
    ∀ state, ((new account admin custody).reach world steps).state = some state →
      (((new account admin custody).history world steps).filterMap Event.announced?).getLast? =
        some (state.registry.checkpoint.commitment, state.registry.nonce) := by
  induction steps using run_induction world (new account admin custody) with
  | nil =>
    intro state h
    cases h
  | silent steps s hs ih =>
    intro state h
    rw [reach_concat, (frame_of_no_success hs).2.2.1] at h
    rw [history_concat, hs]
    simpa using ih state h
  | success steps c answer hs he ih =>
    intro state h
    rw [history_concat, hs]
    simpa using announced_of_effect ih he h

/-- Nothing is installed or paid but on the approval of a quorum of the validators trusted just
then, who owe their trust to an unbroken chain of such approvals from the first set on. -/
theorem authorization_chain (account admin : Address) (custody : C) (world : ε → C → C)
    (steps : List (Step ε)) {c : Call} {answer : Answer} (hc : c.needsApproval)
    (h : (((new account admin custody).reach world steps).call c).1 = .ok answer) :
    ∃ state, ((new account admin custody).reach world steps).state = some state ∧
      state.registry.Authorizes c ∧
      Trusted ((new account admin custody).trace world steps) state.registry ∧
      (((new account admin custody).history world steps).filterMap Event.announced?).getLast? =
        some (state.registry.checkpoint.commitment, state.registry.nonce) := by
  obtain ⟨state, ready, authorized⟩ := (effect_of_ok h).authorizes hc
  exact ⟨state, ready, authorized, trusted_reach account admin custody steps state ready,
    announced_reach account admin custody steps state ready⟩

theorem authorization_chain_ferry :
    ferryCrossing.needsApproval ∧
      ((ferry.reach (fun funds _ ↦ funds) ferrySteps).call ferryCrossing).1 = .ok .done ∧
      ∃ state, (ferry.reach (fun funds _ ↦ funds) ferrySteps).state = some state ∧
        state.registry.Authorizes ferryCrossing ∧
        Trusted (ferry.trace (fun funds _ ↦ funds) ferrySteps) state.registry ∧
        ((ferry.history (fun funds _ ↦ funds) ferrySteps).filterMap Event.announced?).getLast? =
          some (state.registry.checkpoint.commitment, state.registry.nonce) :=
  ⟨rfl, ferry_crosses, authorization_chain _ _ _ _ ferrySteps rfl ferry_crosses⟩

end Bridge

end TokenBridge
