import TokenBridge.Proofs.Bridge.Run

namespace TokenBridge

def Call.isAdministrative : Call → Bool
  | changeAdmin .. | upgrade .. => true
  | _ => false

variable {C : Type} [Custody C]

namespace Bridge

omit [Custody C] in
/-- The part of a bridge that all but administrative calls work on. -/
def vault (b : Bridge C) : Address × Option BridgeState × C := (b.account, b.state, b.custody)

section

omit [Custody C]

variable {α : Type} {b b' : Bridge C}

theorem vault_eq_iff :
    b.vault = b'.vault ↔ b.account = b'.account ∧ b.state = b'.state ∧ b.custody = b'.custody := by
  simp [vault]

theorem transact_congr {entry : EntryPoint} (he : entry ≠ .probe) (h : b.vault = b'.vault)
    (body : BridgeState → C → Except BridgeError (α × Event) × BridgeState × C) :
    (b.transact entry body).1 = (b'.transact entry body).1 ∧
      (b.transact entry body).2.vault = (b'.transact entry body).2.vault := by
  obtain ⟨haccount, hstate, hcustody⟩ := vault_eq_iff.1 h
  cases ready : b.state with
  | none =>
    rw [transact_of_none he ready, transact_of_none he (hstate ▸ ready)]
    exact ⟨rfl, h⟩
  | some state =>
    rw [transact_of_some he ready, transact_of_some he (hstate ▸ ready), ← hcustody]
    rcases body state b.custody with ⟨e | ⟨answer, event⟩, state', custody⟩
    · exact ⟨rfl, h⟩
    · exact ⟨rfl, vault_eq_iff.2 ⟨haccount, rfl, rfl⟩⟩

theorem start_congr (h : b.vault = b'.vault) (id : BridgeId) (basisPoints : UInt32)
    (addresses : List Address) (powers : List UInt64) :
    (b.start id basisPoints addresses powers).1 = (b'.start id basisPoints addresses powers).1 ∧
      (b.start id basisPoints addresses powers).2.vault =
        (b'.start id basisPoints addresses powers).2.vault := by
  obtain ⟨haccount, hstate, hcustody⟩ := vault_eq_iff.1 h
  simp only [start, ensureSupported_start, ← hstate]
  cases b.state with
  | some state => exact ⟨rfl, h⟩
  | none =>
    cases PowerThreshold.ofBasisPoints basisPoints with
    | error e => exact ⟨rfl, h⟩
    | ok threshold =>
      cases ValidatorSet.ofParts addresses powers with
      | error e => exact ⟨rfl, h⟩
      | ok vs => exact ⟨rfl, vault_eq_iff.2 ⟨haccount, rfl, hcustody⟩⟩

theorem answering_congr {β : Type} {view : Bridge C → β}
    {outcome outcome' : Except BridgeError α × Bridge C} (wrap : α → Answer)
    (h : outcome.1 = outcome'.1 ∧ view outcome.2 = view outcome'.2) :
    (answering wrap outcome).1 = (answering wrap outcome').1 ∧
      view (answering wrap outcome).2 = view (answering wrap outcome').2 :=
  ⟨congrArg (Except.map wrap) h.1, h.2⟩

end

variable {b b' : Bridge C} {c : Call}

theorem executeBatch_congr (h : b.vault = b'.vault) (relayer : Address) (batch : Batch)
    (signatures : SignatureSet) :
    (b.executeBatch relayer batch signatures).1 = (b'.executeBatch relayer batch signatures).1 ∧
      (b.executeBatch relayer batch signatures).2.vault =
        (b'.executeBatch relayer batch signatures).2.vault := by
  rw [executeBatch, executeBatch, (vault_eq_iff.1 h).1]
  exact transact_congr (by decide) h _

/-- Whoever administers the bridge, and with whatever implementation, other calls are the same. -/
theorem call_congr_of_vault (h : b.vault = b'.vault) (hc : c.isAdministrative = false) :
    (b.call c).1 = (b'.call c).1 ∧ (b.call c).2.vault = (b'.call c).2.vault := by
  have haccount := (vault_eq_iff.1 h).1
  cases c with
  | start => exact answering_congr _ (start_congr h _ _ _ _)
  | deposit =>
    refine answering_congr _ ?_
    rw [deposit, deposit, haccount]
    exact transact_congr (by decide) h _
  | rotate => exact answering_congr _ (transact_congr (by decide) h _)
  | submitBatch relayer token payouts nonce signatures =>
    refine answering_congr _ ?_
    simp only [submitBatch]
    cases Batch.ofPayouts token payouts nonce with
    | error e => exact ⟨rfl, h⟩
    | ok batch => exact executeBatch_congr h relayer batch signatures
  | executeBatch => exact answering_congr _ (executeBatch_congr h _ _ _)
  | changeAdmin => cases hc
  | upgrade => cases hc

/-- Administrative calls ask of the state no more than whether it is in order. -/
theorem call_congr_of_gate (h : b.gate = b'.gate) (hk : b.checkState = b'.checkState)
    (hc : c.isAdministrative = true) :
    (b.call c).1 = (b'.call c).1 ∧ (b.call c).2.gate = (b'.call c).2.gate := by
  cases c with
  | changeAdmin caller new =>
    refine answering_congr _ ?_
    simp only [changeAdmin, ← h]
    rcases b.gate.changeAdmin caller new with ⟨e | previous, gate⟩ <;> exact ⟨rfl, rfl⟩
  | upgrade caller version =>
    refine answering_congr _ ?_
    simp only [upgrade, ← h, ← hk]
    rcases b.gate.upgrade caller version with ⟨e | done, gate⟩
    · exact ⟨rfl, h⟩
    · cases b.checkState with
      | error e => exact ⟨rfl, h⟩
      | ok done => exact ⟨rfl, rfl⟩
  | _ => cases hc

theorem Effect.gate_eq {answer : Answer} (h : b.Effect c answer b')
    (hc : c.isAdministrative = false) : b'.gate = b.gate := by
  cases h with
  | changeAdmin => cases hc
  | upgrade => cases hc
  | _ => rfl

theorem Effect.vault_eq {answer : Answer} (h : b.Effect c answer b')
    (hc : c.isAdministrative = true) : b'.vault = b.vault := by
  cases h with
  | changeAdmin => rfl
  | upgrade => rfl
  | _ => cases hc

theorem gate_call (hc : c.isAdministrative = false) : (b.call c).2.gate = b.gate := by
  cases h : (b.call c).1 with
  | error e => rw [call_of_error h]
  | ok answer => exact (effect_of_ok h).gate_eq hc

theorem vault_call (hc : c.isAdministrative = true) : (b.call c).2.vault = b.vault := by
  cases h : (b.call c).1 with
  | error e => rw [call_of_error h]
  | ok answer => exact (effect_of_ok h).vault_eq hc

end Bridge

end TokenBridge
