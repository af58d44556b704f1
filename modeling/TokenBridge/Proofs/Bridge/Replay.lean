import TokenBridge.Proofs.Bridge.Run
import Mathlib.Data.List.Basic

namespace TokenBridge

/-- A counter that stood at zero and took these values in turn, each above the one before. -/
structure Climbs (values : List UInt64) (last : UInt64) : Prop where
  increasing : values.Pairwise (· < ·)
  pos : ∀ n ∈ values, 1 ≤ n
  last_eq : last = values.getLastD 0

namespace Climbs

variable {values : List UInt64} {last n : UInt64}

theorem nil : Climbs [] 0 := ⟨.nil, by simp, rfl⟩

theorem le_last (h : Climbs values last) (hn : n ∈ values) : n ≤ last := by
  obtain ⟨init, top, rfl⟩ := values.eq_nil_or_concat'.resolve_left (List.ne_nil_of_mem hn)
  have hlast : last = top := by simpa using h.last_eq
  have hinc := (List.pairwise_append.1 h.increasing).2.2
  rcases List.mem_append.1 hn with hn | hn
  · exact UInt64.le_of_lt (hlast ▸ hinc n hn top (List.mem_singleton_self top))
  · exact hlast ▸ UInt64.le_of_eq (List.mem_singleton.1 hn)

theorem concat (h : Climbs values last) (hn : last < n) : Climbs (values ++ [n]) n := by
  refine ⟨List.pairwise_append.2 ⟨h.increasing, List.pairwise_singleton _ _, ?_⟩, ?_, ?_⟩
  · intro a ha b hb
    obtain rfl := List.mem_singleton.1 hb
    exact UInt64.lt_of_le_of_lt (h.le_last ha) hn
  · intro a ha
    rcases List.mem_append.1 ha with ha | ha
    · exact h.pos a ha
    · obtain rfl := List.mem_singleton.1 ha
      have := UInt64.lt_iff_toNat_lt.1 hn
      exact UInt64.le_iff_toNat_le.2 (by simp; omega)
  · simp

end Climbs

def Call.batchNonce? (token : Address) (c : Call) : Option UInt64 :=
  (c.payment?.filter (·.batch.token = token)).map (·.batch.nonce)

variable {C ε : Type} [Custody C] {world : ε → C → C}

namespace Bridge

omit [Custody C] in
def batchNonce (token : Address) (b : Bridge C) : UInt64 :=
  b.state.elim 0 (·.executor.lastNonce token)

omit [Custody C] in
def setNonce (b : Bridge C) : UInt64 := b.state.elim 0 (·.registry.nonce)

/-- A number that a bridge keeps in its state, and that no calls change but those that raise it. -/
structure Counts (view : Bridge C → UInt64) (raise? : Call → Option UInt64) : Prop where
  of_state : ∀ {b b' : Bridge C}, b'.state = b.state → view b' = view b
  of_none : ∀ {b b' : Bridge C} {c : Call} {answer : Answer}, b.Effect c answer b' →
    raise? c = none → view b' = view b
  of_some : ∀ {b b' : Bridge C} {c : Call} {answer : Answer} {n : UInt64}, b.Effect c answer b' →
    raise? c = some n → view b < n ∧ view b' = n

variable {view : Bridge C → UInt64} {raise? : Call → Option UInt64} {b : Bridge C}

variable (world) in
theorem Counts.climbs (h : Counts view raise?) (hb : view b = 0) (steps : List (Step ε)) :
    Climbs ((b.successes world steps).filterMap fun success ↦ raise? success.1)
      (view (b.reach world steps)) := by
  induction steps using run_induction world b with
  | nil => exact hb ▸ .nil
  | silent steps s hs ih =>
    rw [successes_concat, hs, reach_concat, h.of_state (frame_of_no_success hs).2.2.1]
    simpa using ih
  | success steps c answer hs he ih =>
    rw [successes_concat, hs, List.filterMap_append]
    cases hn : raise? c with
    | none =>
      rw [h.of_none he hn]
      simpa [hn] using ih
    | some n =>
      obtain ⟨hlt, heq⟩ := h.of_some he hn
      rw [heq]
      simpa [hn] using ih.concat hlt

theorem Counts.exists_of_ne (h : Counts view raise?) {s : Step ε}
    (hs : view (b.perform world s) ≠ view b) :
    ∃ c answer, s = .call c ∧ (b.call c).1 = .ok answer ∧
      raise? c = some (view (b.perform world s)) := by
  cases hm : Moment.success? ⟨b, s⟩ with
  | none => exact absurd (h.of_state (frame_of_no_success hm).2.2.1) hs
  | some success =>
    obtain ⟨c, answer⟩ := success
    have he : b.Effect c answer (b.perform world s) := effect_of_success hm
    obtain rfl := step_of_success hm
    cases hn : raise? c with
    | none => exact absurd (h.of_none he hn) hs
    | some n =>
      rw [(h.of_some he hn).2]
      exact ⟨c, answer, rfl, congrArg Prod.fst (call_eq_ok_iff.2 he), hn⟩

theorem batchNonce_counts (token : Address) :
    Counts (C := C) (batchNonce token) (Call.batchNonce? token) where
  of_state h := by simp [batchNonce, h]
  of_none {b b' c answer} h hn := by
    cases hp : c.payment? with
    | some p =>
      obtain ⟨state, executor, ready, ready', executed⟩ := h.of_payment hp
      obtain ⟨_, _, _, rfl⟩ := Executor.execute_eq_ok_iff.1 executed
      have hne : p.batch.token ≠ token := by simpa [Call.batchNonce?, hp] using hn
      simp [batchNonce, ready, ready', Executor.lastNonce_advance_of_ne _ hne]
    | none =>
      cases h with
      | start fresh => simp [batchNonce, fresh, BridgeState.new, Executor.lastNonce_empty]
      | deposit ready => simp [batchNonce, ready]
      | rotate ready => simp [batchNonce, ready]
      | submitBatch => cases hp
      | executeBatch => cases hp
      | changeAdmin => rfl
      | upgrade => rfl
  of_some {b b' c answer n} h hn := by
    simp only [Call.batchNonce?, Option.map_eq_some_iff, Option.filter_eq_some_iff,
      decide_eq_true_eq] at hn
    obtain ⟨p, ⟨hp, rfl⟩, rfl⟩ := hn
    obtain ⟨state, executor, ready, ready', executed⟩ := h.of_payment hp
    obtain ⟨hlt, _, _, rfl⟩ := Executor.execute_eq_ok_iff.1 executed
    simp [batchNonce, ready, ready', Executor.lastNonce_advance_self, hlt]

theorem setNonce_counts : Counts (C := C) setNonce Call.rotationNonce? where
  of_state h := by simp [setNonce, h]
  of_none h hn := by
    cases h with
    | start fresh =>
      simp [setNonce, fresh, BridgeState.new, Registry.nonce, Registry.genesis, Checkpoint.compute]
    | deposit ready => simp [setNonce, ready]
    | rotate => cases hn
    | submitBatch _ ready => simp [setNonce, ready]
    | executeBatch ready => simp [setNonce, ready]
    | changeAdmin => rfl
    | upgrade => rfl
  of_some h hn := by
    cases h with
    | rotate ready _ rotated =>
      cases hn
      obtain ⟨hlt, _, _, rfl⟩ := Registry.rotate_eq_ok_iff.1 rotated
      exact ⟨by simpa [setNonce, ready] using hlt, rfl⟩
    | _ => cases hn

section

omit [Custody C]

theorem lastBatchNonce_eq (b : Bridge C) (token : Address) :
    b.lastBatchNonce token = b.ready.map fun _ ↦ b.batchNonce token := by
  cases h : b.state <;> simp [lastBatchNonce, ready, batchNonce, h, Except.map]

theorem batchNonce_of_ok {token : Address} {last : UInt64} (h : b.lastBatchNonce token = .ok last) :
    b.batchNonce token = last := by
  cases hs : b.state with
  | none => simp [lastBatchNonce, ready, hs, Except.map] at h
  | some state => simpa [lastBatchNonce, ready, batchNonce, hs, Except.map] using h

theorem lastBatchNonce_of_state {state : BridgeState} (h : b.state = some state) (token : Address) :
    b.lastBatchNonce token = .ok (state.executor.lastNonce token) := by
  simp [lastBatchNonce, ready, h, Except.map]

theorem nonce_of_state {state : BridgeState} (h : b.state = some state) :
    b.ready.map (·.registry.nonce) = .ok state.registry.nonce := by
  simp [ready, h, Except.map]

theorem nonce_eq (b : Bridge C) :
    b.ready.map (·.registry.nonce) = b.ready.map fun _ ↦ b.setNonce := by
  cases h : b.state <;> simp [ready, setNonce, h, Except.map]

theorem rotate_stale {current nonce : UInt64} {addresses : List Address} {powers : List UInt64}
    {vs : ValidatorSet} (hcurrent : b.ready.map (·.registry.nonce) = .ok current)
    (hv : ValidatorSet.ofParts addresses powers = .ok vs) (h : nonce ≤ current)
    (signatures : SignatureSet) :
    b.rotate addresses powers nonce signatures = (.error (.staleSetNonce nonce current), b) := by
  cases hs : b.state with
  | none => simp [ready, hs, Except.map] at hcurrent
  | some state =>
    obtain rfl : state.registry.nonce = current := by simpa [nonce_of_state hs] using hcurrent
    rw [rotate, transact_of_some (by decide) hs]
    simp [commit, replaceSet, hv, Registry.rotate, h]

end

theorem executeBatch_stale {state : BridgeState} (ready : b.state = some state) {batch : Batch}
    (h : batch.nonce ≤ state.executor.lastNonce batch.token) (relayer : Address)
    (signatures : SignatureSet) :
    b.executeBatch relayer batch signatures =
      (.error (.staleBatchNonce batch.token batch.nonce
        (state.executor.lastNonce batch.token)), b) := by
  rw [executeBatch, transact_of_some (by decide) ready]
  simp [commit, settle, Executor.execute, h]

theorem state_of_payment {state : BridgeState} {c : Call} {answer : Answer} {p : Payment}
    (h : (b.call c).1 = .ok answer) (hp : c.payment? = some p) (ready : b.state = some state) :
    (b.perform world (.call c)).state =
      some { state with executor := state.executor.advance p.batch } := by
  obtain ⟨state', executor, ready', after, executed⟩ := (effect_of_ok h).of_payment hp
  obtain rfl := Option.some.inj (ready.symm.trans ready')
  obtain ⟨_, _, _, rfl⟩ := Executor.execute_eq_ok_iff.1 executed
  exact after

theorem executeBatch_of_climbs {values : List UInt64} {batch : Batch} {n : UInt64}
    (h : Climbs values (b.batchNonce batch.token)) (hn : n ∈ values) (hle : batch.nonce ≤ n)
    (relayer : Address) (signatures : SignatureSet) :
    ∃ last, b.lastBatchNonce batch.token = .ok last ∧
      b.executeBatch relayer batch signatures =
        (.error (.staleBatchNonce batch.token batch.nonce last), b) := by
  have hlast := h.le_last hn
  cases hs : b.state with
  | none =>
    have hpos := UInt64.le_iff_toNat_le.1 (h.pos n hn)
    have := UInt64.le_iff_toNat_le.1 hlast
    simp [batchNonce, hs] at this hpos
    omega
  | some state =>
    have hstale : batch.nonce ≤ state.executor.lastNonce batch.token := by
      simpa [batchNonce, hs] using UInt64.le_trans hle hlast
    exact ⟨_, lastBatchNonce_of_state hs batch.token,
      executeBatch_stale hs hstale relayer signatures⟩

/-- Nonces only rise, so that what was paid or installed once is refused from then on. -/
theorem no_replay (account admin : Address) (custody : C) (world : ε → C → C)
    (steps : List (Step ε)) :
    let b := (new account admin custody).reach world steps
    let calls := ((new account admin custody).successes world steps).map Prod.fst
    (∀ token,
      (calls.filterMap (Call.batchNonce? token)).Pairwise (· < ·) ∧
      (∀ n ∈ calls.filterMap (Call.batchNonce? token), 1 ≤ n) ∧
      b.lastBatchNonce token =
        b.ready.map (fun _ ↦ (calls.filterMap (Call.batchNonce? token)).getLastD 0) ∧
      (∀ s last last', b.lastBatchNonce token = .ok last →
        (b.perform world s).lastBatchNonce token = .ok last' → last ≠ last' →
        ∃ c answer, s = .call c ∧ (b.call c).1 = .ok answer ∧ c.batchNonce? token = some last')) ∧
    (calls.filterMap Call.rotationNonce?).Pairwise (· < ·) ∧
    (∀ n ∈ calls.filterMap Call.rotationNonce?, 1 ≤ n) ∧
    b.ready.map (·.registry.nonce) =
      b.ready.map (fun _ ↦ (calls.filterMap Call.rotationNonce?).getLastD 0) ∧
    (∀ relayer batch signatures, ∀ n ∈ calls.filterMap (Call.batchNonce? batch.token),
      batch.nonce ≤ n → ∃ last, b.lastBatchNonce batch.token = .ok last ∧
        b.executeBatch relayer batch signatures =
          (.error (.staleBatchNonce batch.token batch.nonce last), b)) ∧
    (∀ addresses powers vs nonce signatures current,
      ValidatorSet.ofParts addresses powers = .ok vs →
      b.ready.map (·.registry.nonce) = .ok current → nonce ≤ current →
        b.rotate addresses powers nonce signatures =
          (.error (.staleSetNonce nonce current), b)) := by
  intro b calls
  have batches (token : Address) :
      Climbs (calls.filterMap (Call.batchNonce? token)) (b.batchNonce token) := by
    have h := (batchNonce_counts token).climbs world (b := new account admin custody) rfl steps
    simpa [calls, List.filterMap_map, Function.comp_def] using h
  have rotations : Climbs (calls.filterMap Call.rotationNonce?) b.setNonce := by
    have h := setNonce_counts.climbs world (b := new account admin custody) rfl steps
    simpa [calls, List.filterMap_map, Function.comp_def] using h
  refine ⟨fun token ↦ ⟨(batches token).increasing, (batches token).pos, ?_, ?_⟩,
    rotations.increasing, rotations.pos, ?_, ?_, ?_⟩
  · rw [lastBatchNonce_eq, (batches token).last_eq]
  · intro s last last' hlast hlast' hne
    obtain rfl := batchNonce_of_ok hlast
    obtain rfl := batchNonce_of_ok hlast'
    exact (batchNonce_counts token).exists_of_ne hne.symm
  · rw [nonce_eq, rotations.last_eq]
  · intro relayer batch signatures n hn hle
    exact executeBatch_of_climbs (batches batch.token) hn hle relayer signatures
  · intro addresses powers vs nonce signatures current hv hcurrent hle
    exact rotate_stale hcurrent hv hle signatures

theorem ferry_crossed :
    (ferry.reach (fun funds _ ↦ funds) (ferrySteps ++ [.call ferryCrossing])).state =
      some { BridgeState.new (.genesis ferryId .default ferryCrew) with
        executor := Executor.empty.advance ferryBatch } := by
  rw [reach_concat]
  exact state_of_payment ferry_crosses rfl ferry_started

theorem no_replay_ferry :
    let before := ferry.reach (fun funds _ ↦ funds) ferrySteps
    let after := ferry.reach (fun funds _ ↦ funds) (ferrySteps ++ [.call ferryCrossing])
    (∃ c answer, (Step.call ferryCrossing : Step Balances) = .call c ∧
      (before.call c).1 = .ok answer ∧ c.batchNonce? ferryToken = some 5) ∧
    (∃ last, after.lastBatchNonce ferryToken = .ok last ∧
      after.executeBatch ferryman ⟨ferryToken, [], 4⟩ ferrySignatures =
        (.error (.staleBatchNonce ferryToken 4 last), after)) ∧
    after.rotate [ferryman] [1] 0 ferrySignatures = (.error (.staleSetNonce 0 0), after) := by
  intro before after
  obtain ⟨batches, _⟩ := no_replay (FixedBytes.ofNat 20 0xbb) (FixedBytes.ofNat 20 0xad)
    Balances.empty (fun funds _ ↦ funds) ferrySteps
  obtain ⟨_, _, _, _, replayed, rotated⟩ := no_replay (FixedBytes.ofNat 20 0xbb)
    (FixedBytes.ofNat 20 0xad) Balances.empty (fun funds _ ↦ funds)
    (ferrySteps ++ [.call ferryCrossing])
  have hbefore : before.lastBatchNonce ferryToken = .ok 0 :=
    lastBatchNonce_of_state ferry_started ferryToken
  have hafter : after.lastBatchNonce ferryToken = .ok 5 :=
    lastBatchNonce_of_state ferry_crossed ferryToken
  have hnonce : after.ready.map (·.registry.nonce) = .ok 0 := nonce_of_state ferry_crossed
  have hmem : (ferryCrossing, .done) ∈ ferry.successes (fun funds _ ↦ funds)
      (ferrySteps ++ [.call ferryCrossing]) := by
    rw [successes_concat]
    exact List.mem_append_right _ (Option.mem_toList.2 (success_of_ok ferry_crosses))
  refine ⟨?_, ?_, ?_⟩
  · refine (batches ferryToken).2.2.2 (.call ferryCrossing) 0 5 hbefore ?_ (by decide)
    simp only [after, reach_concat] at hafter
    exact hafter
  · exact replayed ferryman ⟨ferryToken, [], 4⟩ ferrySignatures 5
      (List.mem_filterMap.2 ⟨ferryCrossing, List.mem_map.2 ⟨_, hmem, rfl⟩, rfl⟩) (by decide)
  · exact rotated [ferryman] [1] ferryCrew 0 ferrySignatures 0 ferry_crewed hnonce (by decide)

end Bridge

end TokenBridge
