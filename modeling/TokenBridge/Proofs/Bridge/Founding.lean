import TokenBridge.Proofs.Bridge.Run
import TokenBridge.Proofs.Registry.Consistency

namespace TokenBridge

def Call.founds? : Call → Option (BridgeId × UInt32)
  | start id basisPoints _ _ => some (id, basisPoints)
  | _ => none

variable {C ε : Type} [Custody C] {world : ε → C → C}

namespace Bridge

section

omit [Custody C]

def founding? (b : Bridge C) : Option (BridgeId × UInt32) :=
  b.state.map fun state ↦ (state.registry.bridgeId, state.registry.threshold.basisPoints)

/-- Whatever registry a bridge has is consistent. -/
def Sound (b : Bridge C) : Prop := ∀ state, b.state = some state → state.registry.Consistent

variable {b b' : Bridge C}

theorem founding?_of_state (h : b'.state = b.state) : b'.founding? = b.founding? := by
  rw [founding?, founding?, h]

theorem Sound.of_registry (h : b.Sound) {state state' : BridgeState} (ready : b.state = some state)
    (ready' : b'.state = some state') (heq : state'.registry = state.registry) : b'.Sound := by
  intro found hfound
  obtain rfl := Option.some.inj (ready'.symm.trans hfound)
  exact heq ▸ h state ready

theorem Sound.checkState_eq_ok (h : b.Sound) : b.checkState = .ok () := by
  cases hs : b.state with
  | none => simp [checkState, hs]
  | some state => simp [checkState, hs, Registry.check_eq_ok_iff.2 (h state hs)]

end

variable (world) in
def foundings (b : Bridge C) (steps : List (Step ε)) : List (BridgeId × UInt32) :=
  (b.successes world steps).filterMap fun success ↦ success.1.founds?

variable {b b' : Bridge C} {c : Call} {answer : Answer}

theorem Effect.founding?_eq (h : b.Effect c answer b') :
    b'.founding?.toList = b.founding?.toList ++ c.founds?.toList := by
  cases h with
  | start fresh threshold_eq =>
    have hpoints := PowerThreshold.basisPoints_of_ok threshold_eq
    simp [founding?, fresh, Call.founds?, BridgeState.new, Registry.genesis, Registry.bridgeId,
      Checkpoint.compute, hpoints]
  | deposit ready => simp [founding?, ready, Call.founds?]
  | rotate ready _ rotated =>
    obtain ⟨_, hid, hthreshold⟩ := Registry.rotate_consistent rotated
    simp [founding?, ready, Call.founds?, hid, hthreshold]
  | submitBatch _ ready => simp [founding?, ready, Call.founds?]
  | executeBatch ready => simp [founding?, ready, Call.founds?]
  | changeAdmin => simp [founding?, Call.founds?]
  | upgrade => simp [founding?, Call.founds?]

theorem Effect.sound (h : b.Effect c answer b') (before : b.Sound) : b'.Sound := by
  cases h with
  | start =>
    rintro _ ⟨⟩
    exact Registry.genesis_consistent _ _ _
  | rotate _ _ rotated =>
    rintro _ ⟨⟩
    exact (Registry.rotate_consistent rotated).1
  | deposit ready => exact before.of_registry ready rfl rfl
  | submitBatch _ ready => exact before.of_registry ready rfl rfl
  | executeBatch ready => exact before.of_registry ready rfl rfl
  | changeAdmin => exact before
  | upgrade => exact before

theorem sound_reach (account admin : Address) (custody : C) (steps : List (Step ε)) :
    ((new account admin custody).reach world steps).Sound := by
  induction steps using run_induction world (new account admin custody) with
  | nil => rintro _ ⟨⟩
  | silent steps s hs ih =>
    rw [reach_concat, Sound, (frame_of_no_success hs).2.2.1]
    exact ih
  | success steps c answer hs he ih => exact he.sound ih

theorem foundings_reach (account admin : Address) (custody : C) (steps : List (Step ε)) :
    (new account admin custody).foundings world steps =
      ((new account admin custody).reach world steps).founding?.toList := by
  induction steps using run_induction world (new account admin custody) with
  | nil => rfl
  | silent steps s hs ih =>
    rw [reach_concat, founding?_of_state (frame_of_no_success hs).2.2.1, ← ih, foundings,
      successes_concat, hs, Option.toList_none, List.append_nil, foundings]
  | success steps c answer hs he ih =>
    rw [he.founding?_eq, ← ih, foundings, successes_concat, hs, List.filterMap_append, foundings]
    cases h : c.founds? <;> simp [h]

/-- A bridge that has been started keeps a consistent registry, under the id and with the threshold
of its one start, so that its administrator can always switch implementations. -/
theorem registry_stays_consistent (account admin : Address) (custody : C) (world : ε → C → C)
    (steps : List (Step ε)) :
    let b := (new account admin custody).reach world steps
    (∀ state, b.state = some state →
      state.registry.Consistent ∧
        (new account admin custody).foundings world steps =
          [(state.registry.bridgeId, state.registry.threshold.basisPoints)] ∧
        state.registry.check = .ok ()) ∧
    b.checkState = .ok () ∧
    ∀ version, b.upgrade b.gate.admin version =
      (.ok (), { b with
        gate := { b.gate with implementation := version }
        journal := b.journal ++ [.upgraded version.number] }) := by
  intro b
  have sound : b.Sound := sound_reach account admin custody steps
  refine ⟨?_, sound.checkState_eq_ok, fun version ↦ ?_⟩
  · intro state ready
    refine ⟨sound state ready, ?_, Registry.check_eq_ok_iff.2 (sound state ready)⟩
    have hfoundings : (new account admin custody).foundings world steps = b.founding?.toList :=
      foundings_reach account admin custody steps
    rw [hfoundings, founding?, ready]
    rfl
  · exact upgrade_eq_ok_iff.2 (.upgrade sound.checkState_eq_ok)

theorem registry_stays_consistent_ferry :
    let b := ferry.reach (fun funds _ ↦ funds) ferrySteps
    (∃ vs, b.state = some (.new (.genesis ferryId .default vs)) ∧
      (Registry.genesis ferryId .default vs).Consistent) ∧
    ferry.foundings (fun funds _ ↦ funds) ferrySteps = [(ferryId, 6666)] ∧
    (b.upgrade (FixedBytes.ofNat 20 0xad) .v2).1 = .ok () := by
  intro b
  obtain ⟨registered, _, upgradable⟩ := registry_stays_consistent (FixedBytes.ofNat 20 0xbb)
    (FixedBytes.ofNat 20 0xad) Balances.empty (fun funds _ ↦ funds) ferrySteps
  obtain ⟨consistent, founded, _⟩ := registered _ ferry_started
  have hadmin : b.gate.admin = FixedBytes.ofNat 20 0xad := by decide +kernel
  exact ⟨⟨ferryCrew, ferry_started, consistent⟩, founded, hadmin ▸ congrArg Prod.fst (upgradable .v2)⟩

end Bridge

end TokenBridge
