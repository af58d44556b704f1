import TokenBridge.Proofs.Bridge.Numbering
import TokenBridge.Proofs.Bridge.Replay
import TokenBridge.Proofs.Bridge.Separation
import TokenBridge.Proofs.Bridge.Trust

namespace TokenBridge

inductive Call.Leaves : Call → Answer → Event → Prop
  | start {id : BridgeId} {basisPoints : UInt32} {addresses : List Address} {powers : List UInt64}
      {vs : ValidatorSet} (set_eq : ValidatorSet.ofParts addresses powers = .ok vs) :
      Leaves (.start id basisPoints addresses powers) (.checkpoint (Checkpoint.compute id vs 0))
        (.validatorSetUpdated (Commitment.checkpoint id vs 0) 0)
  | deposit {sender token : Address} {destination : Destination} {amount : UInt256}
      {nonce : UInt64} :
      Leaves (.deposit sender token destination.bytes amount)
        (.deposit ⟨token, sender, destination, amount, nonce⟩)
        (.deposit ⟨token, sender, destination, amount, nonce⟩)
  | rotate {id : BridgeId} {addresses : List Address} {powers : List UInt64} {nonce : UInt64}
      {signatures : SignatureSet} {vs : ValidatorSet}
      (set_eq : ValidatorSet.ofParts addresses powers = .ok vs) :
      Leaves (.rotate addresses powers nonce signatures)
        (.checkpoint (Checkpoint.compute id vs nonce))
        (.validatorSetUpdated (Commitment.checkpoint id vs nonce) nonce)
  | submitBatch {relayer token : Address} {payouts : List Payout} {nonce : UInt64}
      {signatures : SignatureSet} :
      Leaves (.submitBatch relayer token payouts nonce signatures) .done
        (.batchExecuted token nonce)
  | executeBatch {relayer : Address} {batch : Batch} {signatures : SignatureSet} :
      Leaves (.executeBatch relayer batch signatures) .done
        (.batchExecuted batch.token batch.nonce)
  | changeAdmin {caller new : Address} :
      Leaves (.changeAdmin caller new) .done (.adminChanged caller new)
  | upgrade {caller : Address} {version : Implementation} :
      Leaves (.upgrade caller version) .done (.upgraded version.number)

namespace Event

def batchNonce? (token : Address) : Event → Option UInt64
  | batchExecuted token' nonce => if token' = token then some nonce else none
  | _ => none

def newAdmin? : Event → Option Address
  | adminChanged _ new => some new
  | _ => none

def version? : Event → Option UInt64
  | upgraded version => some version
  | _ => none

def isFounding : Event → Bool
  | validatorSetUpdated _ nonce => nonce = 0
  | _ => false

end Event

def Step.isHandOut {ε : Type} : Step ε → Bool
  | takeEvents => true
  | _ => false

variable {C ε : Type} [Custody C] {world : ε → C → C}

namespace Bridge

variable {b b' : Bridge C} {c : Call} {answer : Answer}

theorem Effect.leaves (h : b.Effect c answer b') :
    ∃ event, c.events answer = [event] ∧ c.Leaves answer event := by
  cases h with
  | start _ _ set_eq => exact ⟨_, rfl, .start set_eq⟩
  | deposit _ destination_eq _ _ _ recorded =>
    obtain ⟨_, _, rfl, _⟩ := Ledger.record_eq_ok_iff.1 recorded
    obtain rfl := Destination.bytes_of_ok destination_eq
    exact ⟨_, rfl, .deposit⟩
  | rotate _ set_eq rotated =>
    obtain ⟨_, _, rfl, _⟩ := Registry.rotate_eq_ok_iff.1 rotated
    exact ⟨_, rfl, .rotate set_eq⟩
  | submitBatch => exact ⟨_, rfl, .submitBatch⟩
  | executeBatch => exact ⟨_, rfl, .executeBatch⟩
  | changeAdmin => exact ⟨_, rfl, .changeAdmin⟩
  | upgrade => exact ⟨_, rfl, .upgrade⟩

theorem history_leaves (hb : b.journal = []) (steps : List (Step ε)) :
    List.Forall₂ (fun success event ↦ success.1.Leaves success.2 event)
      (b.successes world steps) (b.history world steps) := by
  induction steps using run_induction world b with
  | nil => simp [successes, history, trace, reach, hb]
  | silent steps s hs ih =>
    rw [successes_concat, history_concat, hs]
    simpa using ih
  | success steps c answer hs he ih =>
    obtain ⟨event, hevents, hleaves⟩ := he.leaves
    rw [successes_concat, history_concat, hs, Option.toList_some, List.flatMap_singleton, hevents]
    exact List.rel_append ih (.cons hleaves .nil)

variable (world) in
/-- Handing out the journal changes nothing but the journal. -/
theorem handOuts_isolated :
    Isolates world (fun _ ↦ True) (fun s ↦ !s.isHandOut) fun b ↦ (b.gate, b.vault) where
  valid _ _ := trivial
  unchanged {b s} _ hs := by
    cases s with
    | takeEvents => rfl
    | call => cases hs
    | probe => cases hs
    | outside => cases hs
  determined {b b' s} _ _ hs h := by
    obtain ⟨hgate, hvault⟩ := Prod.mk.inj h
    obtain ⟨haccount, hstate, hcustody⟩ := vault_eq_iff.1 hvault
    cases s with
    | call c =>
      cases hc : c.isAdministrative with
      | true =>
        obtain ⟨hreply, hgate'⟩ := call_congr_of_gate hgate (checkState_congr hstate) hc
        have hvault' : (b.call c).2.vault = (b'.call c).2.vault := by
          rw [vault_call hc, vault_call hc, hvault]
        exact ⟨exchange_congr hreply, Prod.ext hgate' hvault'⟩
      | false =>
        obtain ⟨hreply, hvault'⟩ := call_congr_of_vault hvault hc
        have hgate' : (b.call c).2.gate = (b'.call c).2.gate := by
          rw [gate_call hc, gate_call hc, hgate]
        exact ⟨exchange_congr hreply, Prod.ext hgate' hvault'⟩
    | probe => exact ⟨by simp [Moment.exchange, probe, hgate], h⟩
    | takeEvents => cases hs
    | outside e =>
      have hvault' : (b.perform world (.outside e)).vault = (b'.perform world (.outside e)).vault :=
        vault_eq_iff.2 ⟨haccount, hstate, congrArg (world e) hcustody⟩
      exact ⟨rfl, Prod.ext hgate hvault'⟩

/-- A part of the bridge that events tell: the last event to mention it says what it is. -/
structure Told {β : Type} (view : Bridge C → β) (tells? : Event → Option β) : Prop where
  of_silent : ∀ {b b' : Bridge C}, b'.state = b.state → b'.gate = b.gate → view b' = view b
  of_effect : ∀ {b b' : Bridge C} {c : Call} {answer : Answer}, b.Effect c answer b' →
    view b' = ((c.events answer).filterMap tells?).getLastD (view b)

theorem Told.reach {β : Type} {view : Bridge C → β} {tells? : Event → Option β}
    (h : Told view tells?) (hb : b.journal = []) (steps : List (Step ε)) :
    view (b.reach world steps) =
      ((b.history world steps).filterMap tells?).getLastD (view b) := by
  induction steps using run_induction world b with
  | nil => simp [history, trace, Bridge.reach, hb]
  | silent steps s hs ih =>
    obtain ⟨_, hgate, hstate, _⟩ := frame_of_no_success hs
    rw [history_concat, hs, reach_concat, h.of_silent hstate hgate, ih]
    simp
  | success steps c answer hs he ih =>
    rw [history_concat, hs, Option.toList_some, List.flatMap_singleton, List.filterMap_append,
      h.of_effect he, ih]
    simp only [List.getLastD_eq_getLast?, List.getLast?_append, Option.getD_or]

theorem admin_told : Told (C := C) (·.gate.admin) Event.newAdmin? where
  of_silent _ hgate := by rw [hgate]
  of_effect h := by cases h <;> rfl

theorem implementation_told :
    Told (C := C) (·.gate.implementation.number) Event.version? where
  of_silent _ hgate := by rw [hgate]
  of_effect h := by cases h <;> rfl

omit [Custody C] in
def announced? (b : Bridge C) : Option (Word × UInt64) :=
  b.state.map fun state ↦ (state.registry.checkpoint.commitment, state.registry.nonce)

theorem announced_told :
    Told (C := C) announced? fun e ↦ e.announced?.map some where
  of_silent hstate _ := by rw [announced?, hstate, announced?]
  of_effect h := by
    cases h with
    | start => rfl
    | rotate _ _ rotated =>
      obtain ⟨_, _, rfl, rfl⟩ := Registry.rotate_eq_ok_iff.1 rotated
      rfl
    | deposit ready => simp [announced?, ready, Call.events, Event.announced?]
    | submitBatch _ ready => simp [announced?, ready, Call.events, Event.announced?]
    | executeBatch ready => simp [announced?, ready, Call.events, Event.announced?]
    | changeAdmin => rfl
    | upgrade => rfl

theorem Effect.events_of_payment {p : Payment} (h : b.Effect c answer b')
    (hp : c.payment? = some p) :
    c.events answer = [.batchExecuted p.batch.token p.batch.nonce] := by
  cases h with
  | submitBatch =>
    cases hp
    rfl
  | executeBatch =>
    cases hp
    rfl
  | _ => cases hp

theorem Effect.batchNonces_eq (h : b.Effect c answer b') (token : Address) :
    (c.events answer).filterMap (Event.batchNonce? token) = (c.batchNonce? token).toList := by
  cases hp : c.payment? with
  | some p =>
    rw [h.events_of_payment hp]
    by_cases ht : p.batch.token = token <;>
      simp [Event.batchNonce?, Call.batchNonce?, Option.filter, hp, ht]
  | none =>
    cases h with
    | submitBatch => cases hp
    | executeBatch => cases hp
    | _ => rfl

theorem batchNonce_told (token : Address) :
    Told (C := C) (batchNonce token) (Event.batchNonce? token) where
  of_silent hstate _ := (batchNonce_counts token).of_state hstate
  of_effect {b b' c answer} h := by
    rw [h.batchNonces_eq]
    cases hn : c.batchNonce? token with
    | none => exact (batchNonce_counts token).of_none h hn
    | some n => exact ((batchNonce_counts token).of_some h hn).2

theorem Effect.isSome_eq (h : b.Effect c answer b') :
    b'.state.isSome = (b.state.isSome || (c.events answer).any Event.isFounding) := by
  cases h with
  | start => simp [Call.events, Event.isFounding, Checkpoint.compute]
  | deposit ready => simp [ready]
  | rotate ready => simp [ready]
  | submitBatch _ ready => simp [ready]
  | executeBatch ready => simp [ready]
  | changeAdmin => simp [Call.events, Event.isFounding]
  | upgrade => simp [Call.events, Event.isFounding]

theorem isSome_reach (hb : b.state = none) (hj : b.journal = []) (steps : List (Step ε)) :
    (b.reach world steps).state.isSome = (b.history world steps).any Event.isFounding := by
  induction steps using run_induction world b with
  | nil => simp [history, trace, Bridge.reach, hb, hj]
  | silent steps s hs ih =>
    rw [history_concat, hs, reach_concat, (frame_of_no_success hs).2.2.1, ih]
    simp
  | success steps c answer hs he ih =>
    rw [history_concat, hs, Option.toList_some, List.flatMap_singleton, List.any_append,
      he.isSome_eq, ih]

theorem deposits_told (account admin : Address) (custody : C) (steps : List (Step ε)) :
    ((new account admin custody).reach world steps).lastNumber =
      (((new account admin custody).history world steps).filterMap Event.record?).length := by
  let deposits := (new account admin custody).deposits world steps
  have hnumbers : (deposits.filterMap (·.2.record?)).map (·.nonce.toNat) =
      List.range' 1 deposits.length := numbers_of_deposits rfl steps
  have hlength := congrArg List.length hnumbers
  rw [List.length_map, List.length_range'] at hlength
  rw [records_history rfl, hlength, lastNumber_reach rfl]

/-- The history of a run has one event for each successful call, in their order, wherever it was
handed out, and whoever reads it knows what the bridge has come to. -/
theorem journal_tells_all (account admin : Address) (custody : C) (world : ε → C → C)
    (steps : List (Step ε)) :
    let origin := new account admin custody
    let b := origin.reach world steps
    let events := origin.history world steps
    List.Forall₂ (fun success event ↦ success.1.Leaves success.2 event)
      (origin.successes world steps) events ∧
    origin.history world (steps.filter fun s ↦ !s.isHandOut) = events ∧
    (events.filterMap Event.announced?).getLast? =
      b.state.map (fun state ↦ (state.registry.checkpoint.commitment, state.registry.nonce)) ∧
    b.lastDepositNonce.map UInt64.toNat =
      b.ready.map (fun _ ↦ (events.filterMap Event.record?).length) ∧
    (∀ token, b.lastBatchNonce token =
      b.ready.map fun _ ↦ (events.filterMap (Event.batchNonce? token)).getLastD 0) ∧
    b.gate.admin = (events.filterMap Event.newAdmin?).getLastD admin ∧
    b.gate.implementation.number = (events.filterMap Event.version?).getLastD 1 ∧
    (b.state.isSome ↔ ∃ commitment, Event.validatorSetUpdated commitment 0 ∈ events) := by
  intro origin b events
  have hand_out : origin.history world (steps.filter fun s ↦ !s.isHandOut) =
      events.filter fun _ ↦ true :=
    (handOuts_isolated world).filter_history trivial rfl (fun _ _ _ _ ↦ rfl) steps
  have announced : b.announced? =
      (events.filterMap fun e ↦ e.announced?.map some).getLastD none :=
    announced_told.reach rfl steps
  refine ⟨history_leaves rfl steps, ?_, ?_, ?_, ?_, admin_told.reach rfl steps,
    implementation_told.reach rfl steps, ?_⟩
  · rw [hand_out, List.filter_eq_self.2 fun _ _ ↦ rfl]
  · rw [← announced?, announced, ← List.map_filterMap, List.getLastD_eq_getLast?,
      List.getLast?_map]
    cases (events.filterMap Event.announced?).getLast? <;> rfl
  · rw [lastDepositNonce_eq, deposits_told]
  · intro token
    rw [lastBatchNonce_eq, (batchNonce_told token).reach rfl]
    rfl
  · rw [isSome_reach rfl rfl, List.any_eq_true]
    constructor
    · rintro ⟨e, he, hfounding⟩
      cases e <;> simp [Event.isFounding] at hfounding
      subst hfounding
      exact ⟨_, he⟩
    · rintro ⟨commitment, he⟩
      exact ⟨_, he, rfl⟩

end Bridge

end TokenBridge
