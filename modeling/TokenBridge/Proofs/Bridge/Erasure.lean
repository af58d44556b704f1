import TokenBridge.Proofs.Bridge.Run
import Mathlib.Data.List.Basic

namespace TokenBridge

variable {C ε : Type} [Custody C]

namespace Moment

def outcome? (m : Moment C ε) : Option (Except BridgeError Answer) :=
  match m.step with
  | .call c => some (m.bridge.call c).1
  | _ => none

def failed (m : Moment C ε) : Bool := m.outcome?.any fun outcome ↦ !outcome.isOk

theorem exists_error_of_failed {m : Moment C ε} (h : m.failed = true) :
    ∃ c e, m.step = .call c ∧ (m.bridge.call c).1 = .error e := by
  obtain ⟨b, s⟩ := m
  cases s with
  | call c =>
    cases ho : (b.call c).1 with
    | error e => exact ⟨c, e, rfl, ho⟩
    | ok answer => simp [failed, outcome?, ho, Except.isOk, Except.toBool] at h
  | probe => cases h
  | takeEvents => cases h
  | outside e => cases h

theorem failed_eq (m : Moment C ε) : (!m.failed) = m.outcome?.all (·.isOk) := by
  cases h : m.outcome? <;> simp [failed, h]

theorem success?_of_failed {m : Moment C ε} (h : m.failed = true) : m.success? = none := by
  obtain ⟨c, e, hstep, he⟩ := exists_error_of_failed h
  simp [success?, hstep, he, Except.toOption]

end Moment

namespace Bridge

section

variable (world : ε → C → C)

def outcomes (b : Bridge C) (steps : List (Step ε)) : List (Except BridgeError Answer) :=
  (b.trace world steps).filterMap Moment.outcome?

/-- The steps of a run without the calls that fail in it. -/
def effective (b : Bridge C) (steps : List (Step ε)) : List (Step ε) :=
  ((b.trace world steps).filter fun m ↦ !m.failed).map (·.step)

end

variable {world : ε → C → C} {b : Bridge C} {s : Step ε}

theorem perform_of_failed (h : Moment.failed ⟨b, s⟩ = true) : b.perform world s = b := by
  obtain ⟨c, e, rfl, he⟩ := Moment.exists_error_of_failed h
  exact call_of_error he

theorem effective_cons_of_failed (h : Moment.failed ⟨b, s⟩ = true) (rest : List (Step ε)) :
    b.effective world (s :: rest) = b.effective world rest := by
  rw [effective, trace, List.filter_cons_of_neg (by simp [h]), perform_of_failed h, effective]

theorem effective_cons (h : Moment.failed ⟨b, s⟩ = false) (rest : List (Step ε)) :
    b.effective world (s :: rest) = s :: (b.perform world s).effective world rest := by
  rw [effective, trace, List.filter_cons_of_pos (by simp [h]), List.map_cons, effective]

/-- The steps that are left meet the bridges that they met before. -/
theorem trace_effective (steps : List (Step ε)) :
    b.trace world (b.effective world steps) =
      (b.trace world steps).filter fun m ↦ !m.failed := by
  induction steps generalizing b with
  | nil => rfl
  | cons s rest ih =>
    -- Behind a failed call the run goes on from the bridge that the call met.
    cases h : Moment.failed ⟨b, s⟩ with
    | true =>
      rw [effective_cons_of_failed h, ih, trace, List.filter_cons_of_neg (by simp [h]),
        perform_of_failed h]
    | false =>
      rw [effective_cons h, trace, ih, trace, List.filter_cons_of_pos (by simp [h])]

theorem reach_effective (steps : List (Step ε)) :
    b.reach world (b.effective world steps) = b.reach world steps := by
  induction steps generalizing b with
  | nil => rfl
  | cons s rest ih =>
    cases h : Moment.failed ⟨b, s⟩ with
    | true => rw [effective_cons_of_failed h, ih, reach_cons, perform_of_failed h]
    | false => rw [effective_cons h, reach_cons, ih, reach_cons]

theorem outcomes_effective (steps : List (Step ε)) :
    b.outcomes world (b.effective world steps) = (b.outcomes world steps).filter (·.isOk) := by
  rw [outcomes, trace_effective, outcomes, List.filterMap_filter, List.filter_filterMap]
  refine List.filterMap_congr fun m _ ↦ ?_
  rw [Moment.failed_eq]
  cases m.outcome? with
  | none => rfl
  | some outcome => simp [Option.filter]

theorem successes_effective (steps : List (Step ε)) :
    b.successes world (b.effective world steps) = b.successes world steps := by
  rw [successes, trace_effective, successes, List.filterMap_filter]
  refine List.filterMap_congr fun m _ ↦ ?_
  cases h : m.failed with
  | true => simp [Moment.success?_of_failed h]
  | false => rfl

theorem history_effective (steps : List (Step ε)) :
    b.history world (b.effective world steps) = b.history world steps := by
  rw [history_eq, successes_effective, history_eq]

theorem Effect.exists_event {b' : Bridge C} {c : Call} {answer : Answer}
    (h : b.Effect c answer b') :
    ∃ event, c.events answer = [event] ∧ b'.journal = b.journal ++ [event] := by
  cases h <;> exact ⟨_, rfl, rfl⟩

/-- A call that fails changes nothing, and one that succeeds adds one event to the journal. A run
is therefore the same without the calls that fail in it: those that are left meet the same bridges,
with the same answers, and what they leave behind is the same. -/
theorem failures_leave_no_trace (b : Bridge C) (world : ε → C → C) :
    (∀ c e, (b.call c).1 = .error e → (b.call c).2 = b) ∧
      (∀ c answer, (b.call c).1 = .ok answer →
        ∃ event, c.events answer = [event] ∧ (b.call c).2.journal = b.journal ++ [event]) ∧
      ∀ steps : List (Step ε),
        b.trace world (b.effective world steps) =
            (b.trace world steps).filter (fun m ↦ !m.failed) ∧
          b.outcomes world (b.effective world steps) =
            (b.outcomes world steps).filter (·.isOk) ∧
          b.reach world (b.effective world steps) = b.reach world steps ∧
          b.history world (b.effective world steps) = b.history world steps := by
  refine ⟨fun c e h ↦ call_of_error h, fun c answer h ↦ (effect_of_ok h).exists_event, ?_⟩
  intro steps
  exact ⟨trace_effective steps, outcomes_effective steps, reach_effective steps,
    history_effective steps⟩

def ferryFull : Bridge Balances :=
  let started := ferry.reach (fun funds _ ↦ funds) ferryWaiting
  { started with state := started.state.map fun state ↦
      { state with ledger := ⟨0xffffffffffffffff⟩ } }

def ferryBoarding : Call := .deposit ferryPassenger ferryToken [7] ferryAmount

def ferryHandover : Call := .changeAdmin (FixedBytes.ofNat 20 0xad) ferryman

theorem ferry_refuses : (ferryFull.call ferryBoarding).1 = .error .nonceExhausted := by
  decide +kernel

theorem ferry_hands_over : (ferryFull.call ferryHandover).1 = .ok .done := by
  decide +kernel

theorem failures_leave_no_trace_ferry :
    ((ferryFull.call ferryBoarding).1 = .error .nonceExhausted ∧
        (ferryFull.call ferryBoarding).2 = ferryFull) ∧
      (∃ event, ferryHandover.events .done = [event] ∧
        (ferryFull.call ferryHandover).2.journal = ferryFull.journal ++ [event]) ∧
      ferryFull.reach (fun funds (_ : Balances) ↦ funds) [.call ferryHandover] =
        ferryFull.reach (fun funds _ ↦ funds) [.call ferryBoarding, .call ferryHandover] := by
  obtain ⟨failing, succeeding, erased⟩ :=
    failures_leave_no_trace ferryFull (fun funds (_ : Balances) ↦ funds)
  have heffective : ferryFull.effective (fun funds (_ : Balances) ↦ funds)
      [.call ferryBoarding, .call ferryHandover] = [.call ferryHandover] := by
    rw [effective_cons_of_failed (by simp [Moment.failed, Moment.outcome?, ferry_refuses]; rfl),
      effective_cons (by simp [Moment.failed, Moment.outcome?, ferry_hands_over]; rfl)]
    rfl
  refine ⟨⟨ferry_refuses, failing _ _ ferry_refuses⟩, succeeding _ _ ferry_hands_over, ?_⟩
  rw [← heffective]
  exact (erased _).2.2.1

end Bridge

end TokenBridge
