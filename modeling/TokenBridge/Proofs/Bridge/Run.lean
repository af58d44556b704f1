import TokenBridge.Proofs.Bridge.Effects
import Mathlib.Data.List.Induction

namespace TokenBridge

/-- What can happen to a bridge: a call, the question whether an upgrade is live, the handing out of
the journal, or something that changes the funds without passing through the bridge. -/
inductive Step (ε : Type)
  | call (c : Call)
  | probe
  | takeEvents
  | outside (e : ε)

structure Moment (C ε : Type) where
  bridge : Bridge C
  step : Step ε

structure Payment where
  relayer : Address
  batch : Batch
  signatures : SignatureSet

namespace Call

def payment? : Call → Option Payment
  | submitBatch relayer token payouts nonce signatures =>
    some ⟨relayer, ⟨token, payouts, nonce⟩, signatures⟩
  | executeBatch relayer batch signatures => some ⟨relayer, batch, signatures⟩
  | _ => none

def events : Call → Answer → List Event
  | start .., .checkpoint c => [.validatorSetUpdated c.commitment c.nonce]
  | deposit .., .deposit record => [.deposit record]
  | rotate .., .checkpoint c => [.validatorSetUpdated c.commitment c.nonce]
  | submitBatch _ token _ nonce _, .done => [.batchExecuted token nonce]
  | executeBatch _ batch _, .done => [.batchExecuted batch.token batch.nonce]
  | changeAdmin caller new, .done => [.adminChanged caller new]
  | upgrade _ version, .done => [.upgraded version.number]
  | _, _ => []

def rotationNonce? : Call → Option UInt64
  | rotate _ _ nonce _ => some nonce
  | _ => none

end Call

variable {C ε : Type} [Custody C]

namespace Moment

def success? (m : Moment C ε) : Option (Call × Answer) :=
  match m.step with
  | .call c => (m.bridge.call c).1.toOption.map (c, ·)
  | _ => none

omit [Custody C] in
def handedOut (m : Moment C ε) : List Event :=
  match m.step with
  | .takeEvents => m.bridge.takeEvents.1
  | _ => []

end Moment

namespace Bridge

section

variable {b b' : Bridge C} {c : Call} {answer : Answer}

theorem Effect.account_eq (h : b.Effect c answer b') : b'.account = b.account := by
  cases h <;> rfl

theorem Effect.journal_eq (h : b.Effect c answer b') :
    b'.journal = b.journal ++ c.events answer := by
  cases h <;> rfl

theorem Effect.of_payment {p : Payment} (h : b.Effect c answer b') (hp : c.payment? = some p) :
    ∃ state executor, b.state = some state ∧ b'.state = some { state with executor } ∧
      state.executor.execute state.registry p.batch p.signatures b.custody b.account p.relayer =
        (.ok (), executor, b'.custody) := by
  cases h with
  | submitBatch _ ready executed =>
    cases hp
    exact ⟨_, _, ready, rfl, executed⟩
  | executeBatch ready executed =>
    cases hp
    exact ⟨_, _, ready, rfl, executed⟩
  | _ => cases hp

theorem Effect.of_deposit {record : Deposit} (h : b.Effect c (.deposit record) b') :
    record.sender ≠ b.account ∧
      Custody.transfer b.custody record.token record.sender b.account record.amount =
        (.ok (), b'.custody) := by
  cases h with
  | deposit ready _ _ sender_ne moved recorded =>
    obtain ⟨_, _, rfl, _⟩ := Ledger.record_eq_ok_iff.1 recorded
    exact ⟨sender_ne, moved⟩

end

variable (world : ε → C → C)

def perform (b : Bridge C) : Step ε → Bridge C
  | .call c => (b.call c).2
  | .probe => b
  | .takeEvents => b.takeEvents.2
  | .outside e => { b with custody := world e b.custody }

def reach (b : Bridge C) (steps : List (Step ε)) : Bridge C := steps.foldl (perform world) b

def trace (b : Bridge C) : List (Step ε) → List (Moment C ε)
  | [] => []
  | s :: rest => ⟨b, s⟩ :: trace (b.perform world s) rest

def successes (b : Bridge C) (steps : List (Step ε)) : List (Call × Answer) :=
  (b.trace world steps).filterMap Moment.success?

/-- All events of a run: those handed out, in turn, and those still in the journal. -/
def history (b : Bridge C) (steps : List (Step ε)) : List Event :=
  (b.trace world steps).flatMap Moment.handedOut ++ (b.reach world steps).journal

variable {world} {b : Bridge C} {s : Step ε}

theorem reach_cons (steps : List (Step ε)) :
    b.reach world (s :: steps) = (b.perform world s).reach world steps := rfl

theorem reach_append (first second : List (Step ε)) :
    b.reach world (first ++ second) = (b.reach world first).reach world second :=
  List.foldl_append

theorem reach_concat (steps : List (Step ε)) :
    b.reach world (steps ++ [s]) = (b.reach world steps).perform world s :=
  reach_append steps [s]

theorem trace_append (first second : List (Step ε)) :
    b.trace world (first ++ second) =
      b.trace world first ++ (b.reach world first).trace world second := by
  induction first generalizing b with
  | nil => rfl
  | cons s rest ih => simp [trace, reach_cons, ih]

theorem trace_concat (steps : List (Step ε)) :
    b.trace world (steps ++ [s]) = b.trace world steps ++ [⟨b.reach world steps, s⟩] := by
  rw [trace_append]
  rfl

theorem exists_of_mem_trace {steps : List (Step ε)} {m : Moment C ε} (h : m ∈ b.trace world steps) :
    ∃ past rest, steps = past ++ m.step :: rest ∧ m.bridge = b.reach world past := by
  induction steps generalizing b with
  | nil => cases h
  | cons s steps ih =>
    rcases List.mem_cons.1 h with rfl | h
    · exact ⟨[], steps, rfl, rfl⟩
    · obtain ⟨past, rest, hsteps, hbridge⟩ := ih h
      refine ⟨s :: past, rest, ?_, hbridge⟩
      rw [hsteps, List.cons_append]

theorem successes_concat (steps : List (Step ε)) :
    b.successes world (steps ++ [s]) =
      b.successes world steps ++ (Moment.success? ⟨b.reach world steps, s⟩).toList := by
  rw [successes, trace_concat, List.filterMap_append]
  cases h : Moment.success? ⟨b.reach world steps, s⟩ <;> simp [successes, h]

theorem effect_of_success {c : Call} {answer : Answer}
    (h : Moment.success? ⟨b, s⟩ = some (c, answer)) : b.Effect c answer (b.perform world s) := by
  cases s with
  | call c' =>
    simp only [Moment.success?] at h
    cases ho : (b.call c').1 with
    | error e => simp [ho, Except.toOption] at h
    | ok answer' =>
      simp only [ho, Except.toOption, Option.map_some, Option.some.injEq, Prod.mk.injEq] at h
      obtain ⟨rfl, rfl⟩ := h
      exact effect_of_ok ho
  | probe => cases h
  | takeEvents => cases h
  | outside e => cases h

/-- Without a successful call only the custody and the journal can change. -/
theorem frame_of_no_success (h : Moment.success? ⟨b, s⟩ = none) :
    (b.perform world s).account = b.account ∧ (b.perform world s).gate = b.gate ∧
      (b.perform world s).state = b.state ∧
      Moment.handedOut ⟨b, s⟩ ++ (b.perform world s).journal = b.journal := by
  cases s with
  | call c =>
    simp only [Moment.success?] at h
    rcases ho : (b.call c).1 with e | answer
    · rw [perform, call_of_error ho]
      exact ⟨rfl, rfl, rfl, rfl⟩
    · simp [ho, Except.toOption] at h
  | probe => exact ⟨rfl, rfl, rfl, rfl⟩
  | takeEvents => exact ⟨rfl, rfl, rfl, List.append_nil _⟩
  | outside e => exact ⟨rfl, rfl, rfl, rfl⟩

theorem success_of_ok {c : Call} {answer : Answer} (h : (b.call c).1 = .ok answer) :
    Moment.success? (⟨b, .call c⟩ : Moment C ε) = some (c, answer) := by
  simp [Moment.success?, h, Except.toOption]

theorem step_of_success {c : Call} {answer : Answer}
    (h : Moment.success? ⟨b, s⟩ = some (c, answer)) : s = .call c := by
  cases s with
  | call c' =>
    simp only [Moment.success?, Option.map_eq_some_iff, Prod.mk.injEq] at h
    obtain ⟨_, _, rfl, _⟩ := h
    rfl
  | probe => cases h
  | takeEvents => cases h
  | outside e => cases h

/-- Induction on the steps of a run, which are successful calls or leave most of the bridge alone. -/
@[elab_as_elim]
theorem run_induction (world : ε → C → C) (b : Bridge C) {motive : List (Step ε) → Prop}
    (steps : List (Step ε)) (nil : motive [])
    (silent : ∀ steps s, Moment.success? ⟨b.reach world steps, s⟩ = none → motive steps →
      motive (steps ++ [s]))
    (success : ∀ steps c answer,
      Moment.success? (⟨b.reach world steps, .call c⟩ : Moment C ε) = some (c, answer) →
      (b.reach world steps).Effect c answer (b.reach world (steps ++ [.call c])) → motive steps →
      motive (steps ++ [.call c])) :
    motive steps := by
  induction steps using List.reverseRecOn with
  | nil => exact nil
  | append_singleton steps s ih =>
    cases hs : Moment.success? ⟨b.reach world steps, s⟩ with
    | none => exact silent steps s hs ih
    | some found =>
      obtain ⟨c, answer⟩ := found
      obtain rfl := step_of_success hs
      refine success steps c answer hs ?_ ih
      rw [reach_concat]
      exact effect_of_success hs

theorem account_reach (steps : List (Step ε)) : (b.reach world steps).account = b.account := by
  induction steps using run_induction world b with
  | nil => rfl
  | silent steps s hs ih => rw [reach_concat, (frame_of_no_success hs).1, ih]
  | success steps c answer hs he ih => rw [he.account_eq, ih]

/-- The events of a run are those of its successful calls, one each, wherever the journal was handed
out. -/
theorem history_eq (steps : List (Step ε)) :
    b.history world steps =
      b.journal ++ (b.successes world steps).flatMap fun success ↦ success.1.events success.2 := by
  induction steps using run_induction world b with
  | nil => simp [history, successes, trace, reach]
  | silent steps s hs ih =>
    have hframe : Moment.handedOut ⟨b.reach world steps, s⟩ ++
        ((b.reach world steps).perform world s).journal = (b.reach world steps).journal :=
      (frame_of_no_success hs).2.2.2
    rw [successes_concat, hs, Option.toList_none, List.append_nil, ← ih, history, history,
      trace_concat, reach_concat, List.flatMap_append, List.append_assoc, ← hframe]
    simp
  | success steps c answer hs he ih =>
    rw [successes_concat, hs, List.flatMap_append, ← List.append_assoc, ← ih, history, history,
      trace_concat, List.flatMap_append, he.journal_eq]
    simp [Moment.handedOut]

theorem history_concat (steps : List (Step ε)) :
    b.history world (steps ++ [s]) =
      b.history world steps ++
        (Moment.success? ⟨b.reach world steps, s⟩).toList.flatMap fun success ↦
          success.1.events success.2 := by
  rw [history_eq, history_eq, successes_concat, List.flatMap_append, List.append_assoc]

/-! A bridge with a single validator, who has signed one batch. -/

def ferryId : BridgeId := ⟨FixedBytes.padRight (Bytes.ofText "ferry") (by decide), by decide⟩

def ferryToken : Address := FixedBytes.ofNat 20 0xee

def ferryman : Address := FixedBytes.ofNat 20 0x7e5f4552091a69125d5dfcb7b8c2659029395bdf

def ferryCrew : ValidatorSet where
  members := [⟨ferryman, 1⟩]
  totalPower := 1
  members_ne_nil := by decide
  address_ne_zero := by decide
  power_ne_zero := by decide
  nodup := by decide
  toNat_totalPower := by decide

def ferryBatch : Batch :=
  ⟨ferryToken, [⟨FixedBytes.ofNat 20 0x21, ⟨30, by decide⟩, ⟨2, by decide⟩⟩], 5⟩

def ferrySignatures : SignatureSet :=
  ⟨[some ⟨ferryman, {
    r := FixedBytes.ofNat 32 0x61d5bbe2d00d441c287531059b30ad5ba8c78fadc69dd9f140d58b514cfaa70e
    s := FixedBytes.ofNat 32 0x0e336540c953554e3b808b7838aa3a1f895308861ff0f4876eee3e15db38a1ee
    v := 27 }⟩]⟩

def ferry : Bridge Balances := new (FixedBytes.ofNat 20 0xbb) (FixedBytes.ofNat 20 0xad) .empty

def ferryAmount : UInt256 := ⟨100, by decide⟩

def ferryFunds : Balances := Balances.empty.set ferryToken (FixedBytes.ofNat 20 0xbb) ferryAmount

def ferrySteps : List (Step Balances) :=
  [.outside ferryFunds, .call (.start ferryId 6666 [ferryman] [1])]

theorem ferry_crewed : ValidatorSet.ofParts [ferryman] [1] = .ok ferryCrew := by
  have hlist : ValidatorSet.ofParts [ferryman] [1] = ValidatorSet.ofList ferryCrew.members := rfl
  exact hlist.trans (ValidatorSet.ofList_eq_ok_iff.2 rfl)

theorem ferry_started : (ferry.reach (fun funds _ ↦ funds) ferrySteps).state =
    some (.new (.genesis ferryId .default ferryCrew)) := by
  have hthreshold : PowerThreshold.ofBasisPoints 6666 = .ok .default := rfl
  have he : (ferry.perform (fun funds _ ↦ funds) (.outside ferryFunds)).Effect
      (.start ferryId 6666 [ferryman] [1])
      (.checkpoint (Checkpoint.compute ferryId ferryCrew 0)) _ :=
    .start rfl hthreshold ferry_crewed
  exact congrArg (·.2.state) (call_eq_ok_iff.2 he)

def ferryPassenger : Address := FixedBytes.ofNat 20 0x41

def ferryWaiting : List (Step Balances) :=
  [.outside (Balances.empty.set ferryToken ferryPassenger ferryAmount),
    .call (.start ferryId 6666 [ferryman] [1])]

def ferryCrossing : Call := .executeBatch (FixedBytes.ofNat 20 0x33) ferryBatch ferrySignatures

theorem ferry_crosses :
    ((ferry.reach (fun funds _ ↦ funds) ferrySteps).call ferryCrossing).1 = .ok .done :=
  toOption_eq_some_iff.1 (by decide +kernel)

theorem ferry_approved : ∃ power, (Registry.genesis ferryId .default ferryCrew).verify
    ferrySignatures (ferryBatch.signingDigest ferryId) = .ok power := by
  obtain ⟨state, executor, ready, _, executed⟩ := (effect_of_ok ferry_crosses).of_payment rfl
  obtain rfl := Option.some.inj (ferry_started.symm.trans ready)
  obtain ⟨_, approved, _, _⟩ := Executor.execute_eq_ok_iff.1 executed
  exact approved

end Bridge

end TokenBridge
