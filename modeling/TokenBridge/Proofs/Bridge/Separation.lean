import TokenBridge.Proofs.Bridge.Footprint
import TokenBridge.Proofs.Bridge.Founding
import Mathlib.Data.List.Basic

namespace TokenBridge

inductive Reply where
  | call (outcome : Except BridgeError Answer)
  | probe (outcome : Except BridgeError String)

structure Exchange (ε : Type) where
  step : Step ε
  reply? : Option Reply

namespace Step

variable {ε : Type}

def isAdministrative : Step ε → Bool
  | call c => c.isAdministrative
  | probe => true
  | takeEvents | outside _ => false

def isOperational : Step ε → Bool
  | call c => !c.isAdministrative
  | probe | takeEvents | outside _ => false

end Step

namespace Exchange

variable {ε : Type}

def success? : Exchange ε → Option (Call × Answer)
  | ⟨.call c, some (.call outcome)⟩ => outcome.toOption.map (c, ·)
  | _ => none

theorem step_of_success {x : Exchange ε} {c : Call} {answer : Answer}
    (h : x.success? = some (c, answer)) : x.step = .call c := by
  obtain ⟨s, r⟩ := x
  rcases s with c' | _ | _ | _ <;> rcases r with _ | outcome | _ <;> simp [success?] at h
  exact congrArg Step.call h.2

end Exchange

def Event.isAdministrative : Event → Bool
  | adminChanged .. | upgraded .. => true
  | _ => false

theorem Call.isAdministrative_of_mem_events {c : Call} {answer : Answer} {e : Event}
    (h : e ∈ c.events answer) : e.isAdministrative = c.isAdministrative := by
  cases c <;> cases answer <;> simp only [events, List.mem_singleton, List.not_mem_nil] at h <;>
    rw [h] <;> rfl

variable {C ε : Type} [Custody C]

namespace Moment

def exchange (m : Moment C ε) : Exchange ε where
  step := m.step
  reply? :=
    match m.step with
    | .call c => some (.call (m.bridge.call c).1)
    | .probe => some (.probe m.bridge.probe)
    | .takeEvents | .outside _ => none

theorem success?_exchange (m : Moment C ε) : m.exchange.success? = m.success? := by
  obtain ⟨b, s⟩ := m
  cases s <;> rfl

end Moment

namespace Bridge

def exchanges (world : ε → C → C) (b : Bridge C) (steps : List (Step ε)) : List (Exchange ε) :=
  (b.trace world steps).map Moment.exchange

theorem successes_eq (world : ε → C → C) (b : Bridge C) (steps : List (Step ε)) :
    b.successes world steps = (b.exchanges world steps).filterMap Exchange.success? := by
  rw [successes, exchanges, List.filterMap_map]
  exact List.filterMap_congr fun m _ ↦ m.success?_exchange.symm

/-- Some steps are isolated from the others in a view of the bridge: the others do not change it,
and what the isolated ones do to it, and what is replied to them, depends on nothing else. -/
structure Isolates {β : Type} (world : ε → C → C) (Valid : Bridge C → Prop)
    (isolated : Step ε → Bool) (view : Bridge C → β) : Prop where
  valid : ∀ {b : Bridge C} (s : Step ε), Valid b → Valid (b.perform world s)
  unchanged : ∀ {b : Bridge C} {s : Step ε}, Valid b → isolated s = false →
    view (b.perform world s) = view b
  determined : ∀ {b b' : Bridge C} {s : Step ε}, Valid b → Valid b' → isolated s = true →
    view b = view b' →
    Moment.exchange ⟨b, s⟩ = Moment.exchange ⟨b', s⟩ ∧
      view (b.perform world s) = view (b'.perform world s)

namespace Isolates

variable {β : Type} {world : ε → C → C} {Valid : Bridge C → Prop} {isolated : Step ε → Bool}
  {view : Bridge C → β} {b b' : Bridge C}

theorem filter_steps (h : Isolates world Valid isolated view) (hb : Valid b) (hb' : Valid b')
    (hview : view b = view b') (steps : List (Step ε)) :
    b'.exchanges world (steps.filter isolated) =
        (b.exchanges world steps).filter (fun x ↦ isolated x.step) ∧
      view (b'.reach world (steps.filter isolated)) = view (b.reach world steps) := by
  induction steps generalizing b b' with
  | nil => exact ⟨rfl, hview.symm⟩
  | cons s rest ih =>
    cases hs : isolated s with
    | false =>
      -- only the full run takes this step, and does not get ahead in the view by it
      have hnext : view (b.perform world s) = view b' := (h.unchanged hb hs).trans hview
      obtain ⟨replies, reached⟩ := ih (h.valid s hb) hb' hnext
      rw [List.filter_cons_of_neg (by simp [hs])]
      refine ⟨?_, reached⟩
      rw [replies, exchanges, exchanges, trace, List.map_cons,
        List.filter_cons_of_neg (by simp [Moment.exchange, hs])]
    | true =>
      obtain ⟨hreply, hnext⟩ := h.determined hb hb' hs hview
      obtain ⟨replies, reached⟩ := ih (h.valid s hb) (h.valid s hb') hnext
      rw [List.filter_cons_of_pos hs]
      refine ⟨?_, reached⟩
      rw [exchanges, exchanges, trace, trace, List.map_cons, List.map_cons, ← hreply,
        List.filter_cons_of_pos (by simp [Moment.exchange, hs])]
      exact congrArg _ replies

theorem filter_successes (h : Isolates world Valid isolated view) (hb : Valid b)
    (steps : List (Step ε)) :
    b.successes world (steps.filter isolated) =
      (b.successes world steps).filter fun success ↦ isolated (.call success.1) := by
  have hexchanges := (h.filter_steps hb hb rfl steps).1
  rw [successes_eq, hexchanges, successes_eq, List.filterMap_filter, List.filter_filterMap]
  refine List.filterMap_congr fun x _ ↦ ?_
  cases hx : x.success? with
  | none => simp
  | some success =>
    rw [Exchange.step_of_success hx]
    rfl

theorem filter_history (h : Isolates world Valid isolated view) (hb : Valid b)
    (hjournal : b.journal = []) {own : Event → Bool}
    (howned : ∀ (c : Call) (answer : Answer), ∀ e ∈ c.events answer, own e = isolated (.call c))
    (steps : List (Step ε)) :
    b.history world (steps.filter isolated) = (b.history world steps).filter own := by
  rw [history_eq, history_eq, hjournal, List.nil_append, List.nil_append, h.filter_successes hb]
  induction b.successes world steps with
  | nil => rfl
  | cons success rest ih =>
    have hown := howned success.1 success.2
    rw [List.flatMap_cons, List.filter_append, ← ih]
    cases hs : isolated (.call success.1) with
    | false =>
      have hnone : (success.1.events success.2).filter own = [] :=
        List.filter_eq_nil_iff.2 fun e he ↦ by simp [hown e he, hs]
      rw [List.filter_cons_of_neg (by simp [hs]), hnone, List.nil_append]
    | true =>
      have hall : (success.1.events success.2).filter own = success.1.events success.2 :=
        List.filter_eq_self.2 fun e he ↦ by rw [hown e he, hs]
      rw [List.filter_cons_of_pos (by simp [hs]), List.flatMap_cons, hall]

end Isolates

variable {world : ε → C → C} {b b' : Bridge C}

omit [Custody C] in
theorem checkState_congr (h : b.state = b'.state) : b.checkState = b'.checkState := by
  rw [checkState, h, checkState]

theorem Sound.perform (h : b.Sound) (s : Step ε) : (b.perform world s).Sound := by
  cases hs : Moment.success? ⟨b, s⟩ with
  | none =>
    rw [Sound, (frame_of_no_success hs).2.2.1]
    exact h
  | some success => exact (effect_of_success hs).sound h

theorem exchange_congr {c : Call} (h : (b.call c).1 = (b'.call c).1) :
    Moment.exchange (⟨b, .call c⟩ : Moment C ε) = Moment.exchange ⟨b', .call c⟩ := by
  simp [Moment.exchange, h]

variable (world) in
/-- Administration does not show in what the bridge is there for. -/
theorem operations_isolated :
    Isolates world (fun _ ↦ True) (fun s ↦ !s.isAdministrative) vault where
  valid _ _ := trivial
  unchanged {b s} _ hs := by
    cases s with
    | call c =>
      have hc : c.isAdministrative = true := by simpa [Step.isAdministrative] using hs
      exact vault_call hc
    | probe => rfl
    | takeEvents => cases hs
    | outside => cases hs
  determined {b b' s} _ _ hs h := by
    cases s with
    | call c =>
      have hc : c.isAdministrative = false := by simpa [Step.isAdministrative] using hs
      obtain ⟨hreply, hvault⟩ := call_congr_of_vault h hc
      exact ⟨exchange_congr hreply, hvault⟩
    | probe => cases hs
    | takeEvents => exact ⟨rfl, h⟩
    | outside e =>
      obtain ⟨haccount, hstate, hcustody⟩ := vault_eq_iff.1 h
      exact ⟨rfl, vault_eq_iff.2 ⟨haccount, hstate, congrArg (world e) hcustody⟩⟩

variable (world) in
/-- What the bridge is there for does not show in its administration, as long as the state stays in
order. -/
theorem administration_isolated :
    Isolates world Sound (fun s ↦ !s.isOperational) Bridge.gate where
  valid s h := h.perform s
  unchanged {b s} _ hs := by
    cases s with
    | call c =>
      have hc : c.isAdministrative = false := by simpa [Step.isOperational] using hs
      exact gate_call hc
    | probe => cases hs
    | takeEvents => cases hs
    | outside => cases hs
  determined {b b' s} hb hb' hs h := by
    cases s with
    | call c =>
      have hc : c.isAdministrative = true := by simpa [Step.isOperational] using hs
      -- the states may differ, but an upgrade finds nothing wrong with either
      have hk : b.checkState = b'.checkState :=
        hb.checkState_eq_ok.trans hb'.checkState_eq_ok.symm
      obtain ⟨hreply, hgate⟩ := call_congr_of_gate h hk hc
      exact ⟨exchange_congr hreply, hgate⟩
    | probe => exact ⟨by simp [Moment.exchange, probe, h], h⟩
    | takeEvents => exact ⟨rfl, h⟩
    | outside => exact ⟨rfl, h⟩

/-- Administration and all else do not interfere: without the steps of the one kind, those of the
other meet with the same replies, and what they work on ends up the same, as do their events. -/
theorem administration_apart (account admin : Address) (custody : C) (world : ε → C → C)
    (steps : List (Step ε)) :
    let origin := new account admin custody
    let operated := steps.filter fun s ↦ !s.isAdministrative
    let administered := steps.filter fun s ↦ !s.isOperational
    (origin.exchanges world operated =
        (origin.exchanges world steps).filter (fun x ↦ !x.step.isAdministrative) ∧
      (origin.reach world operated).state = (origin.reach world steps).state ∧
      (origin.reach world operated).custody = (origin.reach world steps).custody ∧
      origin.history world operated =
        (origin.history world steps).filter (fun e ↦ !e.isAdministrative)) ∧
    origin.exchanges world administered =
        (origin.exchanges world steps).filter (fun x ↦ !x.step.isOperational) ∧
      (origin.reach world administered).gate = (origin.reach world steps).gate ∧
      origin.history world administered =
        (origin.history world steps).filter Event.isAdministrative := by
  intro origin operated administered
  have sound : (origin.reach world []).Sound := sound_reach account admin custody []
  obtain ⟨operations, vault_eq⟩ :=
    (operations_isolated world).filter_steps (b := origin) trivial trivial rfl steps
  obtain ⟨administration, gate_eq⟩ :=
    (administration_isolated world).filter_steps sound sound rfl steps
  obtain ⟨_, state_eq, custody_eq⟩ := vault_eq_iff.1 vault_eq
  refine ⟨⟨operations, state_eq, custody_eq, ?_⟩, administration, gate_eq, ?_⟩
  · refine (operations_isolated world).filter_history trivial rfl (fun c answer e he ↦ ?_) steps
    rw [Call.isAdministrative_of_mem_events he, Step.isAdministrative]
  · refine (administration_isolated world).filter_history sound rfl (fun c answer e he ↦ ?_) steps
    rw [Call.isAdministrative_of_mem_events he, Step.isOperational, Bool.not_not]

end Bridge

end TokenBridge
