import TokenBridge.Proofs.Bridge.Run
import Mathlib.Data.List.Forall2

namespace TokenBridge

structure Handover where
  previous : Address
  new : Address
deriving DecidableEq

/-- Each hand-over is made by who has the role then, and never to the zero account. -/
inductive Succession : Address → List Handover → Address → Prop
  | nil (holder : Address) : Succession holder [] holder
  | cons {holder new last : Address} {rest : List Handover} (new_ne : new.isZero = false)
      (later : Succession new rest last) : Succession holder (⟨holder, new⟩ :: rest) last

namespace Succession

variable {first middle last former : Address} {before after : List Handover} {x : Handover}

theorem trans (h : Succession first before middle) (h' : Succession middle after last) :
    Succession first (before ++ after) last := by
  induction h with
  | nil => exact h'
  | cons new_ne _ ih => exact .cons new_ne (ih h')

theorem split (h : Succession first (before ++ after) last) :
    ∃ middle, Succession first before middle ∧ Succession middle after last := by
  induction before generalizing first with
  | nil => exact ⟨first, .nil first, h⟩
  | cons _ rest ih =>
    cases h with
    | cons new_ne later =>
      obtain ⟨middle, hbefore, hafter⟩ := ih later
      exact ⟨middle, .cons new_ne hbefore, hafter⟩

theorem isZero_eq_false (h : Succession first before last) (hfirst : first.isZero = false) :
    last.isZero = false := by
  induction h with
  | nil => exact hfirst
  | cons new_ne _ ih => exact ih new_ne

theorem eq_or_mem (h : Succession first before last) : last = first ∨ ∃ x ∈ before, x.new = last := by
  induction h with
  | nil => exact .inl rfl
  | @cons holder new last rest _ _ ih =>
    refine .inr ?_
    rcases ih with rfl | ⟨x, hx, hnew⟩
    · exact ⟨⟨holder, last⟩, List.mem_cons_self, rfl⟩
    · exact ⟨x, List.mem_cons_of_mem _ hx, hnew⟩

/-- Who has given the role away does not have it unless it was given back since. -/
theorem ne_last (h : Succession first (before ++ x :: after) last)
    (hformer : ∀ y ∈ x :: after, y.new ≠ former) : former ≠ last := by
  obtain ⟨middle, -, hlater⟩ := h.split
  rintro rfl
  cases hlater with
  | @cons _ new _ _ _ later =>
    rcases later.eq_or_mem with heq | ⟨y, hy, hnew⟩
    · exact hformer _ List.mem_cons_self heq.symm
    · exact hformer y (List.mem_cons_of_mem _ hy) hnew

end Succession

def Event.handover? : Event → Option Handover
  | adminChanged previous new => some ⟨previous, new⟩
  | _ => none

def Call.isHandover : Call → Bool
  | changeAdmin .. => true
  | _ => false

variable {C ε : Type} [Custody C]

namespace Moment

def isHandover (m : Moment C ε) : Bool := m.success?.any (·.1.isHandover)

structure HandsOver (m : Moment C ε) (x : Handover) : Prop where
  step_eq : m.step = .call (.changeAdmin x.previous x.new)
  granted : (m.bridge.call (.changeAdmin x.previous x.new)).1 = .ok .done
  admin_eq : m.bridge.gate.admin = x.previous

end Moment

namespace Bridge

omit [Custody C] in
/-- An account is turned away wherever only the administrator is let in. -/
structure TurnsAway (b : Bridge C) (caller : Address) : Prop where
  changeAdmin : ∀ new, b.changeAdmin caller new = (.error (.unauthorized caller), b)
  upgrade : ∀ version, b.upgrade caller version = (.error (.unauthorized caller), b)

variable {world : ε → C → C} {b b' : Bridge C} {c : Call} {answer : Answer}

omit [Custody C] in
theorem turnsAway {caller : Address} (h : caller ≠ b.gate.admin) : b.TurnsAway caller where
  changeAdmin new := by simp [changeAdmin, Gate.changeAdmin, Gate.ensureAdmin, h]
  upgrade version := by simp [upgrade, Gate.upgrade, Gate.ensureAdmin, h]

theorem Effect.succession (h : b.Effect c answer b') :
    Succession b.gate.admin ((c.events answer).filterMap Event.handover?) b'.gate.admin := by
  cases h with
  | changeAdmin new_ne => exact .cons new_ne (.nil _)
  | _ => exact .nil _

theorem Effect.handsOver (h : b.Effect c answer b')
    (hs : Moment.success? (⟨b, .call c⟩ : Moment C ε) = some (c, answer)) :
    List.Forall₂ Moment.HandsOver ([⟨b, .call c⟩].filter Moment.isHandover : List (Moment C ε))
      ((c.events answer).filterMap Event.handover?) := by
  cases hc : c.isHandover with
  | true =>
    rw [List.filter_cons_of_pos (by simp [Moment.isHandover, hs, hc])]
    have granted := congrArg Prod.fst (call_eq_ok_iff.2 h)
    cases h with
    | changeAdmin => exact .cons ⟨rfl, granted, rfl⟩ .nil
    | _ => cases hc
  | false =>
    rw [List.filter_cons_of_neg (by simp [Moment.isHandover, hs, hc])]
    cases h with
    | changeAdmin => cases hc
    | _ => exact .nil

theorem succession_reach (hb : b.journal = []) (steps : List (Step ε)) :
    Succession b.gate.admin ((b.history world steps).filterMap Event.handover?)
      (b.reach world steps).gate.admin := by
  induction steps using run_induction world b with
  | nil => simpa [history, trace, reach, hb] using Succession.nil b.gate.admin
  | silent steps s hs ih =>
    rw [history_concat, hs, reach_concat, (frame_of_no_success hs).2.1]
    simpa using ih
  | success steps c answer hs he ih =>
    rw [history_concat, hs, Option.toList_some, List.flatMap_singleton, List.filterMap_append]
    exact ih.trans he.succession

theorem handsOver_reach (hb : b.journal = []) (steps : List (Step ε)) :
    List.Forall₂ Moment.HandsOver ((b.trace world steps).filter Moment.isHandover)
      ((b.history world steps).filterMap Event.handover?) := by
  induction steps using run_induction world b with
  | nil => simp [history, trace, reach, hb]
  | silent steps s hs ih =>
    rw [trace_concat, history_concat, hs, List.filter_append,
      List.filter_cons_of_neg (by simp [Moment.isHandover, hs])]
    simpa using ih
  | success steps c answer hs he ih =>
    rw [trace_concat, history_concat, hs, Option.toList_some, List.flatMap_singleton,
      List.filter_append, List.filterMap_append]
    exact List.rel_append ih (he.handsOver hs)

theorem upgrade_of_implementation_ne {s : Step ε}
    (h : (b.perform world s).gate.implementation ≠ b.gate.implementation) :
    s = .call (.upgrade b.gate.admin (b.perform world s).gate.implementation) ∧
      (b.call (.upgrade b.gate.admin (b.perform world s).gate.implementation)).1 = .ok .done := by
  cases hs : Moment.success? ⟨b, s⟩ with
  | none => exact absurd (congrArg Gate.implementation (frame_of_no_success hs).2.1) h
  | some success =>
    obtain ⟨c, answer⟩ := success
    obtain rfl := step_of_success hs
    have he : b.Effect c answer (b.perform world (.call c)) := effect_of_success hs
    have granted : (b.call c).1 = .ok answer := congrArg Prod.fst (call_eq_ok_iff.2 he)
    generalize b.perform world (.call c) = b' at he h ⊢
    cases he with
    | upgrade => exact ⟨rfl, granted⟩
    | _ => exact absurd rfl h

/-- The administration passes from hand to hand: whoever has it got it from who had it before, in a
call of that account, and all others are turned away, as is who gave it away and did not get it
back. Only the administrator of the moment brings in another implementation. -/
theorem admin_succession {admin : Address} (admin_ne : admin.isZero = false) (account : Address)
    (custody : C) (world : ε → C → C) (steps : List (Step ε)) :
    let origin := new account admin custody
    let b := origin.reach world steps
    let handovers := (origin.history world steps).filterMap Event.handover?
    Succession admin handovers b.gate.admin ∧
    b.gate.admin.isZero = false ∧
    List.Forall₂ Moment.HandsOver ((origin.trace world steps).filter Moment.isHandover) handovers ∧
    (∀ caller, caller ≠ b.gate.admin → b.TurnsAway caller) ∧
    (∀ before x after, handovers = before ++ x :: after →
      (∀ y ∈ x :: after, y.new ≠ x.previous) → b.TurnsAway x.previous) ∧
    ∀ s, (b.perform world s).gate.implementation ≠ b.gate.implementation →
      s = .call (.upgrade b.gate.admin (b.perform world s).gate.implementation) ∧
        (b.call (.upgrade b.gate.admin (b.perform world s).gate.implementation)).1 = .ok .done := by
  intro origin b handovers
  have succession : Succession admin handovers b.gate.admin :=
    succession_reach (b := origin) rfl steps
  refine ⟨succession, succession.isZero_eq_false admin_ne, handsOver_reach rfl steps,
    fun _ ↦ turnsAway, ?_, fun _ ↦ upgrade_of_implementation_ne⟩
  intro before x after hsplit hkept
  rw [hsplit] at succession
  exact turnsAway (succession.ne_last hkept)

def ferryOwner : Address := FixedBytes.ofNat 20 0xad

def ferrySold : List (Step Balances) :=
  [.call (.changeAdmin ferryPassenger ferryPassenger),
    .call (.changeAdmin ferryOwner ferryPassenger), .takeEvents]

theorem admin_succession_ferry :
    let b := ferry.reach (fun funds _ ↦ funds) ferrySold
    let upgrade : Step Balances := .call (.upgrade ferryPassenger .v2)
    ferryOwner.isZero = false ∧
    Succession ferryOwner [⟨ferryOwner, ferryPassenger⟩] b.gate.admin ∧
    b.gate.admin.isZero = false ∧
    b.TurnsAway ferryman ∧ b.TurnsAway ferryOwner ∧
    upgrade = .call (.upgrade b.gate.admin
      (b.perform (fun funds _ ↦ funds) upgrade).gate.implementation) := by
  intro b upgrade
  have owned : ferryOwner.isZero = false := by decide
  have handovers : (ferry.history (fun funds _ ↦ funds) ferrySold).filterMap Event.handover? =
      [⟨ferryOwner, ferryPassenger⟩] := by decide
  have upgraded : (b.perform (fun funds _ ↦ funds) upgrade).gate.implementation ≠
      b.gate.implementation := by decide
  obtain ⟨succession, kept, -, others, former, version⟩ := admin_succession owned
    (FixedBytes.ofNat 20 0xbb) Balances.empty (fun funds _ ↦ funds) ferrySold
  refine ⟨owned, handovers ▸ succession, kept, others ferryman (by decide), ?_,
    (version upgrade upgraded).1⟩
  exact former [] ⟨ferryOwner, ferryPassenger⟩ [] handovers (by decide)

end Bridge

end TokenBridge
