import TokenBridge.Proofs.Bridge.Run
import TokenBridge.Proofs.Event.Log

namespace TokenBridge

def Call.isBlank : Call → Bool
  | deposit _ _ destination _ => destination.all (· == 0)
  | _ => false

variable {C ε : Type} [Custody C] {world : ε → C → C}

namespace Bridge

variable {b b' : Bridge C} {c : Call} {answer : Answer}

theorem Effect.any_isBlank (h : b.Effect c answer b') :
    (c.events answer).any Event.isBlank = c.isBlank := by
  cases h with
  | deposit _ destination_eq _ _ _ recorded =>
    obtain ⟨_, _, rfl, _⟩ := Ledger.record_eq_ok_iff.1 recorded
    simp [Call.events, Event.isBlank, Destination.isBlank, Call.isBlank,
      Destination.bytes_of_ok destination_eq]
  | _ => rfl

theorem any_isBlank_history (hb : b.journal = []) (steps : List (Step ε)) :
    (b.history world steps).any Event.isBlank =
      (b.successes world steps).any fun success ↦ success.1.isBlank := by
  induction steps using run_induction world b with
  | nil => simp [history, trace, reach, successes, hb]
  | silent steps s hs ih =>
    rw [history_concat, hs, successes_concat, hs]
    simpa using ih
  | success steps c answer hs he ih =>
    rw [history_concat, hs, successes_concat, hs, List.any_append, List.any_append, ih,
      Option.toList_some, List.flatMap_singleton, he.any_isBlank, List.any_cons, List.any_nil,
      Bool.or_false]

theorem ofLogs_history (hb : b.journal = []) (steps : List (Step ε)) :
    Event.ofLogs ((b.history world steps).map Event.toLog) =
      if (b.successes world steps).any (fun success ↦ success.1.isBlank) then
        .error (.invalidDestination 0)
      else .ok ((b.history world steps).map Event.trimmed) := by
  rw [Event.ofLogs_toLog, any_isBlank_history hb]

/-- The logs of a run can be read just if it took no deposit to an address of nothing but zeros.
What is read then are the events themselves, but for zeros in front of destinations. -/
theorem logs_readable_unless_blank (account admin : Address) (custody : C) (world : ε → C → C)
    (steps : List (Step ε)) :
    let origin := new account admin custody
    let events := origin.history world steps
    (Event.ofLogs (events.map Event.toLog) =
      if (origin.successes world steps).any (fun success ↦ success.1.isBlank) then
        .error (.invalidDestination 0)
      else .ok (events.map Event.trimmed)) ∧
    ∀ e ∈ events, e.trimmed.toLog = e.toLog :=
  ⟨ofLogs_history rfl steps, fun e _ ↦ e.toLog_trimmed⟩

def ferryNowhere : Call := .deposit ferryPassenger ferryToken [0] ferryAmount

def ferryTicket : Deposit :=
  ⟨ferryToken, ferryPassenger, ⟨[0], by decide, by decide⟩, ferryAmount, 1⟩

theorem ferry_takes_ticket :
    ((ferry.reach (fun funds _ ↦ funds) ferryWaiting).call ferryNowhere).1 =
      .ok (.deposit ferryTicket) := by
  decide +kernel

/-- The bridge takes a deposit to an address of a single zero, and its logs cannot be read. -/
theorem ferry_logs_unreadable :
    ((ferry.reach (fun funds _ ↦ funds) ferryWaiting).call ferryNowhere).1 =
        .ok (.deposit ferryTicket) ∧
      Event.ofLogs ((ferry.history (fun funds _ ↦ funds)
        (ferryWaiting ++ [.call ferryNowhere])).map Event.toLog) =
          .error (.invalidDestination 0) := by
  refine ⟨ferry_takes_ticket, ?_⟩
  rw [ofLogs_history rfl, successes_concat, success_of_ok ferry_takes_ticket]
  simp [ferryNowhere, Call.isBlank]

end Bridge

end TokenBridge
