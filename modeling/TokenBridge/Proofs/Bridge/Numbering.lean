import TokenBridge.Proofs.Bridge.Escrow
import Mathlib.Data.List.Range

namespace TokenBridge

def Call.isDeposit : Call → Bool
  | deposit .. => true
  | _ => false

def Answer.record? : Answer → Option Deposit
  | deposit record => some record
  | _ => none

def Event.record? : Event → Option Deposit
  | deposit record => some record
  | _ => none

/-- A ledger goes on by one, unless there is nothing to record or no number left. -/
theorem Ledger.record_cases (l : Ledger) (token sender : Address) (destination : Destination)
    (amount : UInt256) :
    (amount ≠ .zero ∧ l.lastNonce.toNat + 1 < UInt64.size ∧
      ∃ record, l.record token sender destination amount = (.ok record, ⟨record.nonce⟩) ∧
        record.nonce.toNat = l.lastNonce.toNat + 1) ∨
    ((amount = .zero ∨ l.lastNonce.toNat + 1 = UInt64.size) ∧
      ∃ e, l.record token sender destination amount = (.error e, l)) := by
  have hbound : l.lastNonce.toNat < UInt64.size := l.lastNonce.toNat_lt
  by_cases ha : amount = .zero
  · exact .inr ⟨.inl ha, .zeroAmount, by rw [record, if_pos ha]⟩
  · by_cases hlt : l.lastNonce.toNat + 1 < UInt64.size
    · have hnext : (l.lastNonce + 1).toNat = l.lastNonce.toNat + 1 := by
        rw [UInt64.toNat_add]
        exact Nat.mod_eq_of_lt hlt
      exact .inl ⟨ha, hlt, _, record_eq_ok_iff.2 ⟨ha, hlt, rfl, rfl⟩, hnext⟩
    · have hfull : l.lastNonce.toNat + 1 = UInt64.size := by omega
      exact .inr ⟨.inr hfull, .nonceExhausted, by rw [record, if_neg ha, if_pos (by omega)]⟩

theorem Ledger.nonce_of_record {l l' : Ledger} {token sender : Address} {destination : Destination}
    {amount : UInt256} {record : Deposit}
    (h : l.record token sender destination amount = (.ok record, l')) :
    l'.lastNonce = record.nonce ∧ record.nonce.toNat = l.lastNonce.toNat + 1 := by
  rcases l.record_cases token sender destination amount with ⟨_, _, _, h', hnext⟩ | ⟨_, _, h'⟩ <;>
    rw [h] at h' <;> cases h'
  exact ⟨rfl, hnext⟩

variable {C ε : Type} [Custody C] {world : ε → C → C}

namespace Bridge

omit [Custody C] in
def lastNumber (b : Bridge C) : Nat := b.state.elim 0 (·.ledger.lastNonce.toNat)

variable (world) in
def deposits (b : Bridge C) (steps : List (Step ε)) : List (Call × Answer) :=
  (b.successes world steps).filter (·.1.isDeposit)

variable {b b' : Bridge C} {c : Call} {answer : Answer}

omit [Custody C] in
theorem lastDepositNonce_eq (b : Bridge C) :
    b.lastDepositNonce.map UInt64.toNat = b.ready.map fun _ ↦ b.lastNumber := by
  cases h : b.state <;> simp [lastDepositNonce, ready, lastNumber, h, Except.map]

omit [Custody C] in
theorem lastNumber_of_state (h : b'.state = b.state) : b'.lastNumber = b.lastNumber := by
  rw [lastNumber, h, lastNumber]

theorem Effect.records_eq (h : b.Effect c answer b') :
    (c.events answer).filterMap Event.record? = answer.record?.toList := by
  cases h <;> rfl

theorem Effect.isDeposit_eq (h : b.Effect c answer b') :
    c.isDeposit = answer.record?.isSome := by
  cases h <;> rfl

theorem Effect.lastNumber_of_deposit (h : b.Effect c answer b') {record : Deposit}
    (hr : answer.record? = some record) :
    record.nonce.toNat = b.lastNumber + 1 ∧ b'.lastNumber = record.nonce.toNat := by
  cases h with
  | deposit ready _ _ _ _ recorded =>
    cases hr
    obtain ⟨hlast, hnext⟩ := Ledger.nonce_of_record recorded
    exact ⟨by simpa [lastNumber, ready] using hnext, by simp [lastNumber, hlast]⟩
  | _ => cases hr

theorem Effect.lastNumber_of_other (h : b.Effect c answer b') (hr : answer.record? = none) :
    b'.lastNumber = b.lastNumber := by
  cases h with
  | start fresh => simp [lastNumber, fresh, BridgeState.new, Ledger.empty]
  | deposit => cases hr
  | rotate ready => simp [lastNumber, ready]
  | submitBatch _ ready => simp [lastNumber, ready]
  | executeBatch ready => simp [lastNumber, ready]
  | changeAdmin => rfl
  | upgrade => rfl

theorem deposits_concat_of_none {steps : List (Step ε)} {s : Step ε}
    (hs : Moment.success? ⟨b.reach world steps, s⟩ = none) :
    b.deposits world (steps ++ [s]) = b.deposits world steps := by
  rw [deposits, successes_concat, hs, Option.toList_none, List.append_nil, deposits]

theorem deposits_concat_of_some {steps : List (Step ε)} {s : Step ε}
    (hs : Moment.success? ⟨b.reach world steps, s⟩ = some (c, answer)) :
    b.deposits world (steps ++ [s]) =
      b.deposits world steps ++ if c.isDeposit then [(c, answer)] else [] := by
  rw [deposits, successes_concat, hs, Option.toList_some, List.filter_append, deposits]
  cases h : c.isDeposit <;> simp [h]

theorem lastNumber_reach (hb : b.lastNumber = 0) (steps : List (Step ε)) :
    (b.reach world steps).lastNumber = (b.deposits world steps).length := by
  induction steps using run_induction world b with
  | nil => exact hb
  | silent steps s hs ih =>
    rw [deposits_concat_of_none hs, ← ih, reach_concat]
    exact lastNumber_of_state (frame_of_no_success hs).2.2.1
  | success steps c answer hs he ih =>
    rw [deposits_concat_of_some hs, he.isDeposit_eq]
    cases hr : answer.record? with
    | none => simp [he.lastNumber_of_other hr, ih]
    | some record =>
      obtain ⟨hnext, hlast⟩ := he.lastNumber_of_deposit hr
      simp [hlast, hnext, ih]

theorem numbers_of_deposits (hb : b.lastNumber = 0) (steps : List (Step ε)) :
    ((b.deposits world steps).filterMap (·.2.record?)).map (·.nonce.toNat) =
      List.range' 1 (b.deposits world steps).length := by
  induction steps using run_induction world b with
  | nil => rfl
  | silent steps s hs ih => rw [deposits_concat_of_none hs, ih]
  | success steps c answer hs he ih =>
    rw [deposits_concat_of_some hs, he.isDeposit_eq]
    cases hr : answer.record? with
    | none => simpa using ih
    | some record =>
      have hnext := (he.lastNumber_of_deposit hr).1
      rw [lastNumber_reach hb] at hnext
      rw [if_pos (by rfl), List.filterMap_append, List.map_append, ih, List.length_append,
        List.length_singleton, List.range'_1_concat]
      simp [hr, hnext, Nat.add_comm]

theorem records_history (hb : b.journal = []) (steps : List (Step ε)) :
    (b.history world steps).filterMap Event.record? =
      (b.deposits world steps).filterMap (·.2.record?) := by
  induction steps using run_induction world b with
  | nil => simp [history, trace, reach, deposits, successes, hb]
  | silent steps s hs ih =>
    rw [history_concat, hs, deposits_concat_of_none hs]
    simpa using ih
  | success steps c answer hs he ih =>
    rw [history_concat, hs, deposits_concat_of_some hs, he.isDeposit_eq, List.filterMap_append, ih,
      Option.toList_some, List.flatMap_singleton, he.records_eq]
    cases hr : answer.record? <;> simp [hr]

theorem deposit_of_ok {sender token : Address} {destination : Bytes} {amount : UInt256}
    {record : Deposit} (h : (b.deposit sender token destination amount).1 = .ok record) :
    (b.deposit sender token destination amount).2.journal = b.journal ++ [.deposit record] ∧
      record.token = token ∧ record.sender = sender ∧ record.destination.bytes = destination ∧
      record.amount = amount ∧ record.nonce.toNat = b.lastNumber + 1 := by
  obtain ⟨after, ha⟩ : ∃ after, b.deposit sender token destination amount = (.ok record, after) :=
    ⟨_, Prod.ext h rfl⟩
  have he := deposit_eq_ok_iff.1 ha
  have hnext := (he.lastNumber_of_deposit rfl).1
  rw [ha]
  refine ⟨he.journal_eq, ?_⟩
  cases he with
  | deposit _ destination_eq _ _ _ recorded =>
    obtain ⟨_, _, rfl, _⟩ := Ledger.record_eq_ok_iff.1 recorded
    exact ⟨rfl, rfl, Destination.bytes_of_ok destination_eq, rfl, hnext⟩

/-- Deposits are numbered from one on in the order in which they succeed, and one that fails takes
no number. -/
theorem deposits_numbered (account admin : Address) (custody : C) (world : ε → C → C)
    (steps : List (Step ε)) :
    let origin := new account admin custody
    let b := origin.reach world steps
    let deposits := origin.deposits world steps
    (deposits.filterMap (·.2.record?)).map (·.nonce.toNat) = List.range' 1 deposits.length ∧
    (origin.history world steps).filterMap Event.record? = deposits.filterMap (·.2.record?) ∧
    b.lastDepositNonce.map UInt64.toNat = b.ready.map (fun _ ↦ deposits.length) ∧
    (∀ sender token destination amount record,
      (b.deposit sender token destination amount).1 = .ok record →
        (b.deposit sender token destination amount).2.journal = b.journal ++ [.deposit record] ∧
        record.token = token ∧ record.sender = sender ∧ record.destination.bytes = destination ∧
        record.amount = amount ∧ record.nonce.toNat = deposits.length + 1) ∧
    (∀ sender token destination amount e,
      (b.deposit sender token destination amount).1 = .error e →
        (b.deposit sender token destination amount).2 = b) ∧
    ∀ (l : Ledger) token sender destination amount,
      (amount ≠ .zero ∧ l.lastNonce.toNat + 1 < UInt64.size ∧
        ∃ record, l.record token sender destination amount = (.ok record, ⟨record.nonce⟩) ∧
          record.nonce.toNat = l.lastNonce.toNat + 1) ∨
      ((amount = .zero ∨ l.lastNonce.toNat + 1 = UInt64.size) ∧
        ∃ e, l.record token sender destination amount = (.error e, l)) := by
  intro origin b deposits
  have hlast : b.lastNumber = deposits.length := lastNumber_reach rfl steps
  refine ⟨numbers_of_deposits rfl steps, records_history rfl steps, ?_, ?_, ?_,
    Ledger.record_cases⟩
  · rw [lastDepositNonce_eq, hlast]
  · intro sender token destination amount record h
    rw [← hlast]
    exact deposit_of_ok h
  · intro sender token destination amount e h
    exact transact_error h

theorem deposits_numbered_ferry :
    let b := ferry.reach (fun funds _ ↦ funds) ferryWaiting
    (b.deposit ferryPassenger ferryToken [7] ferryAmount).1 = .ok ferryRecord ∧
      (b.deposit ferryPassenger ferryToken [7] ferryAmount).2.journal =
        b.journal ++ [.deposit ferryRecord] ∧
      ferryRecord.nonce.toNat = 1 ∧
      (b.deposit ferryPassenger ferryToken [] ferryAmount).1 =
        .error (.data (.invalidDestination 0)) ∧
      (b.deposit ferryPassenger ferryToken [] ferryAmount).2 = b := by
  unfold ferry
  intro b
  obtain ⟨_, _, _, succeeding, failing, _⟩ := deposits_numbered (FixedBytes.ofNat 20 0xbb)
    (FixedBytes.ofNat 20 0xad) Balances.empty (fun funds _ ↦ funds) ferryWaiting
  have hnone : (ferry.deposits (fun funds _ ↦ funds) ferryWaiting).length = 0 := by decide +kernel
  have hboarded : (b.deposit ferryPassenger ferryToken [7] ferryAmount).1 = .ok ferryRecord := by
    decide +kernel
  have hrefused : (b.deposit ferryPassenger ferryToken [] ferryAmount).1 =
      .error (.data (.invalidDestination 0)) := by decide +kernel
  have boarded := succeeding _ _ _ _ _ hboarded
  have hjournal : (b.deposit ferryPassenger ferryToken [7] ferryAmount).2.journal =
      b.journal ++ [.deposit ferryRecord] := by simpa only [b] using boarded.1
  have hnumber := boarded.2.2.2.2.2.trans (congrArg (· + 1) hnone)
  exact ⟨hboarded, hjournal, hnumber, hrefused, failing _ _ _ _ _ hrefused⟩

end Bridge

end TokenBridge
