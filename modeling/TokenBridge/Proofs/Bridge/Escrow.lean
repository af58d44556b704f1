import TokenBridge.Proofs.Executor.Settlement

namespace TokenBridge

structure Mint where
  token : Address
  holder : Address
  amount : UInt256

def Mint.apply (m : Mint) (funds : Balances) : Balances := (funds.mint m.token m.holder m.amount).2

def Payment.paidOut (token account : Address) (p : Payment) : Nat :=
  if p.batch.token = token then p.batch.paidOut account p.relayer else 0

def Call.paidOut (token account : Address) (c : Call) : Nat :=
  c.payment?.elim 0 (·.paidOut token account)

def Answer.deposited (token : Address) : Answer → Nat
  | deposit record => if record.token = token then record.amount.toNat else 0
  | _ => 0

namespace Moment

variable (token : Address) (m : Moment Balances Mint)

def paidOut : Nat := m.success?.elim 0 fun success ↦ success.1.paidOut token m.bridge.account

def deposited : Nat := m.success?.elim 0 fun success ↦ success.2.deposited token

def minted : Nat :=
  match m.step with
  | .outside mint =>
    match (m.bridge.custody.mint mint.token mint.holder mint.amount).1 with
    | .ok () =>
      if (token, m.bridge.account) = (mint.token, mint.holder) then mint.amount.toNat else 0
    | .error _ => 0
  | _ => 0

end Moment

namespace Bridge

def held (token : Address) (b : Bridge Balances) : Nat := (b.custody.balance token b.account).toNat

variable {b b' : Bridge Balances} {c : Call} {answer : Answer}

theorem held_of_transfer {sender token : Address} {amount : UInt256} {funds funds' : Balances}
    {account : Address} (h : funds.transfer token sender account amount = (.ok (), funds'))
    (hne : sender ≠ account) :
    (funds'.balance token account).toNat = (funds.balance token account).toNat + amount.toNat ∧
      (funds'.balance token sender).toNat + amount.toNat = (funds.balance token sender).toNat := by
  have toAccount := Balances.balance_transfer h account
  have fromSender := Balances.balance_transfer h sender
  rw [if_neg (Ne.symm hne), if_pos rfl, Nat.add_zero] at toAccount
  rw [if_pos rfl, if_neg hne, Nat.add_zero] at fromSender
  exact ⟨toAccount, fromSender⟩

theorem Effect.held_eq (h : b.Effect c answer b') (token : Address) :
    b'.held token + c.paidOut token b.account = b.held token + answer.deposited token := by
  cases hp : c.payment? with
  | some p =>
    obtain ⟨state, executor, ready, ready', executed⟩ := h.of_payment hp
    have hanswer : answer.deposited token = 0 := by
      cases h <;> first | rfl | cases hp
    have hpaid : c.paidOut token b.account = p.paidOut token b.account := by simp [Call.paidOut, hp]
    rw [hanswer, hpaid, held, held, h.account_eq, Payment.paidOut]
    by_cases ht : p.batch.token = token
    · subst ht
      rw [if_pos rfl]
      exact Executor.balance_custodian_of_execute executed
    · obtain ⟨_, _, ⟨fee, _, moved⟩, _⟩ := Executor.execute_eq_ok_iff.1 executed
      rw [if_neg ht, Balances.balance_transferAll_of_ne moved (Ne.symm ht)]
  | none =>
    have hpaid : c.paidOut token b.account = 0 := by simp [Call.paidOut, hp]
    rw [hpaid]
    cases answer with
    | deposit record =>
      obtain ⟨sender_ne, moved⟩ := h.of_deposit
      rw [held, held, h.account_eq, Answer.deposited]
      by_cases ht : record.token = token
      · subst ht
        rw [if_pos rfl]
        exact (held_of_transfer moved sender_ne).1
      · rw [if_neg ht, Balances.balance_transfer_of_ne moved (Ne.symm ht)]
    | checkpoint => cases h <;> rfl
    | done => cases h <;> first | rfl | cases hp

theorem held_perform (b : Bridge Balances) (s : Step Mint) (token : Address) :
    (b.perform Mint.apply s).held token + Moment.paidOut token ⟨b, s⟩ =
      b.held token + Moment.minted token ⟨b, s⟩ + Moment.deposited token ⟨b, s⟩ := by
  cases hs : Moment.success? ⟨b, s⟩ with
  | some success =>
    obtain ⟨c, answer⟩ := success
    obtain rfl := step_of_success hs
    have he : b.Effect c answer (b.perform Mint.apply (.call c)) := effect_of_success hs
    simpa [Moment.paidOut, Moment.minted, Moment.deposited, hs] using he.held_eq token
  | none =>
    simp only [Moment.paidOut, Moment.deposited, hs, Option.elim_none, Nat.add_zero]
    cases s with
    | call c =>
      cases ho : (b.call c).1 with
      | error e =>
        rw [perform, call_of_error ho]
        rfl
      | ok answer =>
        rw [success_of_ok ho] at hs
        cases hs
    | probe => rfl
    | takeEvents => rfl
    | outside mint =>
      rcases hm : b.custody.mint mint.token mint.holder mint.amount with ⟨e | _, funds⟩
      · have := Balances.balance_mint_of_error hm token b.account
        simp [held, perform, Mint.apply, Moment.minted, hm, this]
      · have := Balances.balance_mint_of_ok hm token b.account
        simp [held, perform, Mint.apply, Moment.minted, hm, this]

theorem held_reach (b : Bridge Balances) (steps : List (Step Mint)) (token : Address) :
    (b.reach Mint.apply steps).held token +
        ((b.trace Mint.apply steps).map (Moment.paidOut token)).sum =
      b.held token + ((b.trace Mint.apply steps).map (Moment.minted token)).sum +
        ((b.trace Mint.apply steps).map (Moment.deposited token)).sum := by
  induction steps generalizing b with
  | nil => rfl
  | cons s rest ih =>
    have first := held_perform b s token
    have later := ih (b.perform Mint.apply s)
    simp only [reach_cons, trace, List.map_cons, List.sum_cons]
    omega

/-- The account of the bridge has exactly what was there at first, minted to it or deposited since,
less what batches have paid to others, and each deposit was paid for by its sender. -/
theorem escrow_balance (b : Bridge Balances) (steps : List (Step Mint)) (token : Address) :
    let moments := b.trace Mint.apply steps
    let paidOut := (moments.map (Moment.paidOut token)).sum
    let minted := (moments.map (Moment.minted token)).sum
    let deposited := (moments.map (Moment.deposited token)).sum
    (b.reach Mint.apply steps).held token + paidOut = b.held token + minted + deposited ∧
      paidOut ≤ b.held token + minted + deposited ∧
      (b.reach Mint.apply steps).account = b.account ∧
      (∀ m ∈ moments, m.bridge.account = b.account) ∧
      ∀ m ∈ moments, ∀ c record, m.success? = some (c, .deposit record) →
        (m.bridge.perform Mint.apply m.step).held record.token =
            m.bridge.held record.token + record.amount.toNat ∧
          ((m.bridge.perform Mint.apply m.step).custody.balance record.token record.sender).toNat +
              record.amount.toNat =
            (m.bridge.custody.balance record.token record.sender).toNat := by
  intro moments paidOut minted deposited
  have hbalance : (b.reach Mint.apply steps).held token + paidOut =
      b.held token + minted + deposited := held_reach b steps token
  refine ⟨hbalance, by omega, account_reach steps, ?_, ?_⟩
  · intro m hm
    obtain ⟨past, _, _, hbridge⟩ := exists_of_mem_trace hm
    rw [hbridge, account_reach]
  · intro m _ c record hm
    have he : m.bridge.Effect c (.deposit record) (m.bridge.perform Mint.apply m.step) :=
      effect_of_success hm
    obtain ⟨sender_ne, moved⟩ := he.of_deposit
    rw [held, he.account_eq]
    exact held_of_transfer moved sender_ne

def ferryDeposit : Call := .deposit (FixedBytes.ofNat 20 0x41) ferryToken [7] ferryAmount

def ferryMints : List (Step Mint) :=
  [.outside ⟨ferryToken, FixedBytes.ofNat 20 0x41, ferryAmount⟩,
    .call (.start ferryId 6666 [ferryman] [1])]

def ferryRecord : Deposit :=
  ⟨ferryToken, FixedBytes.ofNat 20 0x41, ⟨[7], by decide, by decide⟩, ferryAmount, 1⟩

theorem ferry_deposits :
    ((ferry.reach Mint.apply ferryMints).call ferryDeposit).1 = .ok (.deposit ferryRecord) :=
  toOption_eq_some_iff.1 (by decide +kernel)

theorem escrow_balance_ferry :
    (ferry.reach Mint.apply (ferryMints ++ [.call ferryDeposit])).held ferryToken = 100 := by
  have hmem : ⟨ferry.reach Mint.apply ferryMints, .call ferryDeposit⟩ ∈
      ferry.trace Mint.apply (ferryMints ++ [.call ferryDeposit]) := by
    rw [trace_concat]
    exact List.mem_append_right _ (List.mem_singleton_self _)
  have h := (escrow_balance ferry (ferryMints ++ [.call ferryDeposit]) ferryToken).2.2.2.2 _ hmem
    ferryDeposit ferryRecord (success_of_ok ferry_deposits)
  have hbefore : (ferry.reach Mint.apply ferryMints).held ferryToken = 0 := by decide +kernel
  rw [← reach_concat] at h
  exact h.1.trans (congrArg (· + 100) hbefore)

end Bridge

end TokenBridge
