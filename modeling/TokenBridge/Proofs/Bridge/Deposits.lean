import TokenBridge.Proofs.Bridge.Numbering

namespace TokenBridge

structure Requirement (ε : Type) where
  met : Prop
  cause : ε

namespace Requirement

def map {ε ε' : Type} (f : ε → ε') (r : Requirement ε) : Requirement ε' := ⟨r.met, f r.cause⟩

/-- The answer comes of looking at the requirements in turn, up to one that is not met. -/
inductive Enforced {ε α : Type} : List (Requirement ε) → Except ε α → Prop
  | passed {a : α} : Enforced [] (.ok a)
  | unmet {r : Requirement ε} {rest : List (Requirement ε)} (hr : ¬ r.met) :
      Enforced (r :: rest) (.error r.cause)
  | met {r : Requirement ε} {rest : List (Requirement ε)} {answer : Except ε α} (hr : r.met)
      (later : Enforced rest answer) : Enforced (r :: rest) answer

def FirstUnmet {ε : Type} (requirements : List (Requirement ε)) (e : ε) : Prop :=
  ∃ before r after, requirements = before ++ r :: after ∧ (∀ q ∈ before, q.met) ∧ ¬ r.met ∧
    r.cause = e

variable {ε ε' α β : Type} {first requirements : List (Requirement ε)} {r : Requirement ε}
  {second : List (Requirement ε')} {answer : Except ε α} {answer' : Except ε' β} {a : α} {e : ε}

theorem not_firstUnmet_nil : ¬ FirstUnmet [] e := by
  intro h
  obtain ⟨before, r, after, hsplit, _⟩ := h
  cases before <;> cases hsplit

theorem firstUnmet_cons :
    FirstUnmet (r :: requirements) e ↔
      ¬ r.met ∧ r.cause = e ∨ r.met ∧ FirstUnmet requirements e := by
  constructor
  · intro h
    obtain ⟨before, q, after, hsplit, hbefore, hq, hcause⟩ := h
    cases before with
    | nil =>
      obtain ⟨rfl, _⟩ := List.cons.inj hsplit
      exact .inl ⟨hq, hcause⟩
    | cons p before =>
      obtain ⟨rfl, hrest⟩ := List.cons.inj hsplit
      obtain ⟨hr, hbefore⟩ := List.forall_mem_cons.1 hbefore
      exact .inr ⟨hr, before, q, after, hrest, hbefore, hq, hcause⟩
  · intro h
    rcases h with ⟨hr, hcause⟩ | ⟨hr, before, q, after, hrest, hbefore, hq, hcause⟩
    · exact ⟨[], r, requirements, rfl, nofun, hr, hcause⟩
    · exact ⟨r :: before, q, after, congrArg (r :: ·) hrest,
        List.forall_mem_cons.2 ⟨hr, hbefore⟩, hq, hcause⟩

namespace Enforced

theorem exists_ok_iff (h : Enforced requirements answer) :
    (∃ a, answer = .ok a) ↔ ∀ r ∈ requirements, r.met := by
  induction h with
  | passed => simp
  | unmet hr => simp [hr]
  | met hr _ ih => simp [hr, ih]

theorem eq_error_iff (h : Enforced requirements answer) :
    answer = .error e ↔ FirstUnmet requirements e := by
  induction h with
  | passed => simp [not_firstUnmet_nil]
  | unmet hr => simp [firstUnmet_cons, hr]
  | met hr _ ih => simp [firstUnmet_cons, hr, ih]

theorem answer_map (h : Enforced requirements answer) (f : α → β) :
    Enforced requirements (answer.map f) := by
  induction h with
  | passed => exact .passed
  | unmet hr => exact .unmet hr
  | met hr _ ih => exact .met hr ih

/-- Where one thing fails, what was to come after it is not looked at. -/
theorem error_append (h : Enforced first (.error e : Except ε α)) (f : ε → ε') :
    Enforced (first.map (map f) ++ second) (.error (f e) : Except ε' β) := by
  induction first with
  | nil => cases h
  | cons r rest ih =>
    cases h with
    | unmet hr => exact .unmet hr
    | met hr later => exact .met hr (ih later)

theorem ok_append (h : Enforced first (.ok a)) (f : ε → ε') (h' : Enforced second answer') :
    Enforced (first.map (map f) ++ second) answer' := by
  induction first with
  | nil => exact h'
  | cons r rest ih =>
    cases h with
    | met hr later => exact .met hr (ih later)

end Enforced

end Requirement

open Requirement (Enforced FirstUnmet)

namespace Balances

variable (b : Balances) (token sender recipient : Address) (amount : UInt256)

def transferRequirements : List (Requirement CustodyError) :=
  [⟨recipient.isZero = false, .zeroRecipient token⟩,
    ⟨amount.toNat ≤ (b.balance token sender).toNat,
      .insufficientBalance token sender (b.balance token sender) amount⟩,
    ⟨(b.balance token recipient).toNat + amount.toNat < UInt256.size,
      .balanceOverflow token recipient⟩]

variable {sender recipient}

theorem transfer_enforced (hne : sender ≠ recipient) :
    Enforced (b.transferRequirements token sender recipient amount)
      (b.transfer token sender recipient amount).1 := by
  unfold transfer
  by_cases hrecipient : recipient.isZero = true
  · rw [if_pos hrecipient]
    exact .unmet (by simp [hrecipient])
  · rw [if_neg hrecipient]
    refine .met (Bool.eq_false_iff.2 hrecipient) ?_
    dsimp only
    have hfunds := UInt256.exists_sub?_iff (a := b.balance token sender) (b := amount)
    have hroom := UInt256.exists_add?_iff (a := b.balance token recipient) (b := amount)
    cases hs : (b.balance token sender).sub? amount with
    | none => exact .unmet (by simp [← hfunds, hs])
    | some remaining =>
      refine .met (hfunds.1 ⟨remaining, hs⟩) ?_
      dsimp only
      rw [if_neg hne]
      cases ha : (b.balance token recipient).add? amount with
      | none => exact .unmet (by simp [← hroom, ha])
      | some credited => exact .met (hroom.1 ⟨credited, ha⟩) .passed

end Balances

theorem Ledger.record_enforced (l : Ledger) (token sender : Address) (destination : Destination)
    {amount : UInt256} (hamount : amount ≠ .zero) :
    Enforced [⟨l.lastNonce.toNat + 1 < UInt64.size, .nonceExhausted⟩]
      (l.record token sender destination amount).1 := by
  rw [record, if_neg hamount]
  by_cases hfull : UInt64.size ≤ l.lastNonce.toNat + 1
  · rw [if_pos hfull]
    exact .unmet (Nat.not_lt.2 hfull)
  · rw [if_neg hfull]
    exact .met (Nat.lt_of_not_le hfull) .passed

namespace Bridge

theorem commit_fst {α C : Type} (b : Bridge C)
    (o : Except BridgeError (α × Event) × BridgeState × C) :
    (b.commit o).1 = o.1.map Prod.fst := by
  rcases o with ⟨_ | _, _⟩ <;> rfl

section

variable (b : Bridge Balances) (sender token : Address) (destination : Bytes) (amount : UInt256)

/-- What a deposit needs, in the order in which it is looked at. That there is a number left is
looked at when the funds have moved already. -/
def depositRequirements : List (Requirement BridgeError) :=
  [⟨b.state.isSome, .notInitialized⟩,
    ⟨0 < destination.length ∧ destination.length ≤ 32,
      .data (.invalidDestination destination.length)⟩,
    ⟨amount ≠ .zero, .zeroAmount⟩,
    ⟨sender ≠ b.account, .selfDeposit sender⟩] ++
  ((b.custody.transferRequirements token sender b.account amount).map (.map .custody) ++
    [⟨b.lastNumber + 1 < UInt64.size, .nonceExhausted⟩])

theorem deposit_enforced :
    Enforced (b.depositRequirements sender token destination amount)
      (b.deposit sender token destination amount).1 := by
  cases hstate : b.state with
  | none =>
    rw [deposit, transact_of_none (by decide) hstate]
    exact .unmet (by simp [hstate])
  | some state =>
    rw [deposit, transact_of_some (by decide) hstate, commit_fst]
    apply Enforced.answer_map
    refine .met (by simp [hstate]) ?_
    unfold recordDeposit
    by_cases hlength : 0 < destination.length ∧ destination.length ≤ 32
    swap
    · rw [Destination.ofBytes, dif_neg hlength]
      exact .unmet hlength
    rw [Destination.ofBytes, dif_pos hlength]
    refine .met hlength ?_
    dsimp only
    by_cases hamount : amount = .zero
    · rw [if_pos hamount]
      exact .unmet (not_not_intro hamount)
    rw [if_neg hamount]
    refine .met hamount ?_
    by_cases hsender : sender = b.account
    · rw [if_pos hsender]
      exact .unmet (not_not_intro hsender)
    rw [if_neg hsender, Balances.custody_transfer]
    refine .met hsender ?_
    -- the transfer names causes of its own, which the bridge passes on in its own terms
    have moves := b.custody.transfer_enforced token amount hsender
    generalize b.custody.transfer token sender b.account amount = moved at moves ⊢
    rcases moved with ⟨e | _, after⟩
    · exact moves.error_append _
    · refine moves.ok_append _ ?_
      have hlast : b.lastNumber = state.ledger.lastNonce.toNat := by simp [lastNumber, hstate]
      have numbers := state.ledger.record_enforced token sender
        ⟨destination, hlength.1, hlength.2⟩ hamount
      have answered := numbers.answer_map fun record ↦ (record, Event.deposit record)
      rw [hlast]
      dsimp only
      generalize state.ledger.record token sender ⟨destination, hlength.1, hlength.2⟩ amount =
        recorded at answered ⊢
      rcases recorded with ⟨e | record, ledger⟩
      · exact answered
      · exact answered

end

/-- Between two bridges lies the deposit that one record tells of, and nothing else. -/
structure Deposited (b after : Bridge Balances) (record : Deposit) : Prop where
  sender_pays : (after.custody.balance record.token record.sender).toNat + record.amount.toNat =
    (b.custody.balance record.token record.sender).toNat
  account_gains : (after.custody.balance record.token b.account).toNat =
    (b.custody.balance record.token b.account).toNat + record.amount.toNat
  others_keep : ∀ token holder, token ≠ record.token ∨ holder ≠ record.sender ∧ holder ≠ b.account →
    after.custody.balance token holder = b.custody.balance token holder
  state_eq : ∃ state, b.state = some state ∧
    after.state = some { state with ledger := ⟨record.nonce⟩ }
  number_eq : after.lastNumber = b.lastNumber + 1
  nonce_eq : record.nonce.toNat = after.lastNumber
  account_eq : after.account = b.account
  gate_eq : after.gate = b.gate
  journal_eq : after.journal = b.journal ++ [.deposit record]

variable {b after : Bridge Balances} {sender token : Address} {destination : Bytes}
  {amount : UInt256} {record : Deposit}

theorem deposited_of_effect
    (h : b.Effect (.deposit sender token destination amount) (.deposit record) after) :
    b.Deposited after record := by
  obtain ⟨hnext, hlast⟩ := h.lastNumber_of_deposit rfl
  have hjournal := h.journal_eq
  cases h with
  | deposit ready _ _ sender_ne moved recorded =>
    obtain ⟨_, _, rfl, rfl⟩ := Ledger.record_eq_ok_iff.1 recorded
    have hsender := Balances.balance_transfer moved sender
    have haccount := Balances.balance_transfer moved b.account
    rw [if_pos rfl, if_neg sender_ne, Nat.add_zero] at hsender
    rw [if_neg sender_ne.symm, if_pos rfl, Nat.add_zero] at haccount
    refine ⟨hsender, haccount, ?_, ⟨_, ready, rfl⟩, hlast.trans hnext, hlast.symm, rfl, rfl,
      hjournal⟩
    intro token' holder hother
    by_cases ht : token' = token
    · subst ht
      obtain ⟨hs, ha⟩ : holder ≠ sender ∧ holder ≠ b.account := by simpa using hother
      have hkept := Balances.balance_transfer moved holder
      rw [if_neg hs, if_neg ha] at hkept
      exact UInt256.ext hkept
    · exact Balances.balance_transfer_of_ne moved ht holder

theorem deposit_eq_error_iff {e : BridgeError} :
    b.deposit sender token destination amount = (.error e, after) ↔
      after = b ∧ FirstUnmet (b.depositRequirements sender token destination amount) e := by
  rw [← (b.deposit_enforced sender token destination amount).eq_error_iff]
  constructor
  · intro h
    have hfailed := congrArg Prod.fst h
    have hkept := transact_error hfailed
    exact ⟨(congrArg Prod.snd h).symm.trans hkept, hfailed⟩
  · intro h
    obtain ⟨hafter, h⟩ := h
    subst hafter
    exact Prod.ext h (transact_error h)

/-- A deposit succeeds just if nothing of what it needs is missing, and otherwise is refused for the
first thing that is, and changes nothing. The sender's loss is the account's gain, to the last
token, and no other funds, nonces or rules change. -/
theorem deposit_exact (b : Bridge Balances) (sender token : Address) (destination : Bytes)
    (amount : UInt256) :
    ((∃ record after, b.deposit sender token destination amount = (.ok record, after)) ↔
      b.state.isSome ∧ (1 ≤ destination.length ∧ destination.length ≤ 32) ∧ amount ≠ .zero ∧
        sender ≠ b.account ∧ b.account.isZero = false ∧
        amount.toNat ≤ (b.custody.balance token sender).toNat ∧
        (b.custody.balance token b.account).toNat + amount.toNat < UInt256.size ∧
        b.lastNumber + 1 < UInt64.size) ∧
    (∀ e after, b.deposit sender token destination amount = (.error e, after) ↔
      after = b ∧ FirstUnmet (b.depositRequirements sender token destination amount) e) ∧
    ∀ record after, b.deposit sender token destination amount = (.ok record, after) →
      record.token = token ∧ record.sender = sender ∧ record.destination.bytes = destination ∧
        record.amount = amount ∧ b.Deposited after record := by
  refine ⟨?_, fun e after ↦ deposit_eq_error_iff, ?_⟩
  · have hmet := (b.deposit_enforced sender token destination amount).exists_ok_iff
    have hpair : (∃ record after, b.deposit sender token destination amount = (.ok record, after)) ↔
        ∃ record, (b.deposit sender token destination amount).1 = .ok record := by
      constructor
      · intro h
        obtain ⟨record, after, h⟩ := h
        exact ⟨record, congrArg Prod.fst h⟩
      · intro h
        obtain ⟨record, h⟩ := h
        exact ⟨record, _, Prod.ext h rfl⟩
    rw [hpair, hmet]
    simp [depositRequirements, Balances.transferRequirements, Requirement.map, Nat.succ_le_iff]
  · intro record after h
    obtain ⟨_, htoken, hsender, hdestination, hamount, _⟩ := deposit_of_ok (congrArg Prod.fst h)
    exact ⟨htoken, hsender, hdestination, hamount, deposited_of_effect (deposit_eq_ok_iff.1 h)⟩

/-- Someone who deposits nothing for nobody is told of the missing destination. -/
theorem deposit_exact_ferry :
    let b := ferry.reach (fun funds _ ↦ funds) ferryWaiting
    (∃ record after, b.deposit ferryPassenger ferryToken [7] ferryAmount = (.ok record, after) ∧
      record.destination.bytes = [7] ∧ record.nonce.toNat = 1 ∧
      (after.custody.balance ferryToken ferryPassenger).toNat + 100 = 100 ∧
      (after.custody.balance ferryToken after.account).toNat = 100) ∧
    b.deposit ferryPassenger ferryToken [] .zero = (.error (.data (.invalidDestination 0)), b) := by
  intro b
  obtain ⟨admitted, -, deposits⟩ := deposit_exact b ferryPassenger ferryToken [7] ferryAmount
  obtain ⟨-, refused, -⟩ := deposit_exact b ferryPassenger ferryToken [] .zero
  have ready : b.state.isSome := by decide +kernel
  have unnumbered : b.lastNumber = 0 := by decide +kernel
  have funds : (b.custody.balance ferryToken ferryPassenger).toNat = 100 := by decide +kernel
  have vacant : (b.custody.balance ferryToken b.account).toNat = 0 := by decide +kernel
  constructor
  · obtain ⟨record, after, h⟩ := admitted.2 ⟨ready, by decide, by decide, by decide +kernel,
      by decide +kernel, Nat.le_of_eq funds.symm, by rw [vacant]; decide, by rw [unnumbered]; decide⟩
    obtain ⟨htoken, hsender, hdestination, hamount, deposited⟩ := deposits record after h
    have pays := deposited.sender_pays
    have gains := deposited.account_gains
    rw [htoken, hsender, hamount, funds] at pays
    rw [htoken, hamount, vacant, Nat.zero_add, ← deposited.account_eq] at gains
    have number : record.nonce.toNat = 1 := by
      rw [deposited.nonce_eq, deposited.number_eq, unnumbered]
    exact ⟨record, after, h, hdestination, number, pays, gains⟩
  · refine (refused _ b).2 ⟨rfl, [_], _, _, rfl, ?_, ?_, rfl⟩
    · intro r hr
      rw [List.mem_singleton.1 hr]
      exact ready
    · exact fun h ↦ absurd h.1 (by decide)

end Bridge

end TokenBridge
