import TokenBridge.Proofs.Bridge.Escrow
import TokenBridge.Proofs.Bridge.Replay
import TokenBridge.Proofs.Custody.Supply

namespace TokenBridge

namespace Payment

def call (p : Payment) : Call := .executeBatch p.relayer p.batch p.signatures

def step {ε : Type} (p : Payment) : Step ε := .call p.call

/-- A payment that only its nonce or a want of funds can stop. -/
structure Payable (registry : Registry) (token : Address) (p : Payment) : Prop where
  token_eq : p.batch.token = token
  approved : ∃ power,
    registry.verify p.signatures (p.batch.signingDigest registry.bridgeId) = .ok power
  fees_fit : (p.batch.payouts.map (·.fee.toNat)).sum < UInt256.size
  relayer_ne : p.relayer.isZero = false
  destinations_ne : ∀ payout ∈ p.batch.payouts, payout.destination.isZero = false

def latest (last : UInt64) (past : List Payment) : UInt64 :=
  (past.map (·.batch.nonce)).foldl max last

/-- The payments whose nonces are above all before them. -/
def leaders (last : UInt64) : List Payment → List Payment
  | [] => []
  | p :: rest =>
    if last < p.batch.nonce then p :: leaders p.batch.nonce rest else leaders last rest

def outstanding (last : UInt64) : List Payment → Nat
  | [] => 0
  | p :: rest => (if last < p.batch.nonce then p.batch.cost else 0) + outstanding last rest

variable {p : Payment} {past order submissions : List Payment} {last top n : UInt64}

theorem max_le_iff {a b : UInt64} : max a b ≤ n ↔ a ≤ n ∧ b ≤ n := by
  have h : max a b = if a ≤ b then b else a := rfl
  rw [h]
  split <;> grind

theorem max_eq_of_lt (h : last < n) : max last n = n := if_pos (UInt64.le_of_lt h)

theorem max_eq_of_le (h : n ≤ last) : max last n = last :=
  UInt64.le_antisymm (max_le_iff.2 ⟨UInt64.le_refl last, h⟩) (max_le_iff.1 (UInt64.le_refl _)).1

theorem latest_cons : latest last (p :: past) = latest (max last p.batch.nonce) past := rfl

theorem latest_le_iff : latest last past ≤ n ↔ last ≤ n ∧ ∀ p ∈ past, p.batch.nonce ≤ n := by
  induction past generalizing last with
  | nil => simp [latest]
  | cons p rest ih => rw [latest_cons, ih, max_le_iff, List.forall_mem_cons, and_assoc]

theorem latest_mem (last : UInt64) (past : List Payment) :
    latest last past = last ∨ ∃ p ∈ past, p.batch.nonce = latest last past := by
  induction past generalizing last with
  | nil => exact .inl rfl
  | cons p rest ih =>
    rw [latest_cons]
    rcases ih (max last p.batch.nonce) with h | ⟨q, hq, h⟩
    · rw [h]
      by_cases hlt : last < p.batch.nonce
      · exact .inr ⟨p, List.mem_cons_self, (max_eq_of_lt hlt).symm⟩
      · exact .inl (max_eq_of_le (UInt64.not_lt.1 hlt))
    · exact .inr ⟨q, List.mem_cons_of_mem _ hq, h⟩

theorem latest_lt_iff : latest last past < n ↔ last < n ∧ ∀ p ∈ past, p.batch.nonce < n := by
  obtain ⟨hlast, hpast⟩ := latest_le_iff.1 (UInt64.le_refl (latest last past))
  constructor
  · intro h
    exact ⟨UInt64.lt_of_le_of_lt hlast h, fun p hp ↦ UInt64.lt_of_le_of_lt (hpast p hp) h⟩
  · rintro ⟨hlt, hall⟩
    rcases latest_mem last past with h | ⟨p, hp, h⟩
    · rwa [h]
    · exact h ▸ hall p hp

theorem latest_congr (h : ∀ p, p ∈ order ↔ p ∈ submissions) :
    latest last order = latest last submissions := by
  have hle : ∀ n, latest last order ≤ n ↔ latest last submissions ≤ n := by
    intro n
    simp only [latest_le_iff, h]
  exact UInt64.le_antisymm ((hle _).2 (UInt64.le_refl _)) ((hle _).1 (UInt64.le_refl _))

theorem leaders_of_lt (h : last < p.batch.nonce) :
    leaders last (p :: past) = p :: leaders p.batch.nonce past := if_pos h

theorem leaders_of_le (h : p.batch.nonce ≤ last) : leaders last (p :: past) = leaders last past :=
  if_neg (UInt64.not_lt.2 h)

theorem leaders_sublist : (leaders last order).Sublist order := by
  induction order generalizing last with
  | nil => exact .slnil
  | cons q rest ih =>
    by_cases hlt : last < q.batch.nonce
    · rw [leaders_of_lt hlt]
      exact ih.cons_cons q
    · rw [leaders_of_le (UInt64.not_lt.1 hlt)]
      exact ih.cons q

theorem lt_of_mem_leaders (h : p ∈ leaders last order) : last < p.batch.nonce := by
  induction order generalizing last with
  | nil => cases h
  | cons q rest ih =>
    by_cases hlt : last < q.batch.nonce
    · rw [leaders_of_lt hlt] at h
      rcases List.mem_cons.1 h with rfl | h
      · exact hlt
      · exact UInt64.lt_trans hlt (ih h)
    · rw [leaders_of_le (UInt64.not_lt.1 hlt)] at h
      exact ih h

/-- The highest nonce leads once: where it comes first. -/
theorem countP_leaders (hle : ∀ p ∈ order, p.batch.nonce ≤ top) (hlt : last < top)
    (hmem : ∃ p ∈ order, p.batch.nonce = top) :
    (leaders last order).countP (·.batch.nonce = top) = 1 := by
  induction order generalizing last with
  | nil =>
    obtain ⟨p, hp, _⟩ := hmem
    cases hp
  | cons q rest ih =>
    obtain ⟨hq, hrest⟩ := List.forall_mem_cons.1 hle
    by_cases hq' : q.batch.nonce = top
    · subst hq'
      have hnone : (leaders q.batch.nonce rest).countP (·.batch.nonce = q.batch.nonce) = 0 := by
        refine List.countP_eq_zero.2 fun p hp ↦ ?_
        have := lt_of_mem_leaders hp
        grind
      rw [leaders_of_lt hlt, List.countP_cons_of_pos (by simp), hnone]
    · have hlater : ∃ p ∈ rest, p.batch.nonce = top := by
        obtain ⟨p, hp, h⟩ := hmem
        rcases List.mem_cons.1 hp with rfl | hp
        · exact absurd h hq'
        · exact ⟨p, hp, h⟩
      by_cases hlead : last < q.batch.nonce
      · rw [leaders_of_lt hlead, List.countP_cons_of_neg (by simpa using hq')]
        exact ih hrest (UInt64.lt_of_le_of_ne hq hq') hlater
      · rw [leaders_of_le (UInt64.not_lt.1 hlead)]
        exact ih hrest hlt hlater

theorem outstanding_anti (h : last ≤ n) : outstanding n submissions ≤ outstanding last submissions := by
  induction submissions with
  | nil => exact Nat.le_refl 0
  | cons q rest ih =>
    rw [outstanding, outstanding]
    by_cases hn : n < q.batch.nonce
    · rw [if_pos hn, if_pos (UInt64.lt_of_le_of_lt h hn)]
      omega
    · rw [if_neg hn]
      omega

/-- Once a payment is made its cost is no longer outstanding, whatever was made before it. -/
theorem outstanding_add_cost_le (hp : p ∈ submissions) (h : last < p.batch.nonce) :
    outstanding p.batch.nonce submissions + p.batch.cost ≤ outstanding last submissions := by
  induction submissions with
  | nil => cases hp
  | cons q rest ih =>
    rw [outstanding, outstanding]
    rcases List.mem_cons.1 hp with rfl | hp
    · have hrest : outstanding p.batch.nonce rest ≤ outstanding last rest :=
        outstanding_anti (UInt64.le_of_lt h)
      rw [if_neg (UInt64.lt_irrefl _), if_pos h]
      omega
    · have hrest := ih hp
      by_cases hq : p.batch.nonce < q.batch.nonce
      · rw [if_pos hq, if_pos (UInt64.lt_trans h hq)]
        omega
      · rw [if_neg hq]
        omega

theorem outstanding_le_sum (last : UInt64) (submissions : List Payment) :
    outstanding last submissions ≤ (submissions.map (·.batch.cost)).sum := by
  induction submissions with
  | nil => exact Nat.le_refl 0
  | cons q rest ih =>
    rw [outstanding, List.map_cons, List.sum_cons]
    split <;> omega

theorem Payable.batchNonce?_eq {registry : Registry} {token : Address}
    (h : p.Payable registry token) : p.call.batchNonce? token = some p.batch.nonce := by
  simp [Call.batchNonce?, Payment.call, Call.payment?, h.token_eq]

theorem Payable.executes {registry : Registry} {token account : Address} {x : Executor}
    {funds : Balances} (h : p.Payable registry token) (hlast : x.lastNonce token < p.batch.nonce)
    (hfunds : p.batch.cost ≤ (funds.balance token account).toNat)
    (hsupply : funds.supply token < UInt256.size) :
    ∃ funds', x.execute registry p.batch p.signatures funds account p.relayer =
        (.ok (), x.advance p.batch, funds') ∧
      (funds.balance token account).toNat ≤ (funds'.balance token account).toNat + p.batch.cost ∧
      funds'.supply token = funds.supply token := by
  obtain rfl := h.token_eq
  obtain ⟨fee, hfee⟩ := Batch.exists_totalFee_iff.2 h.fees_fit
  have hrecipients : ∀ t ∈ p.batch.transfers p.relayer fee, t.1.isZero = false :=
    (Batch.recipient_ne_zero_iff p.relayer).2 ⟨h.destinations_ne, .inl h.relayer_ne⟩
  have hsent : sent (p.batch.transfers p.relayer fee) ≤
      (funds.balance p.batch.token account).toNat := by
    rw [Batch.sent_transfers_eq_cost hfee]
    exact hfunds
  obtain ⟨funds', moved⟩ := Balances.transferAll_succeeds hrecipients hsent hsupply
  have executed : x.execute registry p.batch p.signatures funds account p.relayer =
      (.ok (), x.advance p.batch, funds') :=
    Executor.execute_eq_ok_iff.2 ⟨hlast, h.approved, ⟨fee, hfee, moved⟩, rfl⟩
  have hheld := Executor.balance_custodian_of_execute executed
  have hpaid := Batch.paidOut_le_cost hfee account p.relayer
  exact ⟨funds', executed, by omega, Balances.supply_transferAll moved⟩

end Payment

open Payment

variable {ε : Type} {world : ε → Balances → Balances}

namespace Bridge

/-- A bridge that can pay for all submissions that are still above its nonce. -/
structure Racing (registry : Registry) (token : Address) (submissions : List Payment)
    (last : UInt64) (b : Bridge Balances) : Prop where
  payable : ∀ p ∈ submissions, p.Payable registry token
  ready : ∃ state, b.state = some state ∧ state.registry = registry ∧
    state.executor.lastNonce token = last
  covered : outstanding last submissions ≤ b.held token
  supply_lt : b.custody.supply token < UInt256.size

namespace Racing

variable {registry : Registry} {token : Address} {submissions order : List Payment} {last : UInt64}
  {b : Bridge Balances} {p : Payment}

theorem lastBatchNonce_eq (h : Racing registry token submissions last b) :
    b.lastBatchNonce token = .ok last := by
  obtain ⟨state, ready, rfl, rfl⟩ := h.ready
  exact lastBatchNonce_of_state ready token

theorem pays (h : Racing registry token submissions last b) (hp : p ∈ submissions)
    (hlt : last < p.batch.nonce) :
    ∃ b', b.executeBatch p.relayer p.batch p.signatures = (.ok (), b') ∧
      Racing registry token submissions p.batch.nonce b' := by
  obtain ⟨state, ready, rfl, rfl⟩ := h.ready
  have hcost := outstanding_add_cost_le hp hlt
  have hcovered : outstanding (state.executor.lastNonce token) submissions ≤
      (b.custody.balance token b.account).toNat := h.covered
  have hpayable := h.payable p hp
  have hfunds : p.batch.cost ≤ (b.custody.balance token b.account).toNat := by omega
  obtain ⟨funds', executed, hheld, hsupply⟩ := hpayable.executes hlt hfunds h.supply_lt
  -- what was left out before this payment can no longer be made, and this one cannot be made again
  have hleft : outstanding p.batch.nonce submissions ≤
      (funds'.balance token b.account).toNat := by omega
  refine ⟨_, executeBatch_eq_ok_iff.2 (.executeBatch ready executed), h.payable, ?_, hleft, ?_⟩
  · refine ⟨_, rfl, rfl, ?_⟩
    rw [← hpayable.token_eq]
    exact Executor.lastNonce_advance_self _ _
  · rw [hsupply]
    exact h.supply_lt

theorem refuses (h : Racing registry token submissions last b) (hp : p ∈ submissions)
    (hle : p.batch.nonce ≤ last) :
    b.executeBatch p.relayer p.batch p.signatures =
      (.error (.staleBatchNonce token p.batch.nonce last), b) := by
  obtain ⟨state, ready, rfl, rfl⟩ := h.ready
  obtain rfl := (h.payable p hp).token_eq
  exact executeBatch_stale ready hle p.relayer p.signatures

theorem pays_iff (h : Racing registry token submissions last b) (hp : p ∈ submissions) :
    (∃ b', b.executeBatch p.relayer p.batch p.signatures = (.ok (), b')) ↔
      last < p.batch.nonce := by
  constructor
  · rintro ⟨b', hpaid⟩
    by_contra hle
    rw [h.refuses hp (UInt64.not_lt.1 hle)] at hpaid
    cases hpaid
  · intro hlt
    obtain ⟨b', hpaid, _⟩ := h.pays hp hlt
    exact ⟨b', hpaid⟩

theorem perform (h : Racing registry token submissions last b) (hp : p ∈ submissions) :
    Racing registry token submissions (max last p.batch.nonce) (b.perform world p.step) := by
  have hperform : b.perform world p.step =
      (b.executeBatch p.relayer p.batch p.signatures).2 := rfl
  rw [hperform]
  by_cases hlt : last < p.batch.nonce
  · obtain ⟨b', hpaid, after⟩ := h.pays hp hlt
    rw [hpaid, max_eq_of_lt hlt]
    exact after
  · have hle := UInt64.not_lt.1 hlt
    rw [h.refuses hp hle, max_eq_of_le hle]
    exact h

theorem reach (h : Racing registry token submissions last b) {past : List Payment}
    (hpast : ∀ p ∈ past, p ∈ submissions) :
    Racing registry token submissions (latest last past) (b.reach world (past.map step)) := by
  induction past generalizing b last with
  | nil => exact h
  | cons p rest ih =>
    obtain ⟨hp, hrest⟩ := List.forall_mem_cons.1 hpast
    exact ih (h.perform hp) hrest

theorem success?_eq (h : Racing registry token submissions last b) (hp : p ∈ submissions) :
    Moment.success? (⟨b, p.step⟩ : Moment Balances ε) =
      if last < p.batch.nonce then some (p.call, .done) else none := by
  by_cases hlt : last < p.batch.nonce
  · obtain ⟨b', hpaid, _⟩ := h.pays hp hlt
    have hok : (b.call p.call).1 = .ok .done := by
      simp [call, Payment.call, answering, hpaid, Except.map]
    rw [if_pos hlt]
    exact success_of_ok hok
  · have hrefused := h.refuses hp (UInt64.not_lt.1 hlt)
    rw [if_neg hlt]
    simp [Moment.success?, Payment.step, Payment.call, call, answering, hrefused, Except.map,
      Except.toOption]

theorem successes_eq (h : Racing registry token submissions last b)
    (horder : ∀ p ∈ order, p ∈ submissions) :
    b.successes world (order.map step) =
      (leaders last order).map fun p ↦ (p.call, Answer.done) := by
  induction order generalizing b last with
  | nil => rfl
  | cons p rest ih =>
    obtain ⟨hp, hrest⟩ := List.forall_mem_cons.1 horder
    have hnext : Racing registry token submissions (max last p.batch.nonce)
        (b.perform world p.step) := h.perform hp
    have later := ih hnext hrest
    rw [successes] at later ⊢
    rw [List.map_cons, trace, List.filterMap_cons, h.success?_eq hp]
    by_cases hlt : last < p.batch.nonce
    · rw [max_eq_of_lt hlt] at later
      simp [hlt, later, leaders_of_lt]
    · have hle := UInt64.not_lt.1 hlt
      rw [max_eq_of_le hle] at later
      simp [hlt, later, leaders_of_le hle]

end Racing

/-- Whoever is first, nonces decide: of submissions that can all be paid for, a submission is
executed just when its nonce is above the stored one and above all that were tried before it, and
the highest nonce is executed once. -/
theorem race_decided_by_nonces {b : Bridge Balances} {state : BridgeState} {token : Address}
    {submissions order : List Payment} (world : ε → Balances → Balances)
    (ready : b.state = some state)
    (payable : ∀ p ∈ submissions, p.Payable state.registry token)
    (covered : (submissions.map (·.batch.cost)).sum ≤ b.held token)
    (supply_lt : b.custody.supply token < UInt256.size)
    (same : ∀ p, p ∈ order ↔ p ∈ submissions) :
    let last := state.executor.lastNonce token
    let top := (submissions.map (·.batch.nonce)).foldl max last
    (∀ past p rest, order = past ++ p :: rest →
      let now := b.reach world (past.map step)
      let stored := (past.map (·.batch.nonce)).foldl max last
      let leads := last < p.batch.nonce ∧ ∀ q ∈ past, q.batch.nonce < p.batch.nonce
      ((∃ b', now.executeBatch p.relayer p.batch p.signatures = (.ok (), b')) ↔ leads) ∧
      (¬ leads → now.executeBatch p.relayer p.batch p.signatures =
        (.error (.staleBatchNonce token p.batch.nonce stored), now))) ∧
    (b.reach world (order.map step)).lastBatchNonce token = .ok top ∧
    (last < top → (b.successes world (order.map step)).countP
      (fun success ↦ success.1.batchNonce? token = some top) = 1) := by
  intro last top
  have racing : Racing state.registry token submissions last b :=
    ⟨payable, ⟨state, ready, rfl, rfl⟩, Nat.le_trans (outstanding_le_sum last submissions) covered,
      supply_lt⟩
  have htop : latest last order = top := latest_congr same
  have horder : ∀ p ∈ order, p ∈ submissions := fun p ↦ (same p).1
  refine ⟨?_, ?_, ?_⟩
  · intro past p rest hsplit now stored leads
    have hp : p ∈ submissions := horder p (by simp [hsplit])
    have hpast : ∀ q ∈ past, q ∈ submissions := fun q hq ↦ horder q (by simp [hsplit, hq])
    have hnow : Racing state.registry token submissions (latest last past) now :=
      racing.reach hpast
    have hleads : latest last past < p.batch.nonce ↔ leads := latest_lt_iff
    refine ⟨(hnow.pays_iff hp).trans hleads, ?_⟩
    intro hbehind
    exact hnow.refuses hp (UInt64.not_lt.1 (mt hleads.1 hbehind))
  · rw [← htop]
    exact (racing.reach horder).lastBatchNonce_eq
  · intro hlt
    have hle : ∀ p ∈ order, p.batch.nonce ≤ top :=
      (latest_le_iff.1 (UInt64.le_of_eq htop)).2
    have hmem : ∃ p ∈ order, p.batch.nonce = top := by
      rw [← htop]
      refine (latest_mem last order).resolve_left fun h ↦ ?_
      rw [← htop, h] at hlt
      exact UInt64.lt_irrefl _ hlt
    have hcount := countP_leaders hle hlt hmem
    rw [racing.successes_eq horder, List.countP_map, ← hcount]
    refine List.countP_congr fun p hp ↦ ?_
    simp [(payable p (horder p (leaders_sublist.subset hp))).batchNonce?_eq]

def ferryFare (relayer : Nat) : Payment :=
  ⟨FixedBytes.ofNat 20 relayer, ferryBatch, ferrySignatures⟩

/-- Two relayers with the same batch. -/
theorem race_decided_by_nonces_ferry :
    let b := ferry.reach (fun funds _ ↦ funds) ferrySteps
    let order := [ferryFare 0x33, ferryFare 0x44]
    let late := b.reach (fun funds _ ↦ funds) [(ferryFare 0x33).step]
    late.executeBatch (FixedBytes.ofNat 20 0x44) ferryBatch ferrySignatures =
      (.error (.staleBatchNonce ferryToken 5 5), late) ∧
    (b.reach (fun funds _ ↦ funds) (order.map step)).lastBatchNonce ferryToken = .ok 5 ∧
    (b.successes (fun funds _ ↦ funds) (order.map step)).countP
      (fun success ↦ success.1.batchNonce? ferryToken = some 5) = 1 := by
  intro b order late
  have fees_fit : (ferryBatch.payouts.map (·.fee.toNat)).sum < UInt256.size := by decide
  have destinations_ne : ∀ payout ∈ ferryBatch.payouts, payout.destination.isZero = false := by
    decide +kernel
  have fare (relayer : Nat) (h : (FixedBytes.ofNat 20 relayer).isZero = false) :
      (ferryFare relayer).Payable (.genesis ferryId .default ferryCrew) ferryToken :=
    ⟨rfl, ferry_approved, fees_fit, h, destinations_ne⟩
  have payable : ∀ p ∈ order, p.Payable (.genesis ferryId .default ferryCrew) ferryToken := by
    refine List.forall_mem_cons.2 ⟨fare 0x33 (by decide +kernel), ?_⟩
    exact List.forall_mem_singleton.2 (fare 0x44 (by decide +kernel))
  have covered : (order.map (·.batch.cost)).sum ≤ b.held ferryToken := by decide +kernel
  have supply_lt : b.custody.supply ferryToken < UInt256.size := by decide +kernel
  obtain ⟨tried, final, once⟩ := race_decided_by_nonces (fun funds (_ : Balances) ↦ funds)
    ferry_started payable covered supply_lt fun _ ↦ Iff.rfl
  have hnone : (BridgeState.new (.genesis ferryId .default ferryCrew)).executor.lastNonce
      ferryToken = 0 := rfl
  rw [hnone] at tried final once
  refine ⟨?_, final, once (by decide)⟩
  refine (tried [ferryFare 0x33] (ferryFare 0x44) [] rfl).2 ?_
  rintro ⟨_, ahead⟩
  exact UInt64.lt_irrefl 5 (ahead (ferryFare 0x33) (List.mem_singleton_self _))

end Bridge

end TokenBridge
