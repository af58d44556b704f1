import TokenBridge.Proofs.Bridge.Erasure
import TokenBridge.Proofs.Bridge.Locality

namespace TokenBridge

namespace Call

def Independent (c d : Call) : Prop :=
  ∀ cell, (c.Writes cell → ¬ d.Uses cell) ∧ (d.Writes cell → ¬ c.Uses cell)

/-- Calls that have no token and no part of the state to share. Two deposits are not among them,
as all deposits are numbered together. -/
inductive Apart : Call → Call → Prop
  | batches {c d : Call} {p q : Payment} (hp : c.payment? = some p) (hq : d.payment? = some q)
      (hne : p.batch.token ≠ q.batch.token) : Apart c d
  | depositBatch {sender token : Address} {bytes : Bytes} {amount : UInt256} {d : Call}
      {q : Payment} (hq : d.payment? = some q) (hne : token ≠ q.batch.token) :
      Apart (.deposit sender token bytes amount) d
  | depositRotation {sender token : Address} {bytes : Bytes} {amount : UInt256}
      {addresses : List Address} {powers : List UInt64} {nonce : UInt64}
      {signatures : SignatureSet} :
      Apart (.deposit sender token bytes amount) (.rotate addresses powers nonce signatures)

variable {c d : Call}

theorem Independent.symm (h : c.Independent d) : d.Independent c := fun cell ↦ (h cell).symm

theorem Apart.independent (h : c.Apart d) : c.Independent d := by
  intro cell
  cases h with
  | batches hp hq hne =>
    rw [writes_of_payment hp, writes_of_payment hq, uses_of_payment hp, uses_of_payment hq]
    constructor
    · rintro (rfl | rfl) <;> simp [hne]
    · rintro (rfl | rfl) <;> simp [hne.symm]
  | depositBatch hq hne =>
    rw [writes_of_payment hq, uses_of_payment hq]
    constructor
    · rintro (rfl | rfl) <;> simp [hne]
    · rintro (rfl | rfl) <;> simp [Uses, Writes, Reads, hne.symm]
  | depositRotation =>
    constructor
    · rintro (rfl | rfl) <;> simp [Uses, Writes, Reads]
    · rintro rfl
      simp [Uses, Writes, Reads]

def event? (c : Call) (outcome : Except BridgeError Answer) : Option Event :=
  outcome.toOption.bind fun answer ↦ (c.events answer).head?

end Call

namespace Bridge

section

variable {C : Type} [Custody C]

theorem journal_call (b : Bridge C) (c : Call) :
    (b.call c).2.journal = b.journal ++ (c.event? (b.call c).1).toList := by
  cases h : (b.call c).1 with
  | error e =>
    rw [call_of_error h]
    exact (List.append_nil _).symm
  | ok answer =>
    obtain ⟨event, hevents, hjournal⟩ := (effect_of_ok h).exists_event
    rw [hjournal, Call.event?, Except.toOption, Option.bind_some, hevents]
    rfl

theorem account_call (b : Bridge C) (c : Call) : (b.call c).2.account = b.account := by
  cases h : (b.call c).1 with
  | error e => rw [call_of_error h]
  | ok answer => exact (effect_of_ok h).account_eq

end

variable {b : Bridge Balances} {c d : Call} {cell : Cell}

/-- A call does the same behind one that is independent of it. -/
theorem call_congr_of_independent (b : Bridge Balances) (h : c.Independent d) :
    Alike d.Uses ((b.call c).2.call d) (b.call d) :=
  call_congr (b.account_call c) fun cell hd ↦ sameAt_call b fun hc ↦ (h cell).1 hc hd

theorem sameAt_call_call (h : c.Independent d) (hcell : ¬ c.Writes cell) :
    ((b.call c).2.call d).2.SameAt (b.call d).2 cell := by
  by_cases hd : d.Uses cell
  · exact (call_congr_of_independent b h).2 cell hd
  · have hwrites : ¬ d.Writes cell := fun hw ↦ hd (.inl hw)
    have hboth : ((b.call c).2.call d).2.SameAt b cell :=
      (sameAt_call _ hwrites).trans (sameAt_call b hcell)
    exact hboth.trans (sameAt_call b hwrites).symm

theorem sameAt_of_independent (b : Bridge Balances) (h : c.Independent d) (cell : Cell) :
    ((b.call c).2.call d).2.SameAt ((b.call d).2.call c).2 cell := by
  by_cases hc : c.Writes cell
  · -- The second call leaves the cell alone, in either order.
    have hd : ¬ d.Writes cell := fun hd ↦ (h cell).2 hd (.inl hc)
    exact (sameAt_call _ hd).trans (sameAt_call_call h.symm hd).symm
  · exact (sameAt_call_call h hc).trans (sameAt_call _ hc).symm

/-- Two batches on different tokens, a deposit and a batch on different tokens, and a deposit and a
replacement of the validator set can be made in either order, whether they succeed or not: each
comes to the same, and the bridge ends up the same but for the order of the events. -/
theorem independent_calls_commute (b : Bridge Balances) {c d : Call} (h : c.Apart d) :
    ((b.call d).2.call c).1 = (b.call c).1 ∧ ((b.call c).2.call d).1 = (b.call d).1 ∧
      ((b.call c).2.call d).2.gate = ((b.call d).2.call c).2.gate ∧
      ((b.call c).2.call d).2.state = ((b.call d).2.call c).2.state ∧
      ((b.call c).2.call d).2.custody = ((b.call d).2.call c).2.custody ∧
      ∃ first second : Option Event,
        (b.call c).2.journal = b.journal ++ first.toList ∧
        (b.call d).2.journal = b.journal ++ second.toList ∧
        ((b.call c).2.call d).2.journal = b.journal ++ first.toList ++ second.toList ∧
        ((b.call d).2.call c).2.journal = b.journal ++ second.toList ++ first.toList := by
  have hindependent := h.independent
  have hc : ((b.call d).2.call c).1 = (b.call c).1 :=
    (call_congr_of_independent b hindependent.symm).1
  have hd : ((b.call c).2.call d).1 = (b.call d).1 := (call_congr_of_independent b hindependent).1
  obtain ⟨hgate, hstate, hcustody⟩ := eq_of_sameAt (sameAt_of_independent b hindependent)
  refine ⟨hc, hd, hgate, hstate, hcustody, c.event? (b.call c).1, d.event? (b.call d).1,
    b.journal_call c, b.journal_call d, ?_, ?_⟩
  · rw [journal_call, journal_call, hd]
  · rw [journal_call, journal_call, hc]

def ferryCargo : Address := FixedBytes.ofNat 20 0xcc

def ferryLoaded : Bridge Balances :=
  let started := ferry.reach (fun funds _ ↦ funds) ferrySteps
  { started with custody := started.custody.set ferryCargo ferryPassenger ferryAmount }

def ferryLoading : Call := .deposit ferryPassenger ferryCargo [7] ferryAmount

/-- The other token makes no difference to the crossing. -/
theorem ferry_crosses_loaded : (ferryLoaded.call ferryCrossing).1 = .ok .done := by
  have hne : ferryToken ≠ ferryCargo := by decide
  have haccount : ferryLoaded.account = (ferry.reach (fun funds _ ↦ funds) ferrySteps).account := by
    rw [ferryLoaded]
  have hsame : ∀ cell, ferryCrossing.Uses cell →
      ferryLoaded.SameAt (ferry.reach (fun funds _ ↦ funds) ferrySteps) cell := by
    rintro cell ((rfl | rfl) | rfl)
    · rfl
    · exact Balances.fundsOf_set_of_ne _ hne _ _
    · rfl
  have hcongr := call_congr haccount hsame
  exact hcongr.1.trans ferry_crosses

theorem independent_calls_commute_ferry :
    ferryLoading.Apart ferryCrossing ∧
      (((ferryLoaded.call ferryCrossing).2.call ferryLoading).1.toOption.isSome ∧
        ((ferryLoaded.call ferryLoading).2.call ferryCrossing).1 = .ok .done) ∧
      ((ferryLoaded.call ferryLoading).2.call ferryCrossing).2.custody =
        ((ferryLoaded.call ferryCrossing).2.call ferryLoading).2.custody := by
  have hne : ferryCargo ≠ ferryToken := by decide
  have hapart : ferryLoading.Apart ferryCrossing := .depositBatch rfl hne
  obtain ⟨hload, hcross, -, -, hcustody, -⟩ := independent_calls_commute ferryLoaded hapart
  refine ⟨hapart, ⟨?_, hcross.trans ferry_crosses_loaded⟩, hcustody⟩
  rw [hload]
  decide +kernel

end Bridge

end TokenBridge
