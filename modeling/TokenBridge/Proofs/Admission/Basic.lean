import TokenBridge.Proofs.Registry.Consistency

namespace TokenBridge

/-- What stands in the input is scanned without being checked. It is read if it is admissible, as the
value that has it as its raw form, and refused if it is not. -/
structure Admits {ι α ρ : Type} (read : ι → Option α) (scan : ι → Option ρ) (raw : α → ρ)
    (Admissible : ρ → Prop) : Prop where
  admissible : ∀ input a, read input = some a → scan input = some (raw a) ∧ Admissible (raw a)
  accepted : ∀ input r, scan input = some r → Admissible r → ∃ a, read input = some a ∧ raw a = r
  refused : ∀ input r, scan input = some r → ¬ Admissible r → read input = none

theorem Admits.of_iff {ι α ρ : Type} {read : ι → Option α} {scan : ι → Option ρ} {raw : α → ρ}
    {Admissible : ρ → Prop} (hread : ∀ input a, read input = some a ↔ scan input = some (raw a))
    (hraw : ∀ r, Admissible r ↔ ∃ a, raw a = r) : Admits read scan raw Admissible where
  admissible input a h := ⟨(hread input a).1 h, (hraw _).2 ⟨a, rfl⟩⟩
  accepted input r h hr := by
    obtain ⟨a, rfl⟩ := (hraw r).1 hr
    exact ⟨a, (hread input a).2 h, rfl⟩
  refused input r h hr := by
    cases ha : read input with
    | none => rfl
    | some a =>
      have hscan := (hread input a).1 ha
      rw [h] at hscan
      cases hscan
      exact absurd ((hraw _).2 ⟨a, rfl⟩) hr

def BridgeId.Admissible (word : Word) : Prop := word.isZero = false

def PowerThreshold.Admissible (basisPoints : UInt32) : Prop :=
  1 ≤ basisPoints.toNat ∧ basisPoints.toNat ≤ 10000

def Destination.Admissible (bytes : Bytes) : Prop := 1 ≤ bytes.length ∧ bytes.length ≤ 32

structure ValidatorSet.Admissible (members : List Validator) : Prop where
  ne_nil : members ≠ []
  nodup : (members.map (·.address)).Nodup
  address_ne_zero : ∀ v ∈ members, v.address.isZero = false
  power_ne_zero : ∀ v ∈ members, v.power ≠ 0
  total_lt : ((members.map (·.power)).map UInt64.toNat).sum < 2 ^ 64

theorem BridgeId.admissible_iff (word : Word) :
    Admissible word ↔ ∃ id : BridgeId, id.word = word := by
  constructor
  · exact fun h ↦ ⟨⟨word, h⟩, rfl⟩
  · rintro ⟨id, rfl⟩
    exact id.ne_zero

theorem PowerThreshold.admissible_iff (basisPoints : UInt32) :
    Admissible basisPoints ↔ ∃ t : PowerThreshold, t.basisPoints = basisPoints := by
  constructor
  · exact fun h ↦ ⟨⟨basisPoints, h.1, h.2⟩, rfl⟩
  · rintro ⟨t, rfl⟩
    exact ⟨t.pos, t.le_denominator⟩

theorem Destination.admissible_iff (bytes : Bytes) :
    Admissible bytes ↔ ∃ d : Destination, d.bytes = bytes := by
  constructor
  · exact fun h ↦ ⟨⟨bytes, h.1, h.2⟩, rfl⟩
  · rintro ⟨d, rfl⟩
    exact ⟨d.pos, d.length_le⟩

theorem ValidatorSet.admissible_iff (members : List Validator) :
    Admissible members ↔ ∃ vs : ValidatorSet, vs.members = members := by
  constructor
  · intro h
    refine ⟨⟨members, .ofNat (Validator.totalPower members), h.ne_nil, h.address_ne_zero,
      h.power_ne_zero, h.nodup, UInt64.toNat_ofNat_of_lt' ?_⟩, rfl⟩
    rw [Validator.totalPower_eq_sum]
    exact h.total_lt
  · rintro ⟨vs, rfl⟩
    refine ⟨vs.members_ne_nil, vs.nodup, vs.address_ne_zero, vs.power_ne_zero, ?_⟩
    rw [← Validator.totalPower_eq_sum]
    exact vs.power_lt

/-! The raw forms of records that have such values among their fields. -/

abbrev Checkpoint.Fields := Word × UInt64 × Word

abbrev Deposit.Fields := Address × Address × Bytes × UInt256 × UInt64

abbrev Registry.Fields := Checkpoint.Fields × List Validator × UInt32

abbrev BridgeState.Fields := Registry.Fields × Ledger × Executor

abbrev Event.Fields := Event Deposit.Fields

def Checkpoint.fields (c : Checkpoint) : Fields := (c.bridgeId.word, c.nonce, c.commitment)

def Deposit.fields (d : Deposit) : Fields :=
  (d.token, d.sender, d.destination.bytes, d.amount, d.nonce)

def Registry.fields (r : Registry) : Fields :=
  (r.checkpoint.fields, r.validators.members, r.threshold.basisPoints)

def BridgeState.fields (s : BridgeState) : Fields := (s.registry.fields, s.ledger, s.executor)

def Event.map {δ ε : Type} (f : δ → ε) : Event δ → Event ε
  | deposit record => .deposit (f record)
  | validatorSetUpdated checkpoint nonce => .validatorSetUpdated checkpoint nonce
  | batchExecuted token nonce => .batchExecuted token nonce
  | adminChanged previous new => .adminChanged previous new
  | upgraded version => .upgraded version

def Event.fields : Event → Fields := map Deposit.fields

def Checkpoint.Admissible (c : Fields) : Prop := BridgeId.Admissible c.1

def Deposit.Admissible (d : Fields) : Prop := Destination.Admissible d.2.2.1

def Registry.Admissible (r : Fields) : Prop :=
  Checkpoint.Admissible r.1 ∧ ValidatorSet.Admissible r.2.1 ∧ PowerThreshold.Admissible r.2.2

def BridgeState.Admissible (s : Fields) : Prop := Registry.Admissible s.1

def Event.Admissible : Fields → Prop
  | .deposit record => Deposit.Admissible record
  | _ => True

theorem Checkpoint.admissible_iff (f : Fields) :
    Admissible f ↔ ∃ c : Checkpoint, c.fields = f := by
  rw [Admissible, BridgeId.admissible_iff]
  constructor
  · rintro ⟨id, h⟩
    exact ⟨⟨id, f.2.1, f.2.2⟩, Prod.ext h rfl⟩
  · rintro ⟨c, rfl⟩
    exact ⟨c.bridgeId, rfl⟩

theorem Deposit.admissible_iff (f : Fields) : Admissible f ↔ ∃ d : Deposit, d.fields = f := by
  rw [Admissible, Destination.admissible_iff]
  constructor
  · rintro ⟨destination, h⟩
    refine ⟨⟨f.1, f.2.1, destination, f.2.2.2.1, f.2.2.2.2⟩, ?_⟩
    rw [fields, h]
  · rintro ⟨d, rfl⟩
    exact ⟨d.destination, rfl⟩

theorem Registry.admissible_iff (f : Fields) : Admissible f ↔ ∃ r : Registry, r.fields = f := by
  rw [Admissible, Checkpoint.admissible_iff, ValidatorSet.admissible_iff,
    PowerThreshold.admissible_iff]
  constructor
  · rintro ⟨⟨c, hc⟩, ⟨vs, hvs⟩, t, ht⟩
    exact ⟨⟨c, vs, t⟩, Prod.ext hc (Prod.ext hvs ht)⟩
  · rintro ⟨r, rfl⟩
    exact ⟨⟨r.checkpoint, rfl⟩, ⟨r.validators, rfl⟩, r.threshold, rfl⟩

theorem BridgeState.admissible_iff (f : Fields) :
    Admissible f ↔ ∃ s : BridgeState, s.fields = f := by
  rw [Admissible, Registry.admissible_iff]
  constructor
  · rintro ⟨r, hr⟩
    exact ⟨⟨r, f.2.1, f.2.2⟩, Prod.ext hr rfl⟩
  · rintro ⟨s, rfl⟩
    exact ⟨s.registry, rfl⟩

theorem Event.admissible_iff (f : Fields) : Admissible f ↔ ∃ e : Event, e.fields = f := by
  cases f with
  | deposit record =>
    rw [Admissible, Deposit.admissible_iff]
    constructor
    · rintro ⟨d, rfl⟩
      exact ⟨.deposit d, rfl⟩
    · rintro ⟨e, he⟩
      cases e with
      | deposit d => exact ⟨d, deposit.inj he⟩
      | _ => cases he
  | validatorSetUpdated checkpoint nonce =>
    exact iff_of_true trivial ⟨.validatorSetUpdated checkpoint nonce, rfl⟩
  | batchExecuted token nonce => exact iff_of_true trivial ⟨.batchExecuted token nonce, rfl⟩
  | adminChanged previous new => exact iff_of_true trivial ⟨.adminChanged previous new, rfl⟩
  | upgraded version => exact iff_of_true trivial ⟨.upgraded version, rfl⟩

end TokenBridge
