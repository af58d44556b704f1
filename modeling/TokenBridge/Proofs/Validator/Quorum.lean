import TokenBridge.Validator.Verification

namespace TokenBridge

def Attestation.AuthenticBy (recover : Recovery) (a : Attestation) (digest : Word)
    (v : Validator) : Prop :=
  a.validator = v.address ∧ recover digest a.signature = .ok v.address

def Attestation.Authentic (a : Attestation) (digest : Word) (v : Validator) : Prop :=
  a.AuthenticBy recoverSigner digest v

namespace ValidatorSet

def filledPower : List (Validator × Option Attestation) → Nat
  | [] => 0
  | (_, none) :: rest => filledPower rest
  | (v, some _) :: rest => v.power.toNat + filledPower rest

variable (vs : ValidatorSet)

def signedPower (s : SignatureSet) : Nat := filledPower (vs.members.zip s.slots)

/-- The signatures of a set's validators over a digest that suffice to act in its name. -/
structure Quorum (threshold : PowerThreshold) (s : SignatureSet) (digest : Word) : Prop where
  size_eq : s.size = vs.size
  authentic : ∀ (i : Nat) (v : Validator) (a : Attestation), vs.members[i]? = some v →
    s.slots[i]? = some (some a) → a.Authentic digest v
  signed : 0 < s.signedCount
  power_le : threshold.basisPoints.toNat * vs.totalPower.toNat ≤ 10000 * vs.signedPower s

theorem filledPower_zip_le (members : List Validator) (slots : List (Option Attestation)) :
    filledPower (members.zip slots) ≤ Validator.totalPower members := by
  induction members generalizing slots with
  | nil => simp [filledPower]
  | cons v rest ih =>
    cases slots with
    | nil => simp [filledPower]
    | cons slot slots =>
      have := ih slots
      cases slot <;> simp only [List.zip_cons_cons, filledPower, Validator.totalPower] <;> omega

theorem filledPower_zip_of_none {slots : List (Option Attestation)}
    (h : ∀ slot ∈ slots, slot = none) (members : List Validator) :
    filledPower (members.zip slots) = 0 := by
  induction members generalizing slots with
  | nil => rfl
  | cons v rest ih =>
    cases slots with
    | nil => rfl
    | cons slot slots =>
      obtain rfl := h _ List.mem_cons_self
      exact ih fun slot hs ↦ h slot (List.mem_cons_of_mem _ hs)

theorem totalPower_pos : 0 < Validator.totalPower vs.members := by
  obtain ⟨v, rest, h⟩ := List.exists_cons_of_ne_nil vs.members_ne_nil
  have hv := vs.power_ne_zero v (h ▸ List.mem_cons_self)
  have : v.power.toNat ≠ 0 := fun h0 ↦ hv (UInt64.toNat_inj.1 h0)
  rw [h, Validator.totalPower]
  omega

variable {vs} {recover : Recovery}

theorem authenticate_eq_ok_iff {digest : Word} {index : Nat} {v : Validator} {a : Attestation} :
    vs.authenticate recover digest index v a = .ok () ↔ a.AuthenticBy recover digest v := by
  unfold authenticate Attestation.AuthenticBy
  by_cases hv : a.validator = v.address
  · cases hr : recover digest a.signature with
    | error e => simp [hv]
    | ok signer =>
      by_cases hs : signer = v.address
      · simp [hv, hs]
      · simp only [hv, hs, ne_eq, not_true_eq_false, if_false, Except.ok.injEq, and_false,
          iff_false]
        split <;> simp
  · simp [hv]

/-- The running sum does not wrap as long as the whole power fits. -/
theorem tally_eq_ok_iff {digest : Word} {index : Nat} {signed power : UInt64}
    {entries : List (Validator × Option Attestation)}
    (h : signed.toNat + filledPower entries < UInt64.size) :
    vs.tally recover digest index signed entries = .ok power ↔
      (∀ v a, (v, some a) ∈ entries → a.AuthenticBy recover digest v) ∧
        power.toNat = signed.toNat + filledPower entries := by
  induction entries generalizing index signed with
  | nil => simp [tally, filledPower, ← UInt64.toNat_inj, eq_comm]
  | cons entry rest ih =>
    obtain ⟨v, slot⟩ := entry
    cases slot with
    | none =>
      rw [tally, ih h]
      simp [filledPower]
    | some a =>
      simp only [filledPower] at h ⊢
      have hsum : (signed + v.power).toNat = signed.toNat + v.power.toNat := by
        rw [UInt64.toNat_add]
        exact Nat.mod_eq_of_lt (Nat.lt_of_le_of_lt (by omega) h)
      rw [tally]
      cases ha : vs.authenticate recover digest index v a with
      | error e =>
        have hnot : ¬ a.AuthenticBy recover digest v := by
          intro hok
          have : vs.authenticate recover digest index v a = .ok () := authenticate_eq_ok_iff.2 hok
          rw [ha] at this
          cases this
        simp only [reduceCtorEq, false_iff, not_and]
        exact fun hall ↦ absurd (hall v a List.mem_cons_self) hnot
      | ok done =>
        have hok := authenticate_eq_ok_iff.1 ha
        rw [ih (by omega), hsum, ← Nat.add_assoc]
        refine and_congr_left fun _ ↦ ⟨?_, ?_⟩
        · intro hall w b hmem
          rcases List.mem_cons.1 hmem with heq | hmem
          · cases heq
            exact hok
          · exact hall w b hmem
        · intro hall w b hmem
          exact hall w b (List.mem_cons_of_mem _ hmem)

/-- No slots can hold more power than the set has, so that the sum over them is exact. -/
theorem tally_slots_eq_ok_iff {s : SignatureSet} {digest : Word} {power : UInt64} :
    vs.tally recover digest 0 0 (vs.members.zip s.slots) = .ok power ↔
      (∀ v a, (v, some a) ∈ vs.members.zip s.slots → a.AuthenticBy recover digest v) ∧
        power.toNat = vs.signedPower s := by
  have hle := filledPower_zip_le vs.members s.slots
  have hlt := vs.power_lt
  have hfits : (0 : UInt64).toNat + filledPower (vs.members.zip s.slots) < UInt64.size := by
    rw [UInt64.toNat_zero]
    omega
  rw [tally_eq_ok_iff hfits, UInt64.toNat_zero, Nat.zero_add, signedPower]

theorem verifyBy_eq_ok_iff {threshold : PowerThreshold} {s : SignatureSet} {digest : Word}
    {power : UInt64} :
    vs.verifyBy recover threshold s digest = .ok power ↔
      s.size = vs.size ∧
        (∀ v a, (v, some a) ∈ vs.members.zip s.slots → a.AuthenticBy recover digest v) ∧
        power.toNat = vs.signedPower s ∧
        threshold.basisPoints.toNat * vs.totalPower.toNat ≤ 10000 * vs.signedPower s := by
  have htally (signed : UInt64) :
      vs.tally recover digest 0 0 (vs.members.zip s.slots) = .ok signed ↔
        (∀ v a, (v, some a) ∈ vs.members.zip s.slots → a.AuthenticBy recover digest v) ∧
          signed.toNat = vs.signedPower s := tally_slots_eq_ok_iff
  unfold verifyBy
  by_cases hsize : s.size = vs.size
  · simp only [hsize, ne_eq, not_true_eq_false, if_false, true_and]
    cases ht : vs.tally recover digest 0 0 (vs.members.zip s.slots) with
    | error e =>
      simp only [reduceCtorEq, false_iff, not_and]
      intro hall hpower
      have hok := (htally power).2 ⟨hall, hpower⟩
      rw [ht] at hok
      cases hok
    | ok signed =>
      obtain ⟨hall, hsigned⟩ := (htally signed).1 ht
      have hmet : threshold.isMet signed vs.totalPower = true ↔
          threshold.basisPoints.toNat * vs.totalPower.toNat ≤ 10000 * vs.signedPower s := by
        simp [PowerThreshold.isMet, PowerThreshold.denominator, hsigned, Nat.mul_comm]
      by_cases hm : threshold.isMet signed vs.totalPower = true
      · simp only [hm, if_true, Except.ok.injEq]
        constructor
        · rintro rfl
          exact ⟨hall, hsigned, hmet.1 hm⟩
        · rintro ⟨_, hpower, _⟩
          exact UInt64.toNat_inj.1 (hsigned.trans hpower.symm)
      · simp [hm, mt hmet.2 hm]
  · simp [hsize]

theorem verify_eq_ok_iff {threshold : PowerThreshold} {s : SignatureSet} {digest : Word}
    {power : UInt64} :
    vs.verify threshold s digest = .ok power ↔
      s.size = vs.size ∧
        (∀ v a, (v, some a) ∈ vs.members.zip s.slots → a.Authentic digest v) ∧
        power.toNat = vs.signedPower s ∧
        threshold.basisPoints.toNat * vs.totalPower.toNat ≤ 10000 * vs.signedPower s :=
  verifyBy_eq_ok_iff

theorem mem_zip_slots_iff {s : SignatureSet} {v : Validator} {a : Attestation} :
    (v, some a) ∈ vs.members.zip s.slots ↔
      ∃ i : Nat, vs.members[i]? = some v ∧ s.slots[i]? = some (some a) := by
  simp [List.mem_iff_getElem?, List.getElem?_zip_eq_some]

/-- Verification succeeds on quorums and on nothing else. -/
theorem exists_verify_eq_ok_iff {threshold : PowerThreshold} {s : SignatureSet} {digest : Word} :
    (∃ power, vs.verify threshold s digest = .ok power) ↔ vs.Quorum threshold s digest := by
  constructor
  · rintro ⟨power, h⟩
    obtain ⟨hsize, hall, _, hle⟩ := verify_eq_ok_iff.1 h
    refine ⟨hsize, fun i v a hv ha ↦ hall v a (mem_zip_slots_iff.2 ⟨i, hv, ha⟩), ?_, hle⟩
    refine Nat.pos_of_ne_zero fun hnone ↦ ?_
    have hempty : ∀ slot ∈ s.slots, slot = none := by
      simpa [SignatureSet.signedCount, List.countP_eq_zero] using hnone
    have hzero := filledPower_zip_of_none hempty vs.members
    have hpos := vs.totalPower_pos
    have hthreshold := threshold.pos
    rw [signedPower, hzero, vs.toNat_totalPower] at hle
    have := Nat.mul_pos hthreshold hpos
    omega
  · intro h
    have hle := filledPower_zip_le vs.members s.slots
    have hfits : vs.signedPower s < UInt64.size := Nat.lt_of_le_of_lt hle vs.power_lt
    refine ⟨UInt64.ofNat (vs.signedPower s), verify_eq_ok_iff.2 ⟨h.size_eq, ?_, ?_, h.power_le⟩⟩
    · intro v a hmem
      obtain ⟨i, hv, ha⟩ := mem_zip_slots_iff.1 hmem
      exact h.authentic i v a hv ha
    · exact UInt64.toNat_ofNat_of_lt' hfits

end ValidatorSet

end TokenBridge
