import Mathlib.Algebra.Order.Field.Rat
import Mathlib.Algebra.Order.Field.Basic
import Mathlib.Data.Nat.Cast.Order.Ring
import TokenBridge.Proofs.Validator.Quorum

namespace TokenBridge

/-- A share of the total is compared as it is, without rounding. -/
theorem PowerThreshold.isMet_iff_share {t : PowerThreshold} {signed total : UInt64}
    (htotal : 0 < total.toNat) :
    t.isMet signed total = true ↔
      (t.basisPoints.toNat : ℚ) / 10000 ≤ (signed.toNat : ℚ) / (total.toNat : ℚ) := by
  have htotal' : (0 : ℚ) < (total.toNat : ℚ) := Nat.cast_pos.2 htotal
  have hdenominator : (0 : ℚ) < 10000 := by norm_num
  rw [div_le_div_iff₀ hdenominator htotal', isMet, decide_eq_true_eq, denominator, Nat.mul_comm]
  exact_mod_cast Iff.rfl

namespace ValidatorSet

def Filled (vs : ValidatorSet) (s : SignatureSet) (i : Nat) (v : Validator) (a : Attestation) :
    Prop :=
  vs.members[i]? = some v ∧ s.slots[i]? = some (some a)

inductive Fault (recover : Recovery) (vs : ValidatorSet) (digest : Word) (i : Nat) (v : Validator)
    (a : Attestation) : QuorumError → Prop
  | misplaced (claimed : a.validator ≠ v.address) :
      Fault recover vs digest i v a (.orderMismatch i v.address a.validator)
  | malformed {cause : RecoveryError} (claimed : a.validator = v.address)
      (refused : recover digest a.signature = .error cause) :
      Fault recover vs digest i v a (.malformedSignature i cause)
  | swapped {signer : Address} (claimed : a.validator = v.address)
      (signed : recover digest a.signature = .ok signer) (other : signer ≠ v.address)
      (member : signer ∈ vs.addresses) :
      Fault recover vs digest i v a (.orderMismatch i v.address signer)
  | foreign {signer : Address} (claimed : a.validator = v.address)
      (signed : recover digest a.signature = .ok signer) (other : signer ≠ v.address)
      (stranger : signer ∉ vs.addresses) :
      Fault recover vs digest i v a (.invalidSignature i)

/-- What becomes of signatures: they do not fit the set, or the first that is faulty is reported, or
the share of the power behind them decides. -/
inductive Verdict (recover : Recovery) (vs : ValidatorSet) (threshold : PowerThreshold)
    (s : SignatureSet) (digest : Word) : Except QuorumError UInt64 → Prop
  | mismatch (size_ne : s.size ≠ vs.size) :
      Verdict recover vs threshold s digest (.error (.lengthMismatch s.size vs.size))
  | faulty {i : Nat} {v : Validator} {a : Attestation} {e : QuorumError}
      (size_eq : s.size = vs.size) (filled : vs.Filled s i v a)
      (first : ∀ j < i, ∀ w b, vs.Filled s j w b → b.AuthenticBy recover digest w)
      (fault : Fault recover vs digest i v a e) :
      Verdict recover vs threshold s digest (.error e)
  | sufficient {signed : UInt64} (size_eq : s.size = vs.size)
      (authentic : ∀ i v a, vs.Filled s i v a → a.AuthenticBy recover digest v)
      (signed_eq : signed.toNat = vs.signedPower s)
      (share : (threshold.basisPoints.toNat : ℚ) / 10000 ≤
        (vs.signedPower s : ℚ) / (Validator.totalPower vs.members : ℚ)) :
      Verdict recover vs threshold s digest (.ok signed)
  | insufficient {signed total : UInt64} (size_eq : s.size = vs.size)
      (authentic : ∀ i v a, vs.Filled s i v a → a.AuthenticBy recover digest v)
      (signed_eq : signed.toNat = vs.signedPower s)
      (total_eq : total.toNat = Validator.totalPower vs.members)
      (share : (vs.signedPower s : ℚ) / (Validator.totalPower vs.members : ℚ) <
        (threshold.basisPoints.toNat : ℚ) / 10000) :
      Verdict recover vs threshold s digest
        (.error (.insufficientPower signed total threshold.basisPoints))

variable {vs : ValidatorSet} {recover : Recovery} {digest : Word} {e : QuorumError}

theorem contains_iff_mem {a : Address} : vs.contains a = true ↔ a ∈ vs.addresses := by
  simp [contains, positionOf?, addresses, List.findIdx?_isSome]

theorem authenticate_eq_error_iff {i : Nat} {v : Validator} {a : Attestation} :
    vs.authenticate recover digest i v a = .error e ↔ Fault recover vs digest i v a e := by
  unfold authenticate
  constructor
  · intro h
    split at h
    · rename_i claimed
      cases h
      exact .misplaced claimed
    · rename_i claimed
      have claimed := not_not.1 claimed
      split at h
      · rename_i refused
        cases h
        exact .malformed claimed refused
      · rename_i signed
        split at h
        · cases h
        · rename_i other
          split at h
          · rename_i member
            cases h
            exact .swapped claimed signed other (contains_iff_mem.1 member)
          · rename_i stranger
            cases h
            exact .foreign claimed signed other (mt contains_iff_mem.2 stranger)
  · intro h
    cases h with
    | misplaced claimed => rw [if_pos claimed]
    | malformed claimed refused => rw [if_neg (not_not.2 claimed), refused]
    | swapped claimed signed other member =>
      simp [claimed, signed, other, contains_iff_mem.2 member]
    | foreign claimed signed other stranger =>
      have stranger : vs.contains _ = false := Bool.eq_false_iff.2 (mt contains_iff_mem.1 stranger)
      simp [claimed, signed, other, stranger]

theorem Fault.not_authentic {i : Nat} {v : Validator} {a : Attestation}
    (h : Fault recover vs digest i v a e) : ¬ a.AuthenticBy recover digest v := by
  rintro ⟨named, told⟩
  cases h with
  | misplaced claimed => exact claimed named
  | malformed _ refused =>
    rw [told] at refused
    cases refused
  | swapped _ signed other =>
    rw [told] at signed
    exact other (Except.ok.inj signed).symm
  | foreign _ signed other =>
    rw [told] at signed
    exact other (Except.ok.inj signed).symm

def FirstFault (recover : Recovery) (vs : ValidatorSet) (digest : Word) (index : Nat)
    (entries : List (Validator × Option Attestation)) (e : QuorumError) : Prop :=
  ∃ i v a, entries[i]? = some (v, some a) ∧
    (∀ j < i, ∀ w b, entries[j]? = some (w, some b) → b.AuthenticBy recover digest w) ∧
    Fault recover vs digest (index + i) v a e

theorem firstFault_cons {index : Nat} {v : Validator} {slot : Option Attestation}
    {rest : List (Validator × Option Attestation)} :
    FirstFault recover vs digest index ((v, slot) :: rest) e ↔
      (∃ a, slot = some a ∧ Fault recover vs digest index v a e) ∨
        (∀ a, slot = some a → a.AuthenticBy recover digest v) ∧
          FirstFault recover vs digest (index + 1) rest e := by
  constructor
  · rintro ⟨_ | i, w, b, hi, hbefore, hfault⟩
    · cases hi
      exact .inl ⟨b, rfl, hfault⟩
    · refine .inr ⟨fun a ha ↦ hbefore 0 (by omega) v a (by rw [ha]; rfl), i, w, b, hi,
        fun j hj ↦ hbefore (j + 1) (by omega), ?_⟩
      rwa [Nat.add_right_comm]
  · rintro (⟨a, rfl, hfault⟩ | ⟨hhead, i, w, b, hi, hbefore, hfault⟩)
    · exact ⟨0, v, a, rfl, nofun, hfault⟩
    · refine ⟨i + 1, w, b, hi, ?_, by rwa [Nat.add_right_comm] at hfault⟩
      rintro (_ | j) hj w' b' h'
      · cases h'
        exact hhead b' rfl
      · exact hbefore j (by omega) w' b' h'

theorem tally_eq_error_iff {index : Nat} {signed : UInt64}
    {entries : List (Validator × Option Attestation)} :
    vs.tally recover digest index signed entries = .error e ↔
      FirstFault recover vs digest index entries e := by
  induction entries generalizing index signed with
  | nil => simp [tally, FirstFault]
  | cons entry rest ih =>
    obtain ⟨v, slot⟩ := entry
    rw [firstFault_cons]
    cases slot with
    | none =>
      rw [tally, ih]
      simp
    | some a =>
      rw [tally]
      cases ha : vs.authenticate recover digest index v a with
      | ok done =>
        have authentic := authenticate_eq_ok_iff.1 ha
        have faultless : ¬ Fault recover vs digest index v a e := fun h ↦ h.not_authentic authentic
        rw [ih]
        simp [authentic, faultless]
      | error cause =>
        have fault := authenticate_eq_error_iff.1 ha
        have reported : cause = e ↔ Fault recover vs digest index v a e := by
          rw [← authenticate_eq_error_iff, ha, Except.error.injEq]
        simp [fault.not_authentic, reported]

/-- The tally over a whole set stops at the slot where it first comes upon a fault. -/
theorem tally_slots_eq_error_iff {s : SignatureSet} :
    vs.tally recover digest 0 0 (vs.members.zip s.slots) = .error e ↔
      ∃ i v a, vs.Filled s i v a ∧
        (∀ j < i, ∀ w b, vs.Filled s j w b → b.AuthenticBy recover digest w) ∧
        Fault recover vs digest i v a e := by
  rw [tally_eq_error_iff]
  simp only [FirstFault, List.getElem?_zip_eq_some, Filled, Nat.zero_add]

theorem authentic_slots_iff {s : SignatureSet} :
    (∀ v a, (v, some a) ∈ vs.members.zip s.slots → a.AuthenticBy recover digest v) ↔
      ∀ i v a, vs.Filled s i v a → a.AuthenticBy recover digest v := by
  constructor
  · intro h i v a filled
    exact h v a (mem_zip_slots_iff.2 ⟨i, filled⟩)
  · intro h v a hmem
    obtain ⟨i, filled⟩ := mem_zip_slots_iff.1 hmem
    exact h i v a filled

theorem filledPower_append (first second : List (Validator × Option Attestation)) :
    filledPower (first ++ second) = filledPower first + filledPower second := by
  induction first with
  | nil => rw [List.nil_append, filledPower, Nat.zero_add]
  | cons entry rest ih =>
    obtain ⟨v, _ | a⟩ := entry
    · rw [List.cons_append, filledPower, filledPower, ih]
    · rw [List.cons_append, filledPower, filledPower, ih, Nat.add_assoc]

/-- However large the powers, there is room for the next one wherever the tally has got to. -/
theorem tally_has_room {s : SignatureSet} {before rest : List (Validator × Option Attestation)}
    {v : Validator} {a : Attestation} {signed : UInt64}
    (hsplit : vs.members.zip s.slots = before ++ (v, some a) :: rest)
    (h : vs.tally recover digest 0 0 before = .ok signed) :
    signed.toNat + v.power.toNat < UInt64.size := by
  have hle := filledPower_zip_le vs.members s.slots
  have hlt := vs.power_lt
  rw [hsplit, filledPower_append, filledPower] at hle
  have hfits : (0 : UInt64).toNat + filledPower before < UInt64.size := by
    rw [UInt64.toNat_zero]
    omega
  have hsigned := ((tally_eq_ok_iff hfits).1 h).2
  rw [UInt64.toNat_zero] at hsigned
  omega

theorem isMet_totalPower_iff {threshold : PowerThreshold} {s : SignatureSet} {signed : UInt64}
    (hsigned : signed.toNat = vs.signedPower s) :
    threshold.isMet signed vs.totalPower = true ↔
      (threshold.basisPoints.toNat : ℚ) / 10000 ≤
        (vs.signedPower s : ℚ) / (Validator.totalPower vs.members : ℚ) := by
  have htotal : 0 < vs.totalPower.toNat := by
    rw [vs.toNat_totalPower]
    exact vs.totalPower_pos
  rw [PowerThreshold.isMet_iff_share htotal, hsigned, vs.toNat_totalPower]

theorem verdict_verifyBy {threshold : PowerThreshold} {s : SignatureSet} :
    Verdict recover vs threshold s digest (vs.verifyBy recover threshold s digest) := by
  unfold verifyBy
  by_cases hsize : s.size = vs.size
  · rw [if_neg (not_not.2 hsize)]
    cases ht : vs.tally recover digest 0 0 (vs.members.zip s.slots) with
    | error e =>
      obtain ⟨i, v, a, filled, first, fault⟩ := tally_slots_eq_error_iff.1 ht
      exact .faulty hsize filled first fault
    | ok signed =>
      obtain ⟨hall, hsigned⟩ := tally_slots_eq_ok_iff.1 ht
      have authentic := authentic_slots_iff.1 hall
      have hshare : threshold.isMet signed vs.totalPower = true ↔ _ := isMet_totalPower_iff hsigned
      dsimp only
      split
      · rename_i met
        exact .sufficient hsize authentic hsigned (hshare.1 met)
      · rename_i unmet
        exact .insufficient hsize authentic hsigned vs.toNat_totalPower
          (not_le.1 (mt hshare.2 unmet))
  · rw [if_pos hsize]
    exact .mismatch hsize

theorem Verdict.verifyBy_eq {threshold : PowerThreshold} {s : SignatureSet}
    {outcome : Except QuorumError UInt64} (h : Verdict recover vs threshold s digest outcome) :
    vs.verifyBy recover threshold s digest = outcome := by
  unfold verifyBy
  cases h with
  | mismatch size_ne => rw [if_pos size_ne]
  | faulty size_eq filled first fault =>
    rw [if_neg (not_not.2 size_eq), tally_slots_eq_error_iff.2 ⟨_, _, _, filled, first, fault⟩]
  | sufficient size_eq authentic signed_eq share =>
    rw [if_neg (not_not.2 size_eq),
      tally_slots_eq_ok_iff.2 ⟨authentic_slots_iff.2 authentic, signed_eq⟩]
    exact if_pos ((isMet_totalPower_iff signed_eq).2 share)
  | @insufficient signed total size_eq authentic signed_eq total_eq share =>
    have htotal : vs.totalPower = total :=
      UInt64.toNat_inj.1 (vs.toNat_totalPower.trans total_eq.symm)
    rw [if_neg (not_not.2 size_eq),
      tally_slots_eq_ok_iff.2 ⟨authentic_slots_iff.2 authentic, signed_eq⟩, ← htotal]
    exact if_neg (mt (isMet_totalPower_iff signed_eq).1 (not_le.2 share))

/-- Verification comes to what the verdict says and to nothing else, whatever way there is to tell
signers. The sum it keeps and the products it compares are never too large for the words of 64 and
128 bits that they are kept in. -/
theorem verification_exact (recover : Recovery) (vs : ValidatorSet) (threshold : PowerThreshold)
    (s : SignatureSet) (digest : Word) :
    (∀ outcome, vs.verifyBy recover threshold s digest = outcome ↔
      Verdict recover vs threshold s digest outcome) ∧
    (∀ before v a rest signed, vs.members.zip s.slots = before ++ (v, some a) :: rest →
      vs.tally recover digest 0 0 before = .ok signed →
        signed.toNat + v.power.toNat < 2 ^ 64) ∧
    ∀ signed total : UInt64, signed.toNat * PowerThreshold.denominator < 2 ^ 128 ∧
      total.toNat * threshold.basisPoints.toNat < 2 ^ 128 := by
  refine ⟨fun outcome ↦ ⟨?_, Verdict.verifyBy_eq⟩, ?_, ?_⟩
  · rintro rfl
    exact verdict_verifyBy
  · intro before v a rest signed hsplit h
    exact tally_has_room hsplit h
  · intro signed total
    have hsigned := signed.toNat_lt
    have htotal := total.toNat_lt
    constructor
    · rw [PowerThreshold.denominator]
      omega
    · calc total.toNat * threshold.basisPoints.toNat
          ≤ total.toNat * 10000 := Nat.mul_le_mul_left _ threshold.le_denominator
        _ < 2 ^ 128 := by omega

def numberedSigner : Recovery := fun _ signature ↦ .ok (FixedBytes.ofNat 20 signature.v.toNat)

def numbered (n : UInt8) : Attestation :=
  ⟨FixedBytes.ofNat 20 n.toNat, ⟨FixedBytes.zero 32, FixedBytes.zero 32, n⟩⟩

def lopsided : ValidatorSet where
  members := [⟨FixedBytes.ofNat 20 1, 18446744073709551614⟩, ⟨FixedBytes.ofNat 20 2, 1⟩]
  totalPower := 18446744073709551615
  members_ne_nil := by decide
  address_ne_zero := by decide
  power_ne_zero := by decide
  nodup := by decide
  toNat_totalPower := by decide

theorem verification_exact_lopsided :
    let all : PowerThreshold := ⟨10000, by decide, by decide⟩
    let digest := FixedBytes.zero 32
    Verdict numberedSigner lopsided all ⟨[some (numbered 1), some (numbered 2)]⟩ digest
      (.ok 18446744073709551615) ∧
    (18446744073709551614 : UInt64).toNat + (1 : UInt64).toNat < 2 ^ 64 ∧
    Verdict numberedSigner lopsided all ⟨[none, some (numbered 1)]⟩ digest
      (.error (.orderMismatch 1 (FixedBytes.ofNat 20 2) (FixedBytes.ofNat 20 1))) := by
  intro all digest
  obtain ⟨signed, room, -⟩ := verification_exact numberedSigner lopsided all
    ⟨[some (numbered 1), some (numbered 2)]⟩ digest
  obtain ⟨misplaced, -⟩ := verification_exact numberedSigner lopsided all
    ⟨[none, some (numbered 1)]⟩ digest
  refine ⟨(signed _).1 rfl, ?_, (misplaced _).1 rfl⟩
  exact room [(⟨FixedBytes.ofNat 20 1, 18446744073709551614⟩, some (numbered 1))]
    ⟨FixedBytes.ofNat 20 2, 1⟩ (numbered 2) [] 18446744073709551614 rfl rfl

end ValidatorSet

end TokenBridge
