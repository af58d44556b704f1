import Mathlib.Algebra.BigOperators.Intervals
import TokenBridge.Proofs.Validator.Arrangement
import TokenBridge.Validator.KeyRing

namespace TokenBridge

open Secp256k1 (Scalar)

namespace Secp256k1

/-- What is asked of the curve for a key and a digest: that the key can sign it, with a recovery
id of zero or one (the `x` of the nonce point was not reduced), and that the public key comes back
from the signature. -/
def Recoverable (key : Scalar) (digest : Word) : Prop :=
  ∃ sig, sign? key digest = some sig ∧ sig.overflowed = false ∧
    recoverKey? digest sig.r sig.s sig.odd = (generator.multiply key).toPoint?

instance (key : Scalar) (digest : Word) : Decidable (Recoverable key digest) :=
  decidable_of_iff
    ((sign? key digest).any fun sig ↦ !sig.overflowed &&
      decide (recoverKey? digest sig.r sig.s sig.odd = (generator.multiply key).toPoint?))
    (by simp [Recoverable, Option.any_eq_true])

theorem reduced?_toNat_ofNat (x : Scalar) :
    reduced? groupOrder (FixedBytes.ofNat 32 x.val).toNat = some x := by
  have hfits : x.val < Bytes.count 32 := Nat.lt_of_lt_of_le x.isLt (by decide)
  rw [FixedBytes.toNat_ofNat hfits, reduced?, dif_pos x.isLt]

end Secp256k1

/-- The two forms of `v` agree: what is added for the recovery id is taken off again. -/
theorem Signature.recoveryId_of_odd (r s : Word) (odd : Bool) :
    recoveryId ⟨r, s, 27 + (if odd then 1 else 0) + (if false then 2 else 0)⟩ =
      .ok (if odd then 1 else 0) := by
  cases odd <;> rfl

theorem exists_sign?_of_recoverable {key : Scalar} {digest : Word} {a : Address}
    (h : Secp256k1.Recoverable key digest) (known : Address.ofSecret? key = some a) :
    ∃ sig, Signature.sign? key digest = some sig ∧ recoverSigner digest sig = .ok a := by
  obtain ⟨sig, signed, whole, recovered⟩ := h
  obtain ⟨point, hpoint, rfl⟩ := Option.map_eq_some_iff.1 known
  refine ⟨_, by rw [Signature.sign?, signed, Option.map_some], ?_⟩
  have hodd : decide ((if sig.odd then 1 else 0 : Fin 2) = 1) = sig.odd := by
    cases sig.odd <;> rfl
  simp only [whole, recoverSigner, Signature.recoveryId_of_odd, Secp256k1.reduced?_toNat_ofNat,
    bind, Except.bind, hodd, recovered, hpoint]

namespace ValidatorSet

variable {vs : ValidatorSet} {s : SignatureSet} {recover : Recovery} {digest : Word}

theorem toNat_ofNat_signedPower : (UInt64.ofNat (vs.signedPower s)).toNat = vs.signedPower s :=
  UInt64.toNat_ofNat_of_lt' (Nat.lt_of_le_of_lt (filledPower_zip_le _ _) vs.power_lt)

/-- Where every signature is of the validator of its slot, all turns on their power. -/
theorem verifyBy_of_authentic {threshold : PowerThreshold} {signed : UInt64}
    (size_eq : s.size = vs.size)
    (authentic : ∀ i v a, vs.Filled s i v a → a.AuthenticBy recover digest v)
    (signed_eq : signed.toNat = vs.signedPower s) :
    vs.verifyBy recover threshold s digest =
      if threshold.basisPoints.toNat * vs.totalPower.toNat ≤ 10000 * signed.toNat then .ok signed
      else .error (.insufficientPower signed vs.totalPower threshold.basisPoints) := by
  have counted : vs.tally recover digest 0 0 (vs.members.zip s.slots) = .ok signed :=
    tally_slots_eq_ok_iff.2 ⟨authentic_slots_iff.2 authentic, signed_eq⟩
  rw [verifyBy, if_neg (not_not.2 size_eq), counted]
  simp only [PowerThreshold.isMet, PowerThreshold.denominator, decide_eq_true_eq, Nat.mul_comm]

theorem totalPower_eq_sum_range (members : List Validator) :
    Validator.totalPower members =
      ∑ i ∈ Finset.range members.length, ((members.map Validator.power).getD i 0).toNat := by
  induction members with
  | nil => rfl
  | cons v rest ih =>
    rw [List.length_cons, Finset.sum_range_succ', Validator.totalPower, ih, Nat.add_comm]
    rfl

/-- The power of the filled slots, taken slot by slot. -/
theorem filledPower_zip_eq_sum (members : List Validator) (slots : List (Option Attestation)) :
    filledPower (members.zip slots) =
      ∑ i ∈ Finset.range members.length with (slots[i]?.join).isSome,
        ((members.map Validator.power).getD i 0).toNat := by
  rw [Finset.sum_filter]
  induction members generalizing slots with
  | nil => rfl
  | cons v rest ih =>
    cases slots with
    | nil => simp [filledPower]
    | cons slot slots =>
      have hrest := ih slots
      rw [List.length_cons, Finset.sum_range_succ']
      cases slot with
      | none => simpa [filledPower] using hrest
      | some a => simpa [filledPower, Nat.add_comm] using hrest

end ValidatorSet

namespace KeyRing

variable {ring : KeyRing} {offset : Nat} {powers : List UInt64} {digest : Word}
  {signers : List Nat}

structure BuiltFrom (ring : KeyRing) (offset : Nat) (powers : List UInt64) : Prop where
  keys_eq : ring.keys = (List.range powers.length).map fun i ↦ key (offset + i)
  accounts : ring.keys.map Address.ofSecret? = ring.set.addresses.map some
  powers_eq : ring.set.powers = powers

theorem map_eq_of_mapM_eq_some {α β : Type} {f : α → Option β} {as : List α} {bs : List β}
    (h : as.mapM f = some bs) : as.map f = bs.map some := by
  induction as generalizing bs with
  | nil =>
    cases h
    rfl
  | cons a as ih =>
    rw [List.mapM_cons] at h
    obtain ⟨b, hb, h⟩ := Option.bind_eq_some_iff.1 h
    obtain ⟨rest, hrest, h⟩ := Option.bind_eq_some_iff.1 h
    cases h
    rw [List.map_cons, List.map_cons, hb, ih hrest]

theorem builtFrom_of_ofPowers? (built : ofPowers? offset powers = some ring) :
    ring.BuiltFrom offset powers := by
  obtain ⟨addresses, accounts, h⟩ := Option.bind_eq_some_iff.1 built
  split at h
  · rename_i set parts
    cases h
    obtain ⟨haddresses, hpowers⟩ := ValidatorSet.parts_of_ok parts
    exact ⟨rfl, haddresses ▸ map_eq_of_mapM_eq_some accounts, hpowers⟩
  · cases h

theorem BuiltFrom.length_keys (h : ring.BuiltFrom offset powers) :
    ring.keys.length = powers.length := by
  rw [h.keys_eq, List.length_map, List.length_range]

theorem BuiltFrom.size_set (h : ring.BuiltFrom offset powers) : ring.set.size = powers.length := by
  rw [← h.powers_eq, ValidatorSet.powers, List.length_map, ValidatorSet.size]

theorem attest?_eq_some {i : Nat} {secret : Scalar} {v : Validator} {sig : Signature}
    (hkey : ring.keys[i]? = some secret) (hv : ring.set.members[i]? = some v)
    (signed : Signature.sign? secret digest = some sig) :
    ring.attest? digest i = some ⟨v.address, sig⟩ := by
  -- Step by step: after a `simp` the kernel would set about running `sign?`.
  refine Option.bind_eq_some_iff.2 ⟨secret, hkey, ?_⟩
  refine Option.bind_eq_some_iff.2 ⟨v, hv, ?_⟩
  exact Option.bind_eq_some_iff.2 ⟨sig, signed, rfl⟩

/-- With the assumption on the curve, a validator's slot is filled with a signature of its own. -/
theorem BuiltFrom.attest?_of_recoverable (h : ring.BuiltFrom offset powers) {i : Nat}
    (hi : i < powers.length) (recoverable : Secp256k1.Recoverable (key (offset + i)) digest) :
    ∃ v a, ring.set.members[i]? = some v ∧ ring.attest? digest i = some a ∧
      a.AuthenticBy recoverSigner digest v := by
  have hkey : ring.keys[i]? = some (key (offset + i)) := by
    rw [h.keys_eq, List.getElem?_map, List.getElem?_range hi, Option.map_some]
  have hmember : i < ring.set.members.length := Nat.lt_of_lt_of_eq hi h.size_set.symm
  obtain ⟨v, hv⟩ : ∃ v, ring.set.members[i]? = some v := ⟨_, List.getElem?_eq_getElem hmember⟩
  have known : Address.ofSecret? (key (offset + i)) = some v.address := by
    have haccount : ring.keys[i]?.map Address.ofSecret? = ring.set.addresses[i]?.map some := by
      rw [← List.getElem?_map, h.accounts, List.getElem?_map]
    rw [hkey, ValidatorSet.addresses, List.getElem?_map, hv] at haccount
    exact Option.some.inj haccount
  obtain ⟨sig, signed, recovered⟩ := exists_sign?_of_recoverable recoverable known
  exact ⟨v, ⟨v.address, sig⟩, hv, attest?_eq_some hkey hv signed, rfl, recovered⟩

def signedBy (ring : KeyRing) (digest : Word) (signers : List Nat) : SignatureSet :=
  ⟨(List.range ring.keys.length).map fun i ↦ if i ∈ signers then ring.attest? digest i else none⟩

theorem size_signedBy : (ring.signedBy digest signers).size = ring.keys.length := by
  rw [SignatureSet.size, signedBy, List.length_map, List.length_range]

theorem slots_signedBy {i : Nat} (hi : i < ring.keys.length) :
    (ring.signedBy digest signers).slots[i]? =
      some (if i ∈ signers then ring.attest? digest i else none) := by
  rw [signedBy, List.getElem?_map, List.getElem?_range hi, Option.map_some]

theorem lt_of_attest? {i : Nat} {a : Attestation} (h : ring.attest? digest i = some a) :
    i < ring.keys.length := by
  obtain ⟨_, hkey, _⟩ := Option.bind_eq_some_iff.1 h
  exact (List.getElem?_eq_some_iff.1 hkey).1

/-- Listing a validator once more fills its slot, or fills it again with the same. -/
theorem insert_signedBy {i : Nat} {a : Attestation} (h : ring.attest? digest i = some a) :
    (ring.signedBy digest signers).insert i a = ring.signedBy digest (signers ++ [i]) := by
  have hi : i < (ring.signedBy digest signers).slots.length :=
    Nat.lt_of_lt_of_eq (lt_of_attest? h) size_signedBy.symm
  apply SignatureSet.ext_slots
  intro j
  rw [SignatureSet.slots_insert hi, List.getElem?_set, if_pos hi]
  by_cases hj : j < ring.keys.length
  · rw [slots_signedBy hj, slots_signedBy hj]
    by_cases hij : i = j
    · subst hij
      rw [if_pos rfl, if_pos (by simp), h]
    · simp [hij, Ne.symm hij]
  · have hij : i ≠ j := fun heq ↦ hj (heq ▸ lt_of_attest? h)
    have hout (listed : List Nat) : (ring.signedBy digest listed).slots.length ≤ j :=
      Nat.le_trans (Nat.le_of_eq size_signedBy) (Nat.le_of_not_lt hj)
    rw [if_neg hij, List.getElem?_eq_none (hout _), List.getElem?_eq_none (hout _)]

theorem signedBy_nil : ring.signedBy digest [] = SignatureSet.abstaining ring.keys.length := by
  simp [signedBy, SignatureSet.abstaining]

theorem sign?_eq (h : ∀ i ∈ signers, ∃ a, ring.attest? digest i = some a) :
    ring.sign? digest signers = some (ring.signedBy digest signers) := by
  induction signers using List.reverseRecOn with
  | nil => rw [signedBy_nil, sign?, List.foldlM_nil, Option.pure_def]
  | append_singleton signers i ih =>
    obtain ⟨a, ha⟩ := h i (by simp)
    have before := ih fun j hj ↦ h j (List.mem_append_left _ hj)
    rw [sign?] at before
    rw [sign?, List.foldlM_append, before, ← insert_signedBy ha]
    simp [ha]

theorem exists_slot_signedBy_iff (able : ∀ i ∈ signers, ∃ a, ring.attest? digest i = some a)
    {i : Nat} : (∃ a, (ring.signedBy digest signers).slots[i]? = some (some a)) ↔ i ∈ signers := by
  constructor
  · intro h
    obtain ⟨a, ha⟩ := h
    have hi : i < ring.keys.length :=
      Nat.lt_of_lt_of_eq (List.getElem?_eq_some_iff.1 ha).1 size_signedBy
    rw [slots_signedBy hi] at ha
    by_contra absent
    rw [if_neg absent] at ha
    cases ha
  · intro listed
    obtain ⟨a, ha⟩ := able i listed
    exact ⟨a, by rw [slots_signedBy (lt_of_attest? ha), if_pos listed, ha]⟩

theorem BuiltFrom.signedPower_signedBy (h : ring.BuiltFrom offset powers)
    (able : ∀ i ∈ signers, ∃ a, ring.attest? digest i = some a) :
    ring.set.signedPower (ring.signedBy digest signers) =
      ∑ i ∈ signers.toFinset, (powers.getD i 0).toNat := by
  rw [ValidatorSet.signedPower, ValidatorSet.filledPower_zip_eq_sum]
  have hpowers : ring.set.members.map Validator.power = powers := h.powers_eq
  have hsize : ring.set.members.length = powers.length := h.size_set
  rw [hpowers, hsize]
  congr 1
  ext i
  have hfilled : ((ring.signedBy digest signers).slots[i]?.join).isSome ↔ i ∈ signers := by
    rw [← exists_slot_signedBy_iff able, Option.isSome_iff_exists]
    simp only [Option.join_eq_some_iff]
  rw [Finset.mem_filter, Finset.mem_range, hfilled, List.mem_toFinset]
  refine and_iff_right_of_imp fun listed ↦ ?_
  obtain ⟨a, ha⟩ := able i listed
  exact h.length_keys ▸ lt_of_attest? ha

theorem BuiltFrom.authentic_signedBy (h : ring.BuiltFrom offset powers)
    (listed : ∀ i ∈ signers, i < powers.length)
    (recoverable : ∀ i ∈ signers, Secp256k1.Recoverable (key (offset + i)) digest) :
    (∀ i ∈ signers, ∃ a, ring.attest? digest i = some a) ∧
      ∀ i v a, ring.set.Filled (ring.signedBy digest signers) i v a →
        a.AuthenticBy recoverSigner digest v := by
  have attested (i : Nat) (hi : i ∈ signers) :=
    h.attest?_of_recoverable (listed i hi) (recoverable i hi)
  have able : ∀ i ∈ signers, ∃ a, ring.attest? digest i = some a := by
    intro i hi
    obtain ⟨_, a, _, ha, _⟩ := attested i hi
    exact ⟨a, ha⟩
  refine ⟨able, ?_⟩
  intro i v a ⟨hv, hslot⟩
  have hi : i ∈ signers := (exists_slot_signedBy_iff able).1 ⟨a, hslot⟩
  obtain ⟨w, b, hw, hb, authentic⟩ := attested i hi
  rw [slots_signedBy (lt_of_attest? hb), if_pos hi, hb] at hslot
  obtain rfl := Option.some.inj (Option.some.inj hslot)
  obtain rfl := Option.some.inj (hw.symm.trans hv)
  exact authentic

/-- What the listed validators sign: their slots are filled and no others, and what comes of
verification turns on their power, each counted once. -/
structure Signed (ring : KeyRing) (digest : Word) (threshold : PowerThreshold)
    (signers : List Nat) (s : SignatureSet) (power : UInt64) : Prop where
  signed : ring.sign? digest signers = some s
  size_eq : s.size = ring.set.size
  filled_iff (i : Nat) : (∃ a, s.slots[i]? = some (some a)) ↔ i ∈ signers
  power_eq : power.toNat = ∑ i ∈ signers.toFinset, (ring.set.powers.getD i 0).toNat
  verdict : ring.set.verify threshold s digest =
    if threshold.basisPoints.toNat * ring.set.totalPower.toNat ≤ 10000 * power.toNat then .ok power
    else .error (.insufficientPower power ring.set.totalPower threshold.basisPoints)

theorem BuiltFrom.exists_signed (h : ring.BuiltFrom offset powers) (threshold : PowerThreshold)
    (listed : ∀ i ∈ signers, i < powers.length)
    (recoverable : ∀ i ∈ signers, Secp256k1.Recoverable (key (offset + i)) digest) :
    ∃ s power, ring.Signed digest threshold signers s power := by
  obtain ⟨able, authentic⟩ := h.authentic_signedBy listed recoverable
  have hsize : (ring.signedBy digest signers).size = ring.set.size :=
    size_signedBy.trans (h.length_keys.trans h.size_set.symm)
  have hpower : (UInt64.ofNat (ring.set.signedPower (ring.signedBy digest signers))).toNat =
      ring.set.signedPower (ring.signedBy digest signers) := ValidatorSet.toNat_ofNat_signedPower
  refine ⟨ring.signedBy digest signers, _, sign?_eq able, hsize, ?_, ?_,
    ValidatorSet.verifyBy_of_authentic hsize authentic hpower⟩
  · intro i
    exact exists_slot_signedBy_iff able
  · rw [hpower, h.signedPower_signedBy able, h.powers_eq]

theorem Signed.verify_of_all {threshold : PowerThreshold} {s : SignatureSet} {power : UInt64}
    (h : ring.Signed digest threshold (List.range ring.set.size) s power) :
    ring.set.verify threshold s digest = .ok ring.set.totalPower := by
  have hwhole : power = ring.set.totalPower := by
    rw [← UInt64.toNat_inj, h.power_eq, ring.set.toNat_totalPower,
      ValidatorSet.totalPower_eq_sum_range, List.toFinset_range]
    rfl
  have hmet : threshold.basisPoints.toNat * ring.set.totalPower.toNat ≤
      10000 * ring.set.totalPower.toNat := Nat.mul_le_mul_right _ threshold.le_denominator
  rw [h.verdict, hwhole, if_pos hmet]

theorem Signed.verify_ne_of_none {threshold : PowerThreshold} {s : SignatureSet} {power : UInt64}
    (h : ring.Signed digest threshold [] s power) (accepted : UInt64) :
    ring.set.verify threshold s digest ≠ .ok accepted := by
  have hnothing : power.toNat = 0 := h.power_eq
  have htotal : 0 < ring.set.totalPower.toNat := ring.set.toNat_totalPower ▸ ring.set.totalPower_pos
  have hshort :
      ¬ threshold.basisPoints.toNat * ring.set.totalPower.toNat ≤ 10000 * power.toNat := by
    rw [hnothing]
    exact Nat.not_le.2 (Nat.mul_pos threshold.pos htotal)
  rw [h.verdict, if_neg hshort]
  nofun

/-- Whatever validators of a ring sign, in whatever order and however often, verification finds the
power of those that did. With all of them it is always enough, and with none it never is. -/
theorem signing_exact (built : ofPowers? offset powers = some ring) (digest : Word)
    (threshold : PowerThreshold) :
    ring.set.powers = powers ∧
    (∀ signers : List Nat, (∀ i ∈ signers, i < powers.length) →
      (∀ i ∈ signers, Secp256k1.Recoverable (key (offset + i)) digest) →
      ∃ s power, ring.Signed digest threshold signers s power) ∧
    ((∀ i < powers.length, Secp256k1.Recoverable (key (offset + i)) digest) →
      ∃ s, ring.signAll? digest = some s ∧
        ring.set.verify threshold s digest = .ok ring.set.totalPower) ∧
    ∃ s, ring.sign? digest [] = some s ∧
      ∀ power, ring.set.verify threshold s digest ≠ .ok power := by
  have h := builtFrom_of_ofPowers? built
  refine ⟨h.powers_eq, ?_, ?_, ?_⟩
  · intro signers listed recoverable
    exact h.exists_signed threshold listed recoverable
  · intro recoverable
    have listed : ∀ i ∈ List.range ring.set.size, i < powers.length := by
      intro i hi
      exact Nat.lt_of_lt_of_eq (List.mem_range.1 hi) h.size_set
    obtain ⟨s, power, hs⟩ := h.exists_signed threshold listed fun i hi ↦ recoverable i (listed i hi)
    refine ⟨s, ?_, hs.verify_of_all⟩
    rw [signAll?, h.length_keys, ← h.size_set]
    exact hs.signed
  · obtain ⟨s, power, hs⟩ : ∃ s power, ring.Signed digest threshold [] s power :=
      h.exists_signed threshold nofun nofun
    exact ⟨s, hs.signed, hs.verify_ne_of_none⟩

/-- When both sign, the second even twice, there is just enough; the first alone has too little. -/
theorem signing_exact_pair :
    let digest := FixedBytes.ofNat 32 7
    let all : PowerThreshold := ⟨10000, by decide, by decide⟩
    Secp256k1.Recoverable (key 0) digest ∧ Secp256k1.Recoverable (key 1) digest ∧
      ∃ ring, ofPowers? 0 [1, 18446744073709551614] = some ring ∧
        (∃ s, ring.sign? digest [1, 0, 1] = some s ∧
          ring.set.verify all s digest = .ok 18446744073709551615) ∧
        (∃ s, ring.sign? digest [0, 0] = some s ∧ ring.set.verify all s digest =
          .error (.insufficientPower 1 18446744073709551615 10000)) ∧
        ∃ s, ring.signAll? digest = some s ∧
          ring.set.verify all s digest = .ok 18446744073709551615 := by
  intro digest all
  have first : Secp256k1.Recoverable (key 0) digest := by decide +kernel
  have second : Secp256k1.Recoverable (key 1) digest := by decide +kernel
  have pair : (ofPowers? 0 [1, 18446744073709551614]).any
      (·.set.totalPower = 18446744073709551615) = true := by decide +kernel
  obtain ⟨ring, built, htotal⟩ := (Option.any_eq_true _ _).1 pair
  have htotal : ring.set.totalPower = 18446744073709551615 := of_decide_eq_true htotal
  obtain ⟨hpowers, signs, whole, _⟩ := signing_exact built digest all
  have able : ∀ i < 2, Secp256k1.Recoverable (key (0 + i)) digest
    | 0, _ => first
    | 1, _ => second
  have outcome (signers : List Nat) (power : UInt64) (listed : ∀ i ∈ signers, i < 2)
      (hpower : ∑ i ∈ signers.toFinset, ([1, 18446744073709551614].getD i (0 : UInt64)).toNat =
        power.toNat) : ∃ s, ring.Signed digest all signers s power := by
    obtain ⟨s, power', hs⟩ := signs signers listed fun i hi ↦ able i (listed i hi)
    have hsum := hs.power_eq
    rw [hpowers, hpower] at hsum
    exact ⟨s, UInt64.toNat_inj.1 hsum ▸ hs⟩
  obtain ⟨s, hs⟩ := outcome [1, 0, 1] 18446744073709551615 (by decide) (by decide)
  obtain ⟨s', hs'⟩ := outcome [0, 0] 1 (by decide) (by decide)
  rw [htotal] at whole
  refine ⟨first, second, ring, built, ⟨s, hs.signed, ?_⟩, ⟨s', hs'.signed, ?_⟩, whole able⟩
  · rw [hs.verdict, htotal]
    exact if_pos (by decide)
  · rw [hs'.verdict, htotal]
    exact if_neg (by decide)

end KeyRing

end TokenBridge
