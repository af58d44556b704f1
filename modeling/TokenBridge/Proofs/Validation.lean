import TokenBridge.Batch
import TokenBridge.BridgeId
import TokenBridge.Destination
import TokenBridge.Validator.Set
import TokenBridge.Validator.Threshold

namespace TokenBridge

theorem toOption_eq_some_iff {ε α : Type} {outcome : Except ε α} {a : α} :
    outcome.toOption = some a ↔ outcome = .ok a := by
  cases outcome <;> simp [Except.toOption]

theorem isSome_toOption_iff {ε α : Type} {outcome : Except ε α} :
    outcome.toOption.isSome = true ↔ ∃ a, outcome = .ok a := by
  rw [Option.isSome_iff_exists]
  simp only [toOption_eq_some_iff]

theorem Batch.ofPayouts_eq_ok_iff {batch : Batch} {token : Address} {payouts : List Payout}
    {nonce : UInt64} :
    ofPayouts token payouts nonce = .ok batch ↔
      payouts ≠ [] ∧ batch = ⟨token, payouts, nonce⟩ := by
  unfold ofPayouts
  split <;> simp_all [eq_comm]

theorem BridgeId.ofWord_eq_ok_iff {word : Word} {id : BridgeId} :
    ofWord word = .ok id ↔ id.word = word := by
  unfold ofWord
  constructor
  · intro h
    split at h
    · cases h
      rfl
    · cases h
  · rintro rfl
    rw [dif_pos id.ne_zero]

theorem BridgeId.ofWord_eq_error_iff {word : Word} {e : DataError} :
    ofWord word = .error e ↔ word.isZero = true ∧ e = .zeroBridgeId := by
  unfold ofWord
  constructor
  · intro h
    split at h
    · cases h
    · rename_i hzero
      cases h
      exact ⟨by simpa using hzero, rfl⟩
  · intro h
    obtain ⟨hzero, he⟩ := h
    rw [dif_neg (by simp [hzero]), he]

namespace BridgeId

variable {bytes : Bytes}

theorem ofBytes_eq_ok_iff {id : BridgeId} :
    ofBytes bytes = .ok id ↔ id.word.bytes = bytes ++ List.replicate (32 - bytes.length) 0 := by
  unfold ofBytes
  constructor
  · intro h
    split at h
    · rw [ofWord_eq_ok_iff.1 h]
      rfl
    · cases h
  · intro h
    have hlength := congrArg List.length h
    rw [id.word.length_bytes, List.length_append, List.length_replicate] at hlength
    have hshort : bytes.length ≤ 32 := by omega
    rw [dif_pos hshort, ofWord_eq_ok_iff]
    exact FixedBytes.ext h

theorem ofBytes_eq_error_iff {e : DataError} :
    ofBytes bytes = .error e ↔
      (32 < bytes.length ∧ e = .invalidBridgeIdLength bytes.length) ∨
        (bytes.length ≤ 32 ∧ (∀ b ∈ bytes, b = 0) ∧ e = .zeroBridgeId) := by
  unfold ofBytes
  by_cases hshort : bytes.length ≤ 32
  · have hzero : (FixedBytes.padRight bytes hshort).isZero = true ↔ ∀ b ∈ bytes, b = 0 := by
      simp [FixedBytes.isZero, FixedBytes.padRight]
    rw [dif_pos hshort, ofWord_eq_error_iff, hzero]
    simp [hshort, Nat.not_lt.2 hshort]
  · simp [hshort, Nat.lt_of_not_le hshort, eq_comm]

theorem exists_ofBytes_iff :
    (∃ id, ofBytes bytes = .ok id) ↔ bytes.length ≤ 32 ∧ ∃ b ∈ bytes, b ≠ 0 := by
  constructor
  · intro h
    obtain ⟨id, h⟩ := h
    have hword := ofBytes_eq_ok_iff.1 h
    have hlength := congrArg List.length hword
    have hne := id.ne_zero
    rw [id.word.length_bytes, List.length_append] at hlength
    rw [FixedBytes.isZero, hword] at hne
    exact ⟨by omega, by simpa using hne⟩
  · intro h
    obtain ⟨hshort, b, hb, hne⟩ := h
    cases h : ofBytes bytes with
    | ok id => exact ⟨id, rfl⟩
    | error e =>
      rcases ofBytes_eq_error_iff.1 h with ⟨hlong, _⟩ | ⟨_, hzero, _⟩
      · omega
      · exact absurd (hzero b hb) hne

/-- Zeros behind an id do not show. -/
theorem ofBytes_zeros {base : Bytes} {n : Nat} {id : BridgeId}
    (h : ofBytes (base ++ List.replicate n 0) = .ok id) :
    id.word.bytes = base ++ List.replicate (32 - base.length) 0 := by
  have hshort := (exists_ofBytes_iff.1 ⟨id, h⟩).1
  rw [List.length_append, List.length_replicate] at hshort
  have hpad : n + (32 - (base.length + n)) = 32 - base.length := by omega
  rw [ofBytes_eq_ok_iff.1 h, List.append_assoc, List.length_append, List.length_replicate,
    List.replicate_append_replicate, hpad]

end BridgeId

theorem Destination.bytes_of_ok {bytes : Bytes} {d : Destination} (h : ofBytes bytes = .ok d) :
    d.bytes = bytes := by
  unfold ofBytes at h
  split at h
  · cases h
    rfl
  · cases h

theorem Destination.ofBytes_eq_ok_iff {bytes : Bytes} {d : Destination} :
    ofBytes bytes = .ok d ↔ d.bytes = bytes := by
  refine ⟨bytes_of_ok, ?_⟩
  rintro rfl
  rw [ofBytes, dif_pos ⟨d.pos, d.length_le⟩]

theorem PowerThreshold.basisPoints_of_ok {basisPoints : UInt32} {threshold : PowerThreshold}
    (h : ofBasisPoints basisPoints = .ok threshold) : threshold.basisPoints = basisPoints := by
  unfold ofBasisPoints at h
  split at h
  · cases h
    rfl
  · cases h

/-- The threshold of a registry passes the check that it was built with. -/
theorem PowerThreshold.ofBasisPoints_basisPoints (t : PowerThreshold) :
    ofBasisPoints t.basisPoints = .ok t := by
  rw [ofBasisPoints, dif_pos ⟨t.pos, t.le_denominator⟩]

theorem PowerThreshold.ofBasisPoints_eq_ok_iff {basisPoints : UInt32} {t : PowerThreshold} :
    ofBasisPoints basisPoints = .ok t ↔ t.basisPoints = basisPoints := by
  refine ⟨basisPoints_of_ok, ?_⟩
  rintro rfl
  exact t.ofBasisPoints_basisPoints

namespace Validator

theorem check_of_valid {index : Nat} {seen : List Address} {total : UInt64}
    {members : List Validator}
    (hmembers : ∀ v ∈ members, v.address.isZero = false ∧ v.power ≠ 0 ∧ v.address ∉ seen)
    (hnodup : (members.map (·.address)).Nodup)
    (htotal : total.toNat + totalPower members < UInt64.size) :
    ∃ sum, check index seen total members = .ok sum := by
  induction members generalizing index seen total with
  | nil => exact ⟨total, rfl⟩
  | cons v rest ih =>
    obtain ⟨⟨hzero, hpower, hseen⟩, hrest⟩ := List.forall_mem_cons.1 hmembers
    obtain ⟨hfresh, hnodup⟩ := List.nodup_cons.1 hnodup
    rw [totalPower] at htotal
    have hfits : ¬ UInt64.size ≤ total.toNat + v.power.toNat := by omega
    have hlater : ∀ w ∈ rest,
        w.address.isZero = false ∧ w.power ≠ 0 ∧ w.address ∉ v.address :: seen := by
      intro w hw
      obtain ⟨hwzero, hwpower, hwseen⟩ := hrest w hw
      refine ⟨hwzero, hwpower, fun hin ↦ ?_⟩
      rcases List.mem_cons.1 hin with heq | hin
      · exact hfresh (List.mem_map.2 ⟨w, hw, heq⟩)
      · exact hwseen hin
    rw [check, hzero, if_neg Bool.false_ne_true, if_neg hpower, if_neg hseen, if_neg hfits]
    exact ih hlater hnodup (by rw [toNat_add_of_fits hfits]; omega)

end Validator

theorem ValidatorSet.ofList_eq_ok_iff {members : List Validator} {vs : ValidatorSet} :
    ofList members = .ok vs ↔ vs.members = members := by
  unfold ofList
  constructor
  · intro h
    split at h
    · cases h
    · split at h
      · cases h
      · cases h
        rfl
  · rintro rfl
    obtain ⟨sum, hcheck⟩ : ∃ sum, Validator.check 0 [] 0 vs.members = .ok sum := by
      refine Validator.check_of_valid (fun v hv ↦ ?_) vs.nodup (by simpa using vs.power_lt)
      exact ⟨vs.address_ne_zero v hv, vs.power_ne_zero v hv, List.not_mem_nil⟩
    rw [dif_neg vs.members_ne_nil]
    split
    · rename_i e he
      rw [hcheck] at he
      cases he
    · exact congrArg Except.ok (ext_members rfl)

theorem ValidatorSet.parts_of_ok {addresses : List Address} {powers : List UInt64}
    {vs : ValidatorSet} (h : ofParts addresses powers = .ok vs) :
    vs.addresses = addresses ∧ vs.powers = powers := by
  unfold ofParts at h
  split at h
  · cases h
  · rename_i hlength
    have hmembers := ofList_eq_ok_iff.1 h
    rw [← List.map_uncurry_zip_eq_zipWith] at hmembers
    rw [ValidatorSet.addresses, ValidatorSet.powers, hmembers, List.map_map, List.map_map]
    exact ⟨List.map_fst_zip (by omega), List.map_snd_zip (by omega)⟩

end TokenBridge
