import Mathlib.Data.List.Nodup
import TokenBridge.Proofs.Validation

namespace TokenBridge

namespace Validator

structure Compatible (members : List Validator) : Prop where
  address_ne_zero : ∀ v ∈ members, v.address.isZero = false
  addresses_nodup : (members.map (·.address)).Nodup
  power_ne_zero : ∀ v ∈ members, v.power ≠ 0
  power_lt : totalPower members < UInt64.size

/-- What can be wrong with a validator behind others, and how it is reported. Of several defects the
one that comes first here counts. -/
inductive Defect (before : List Validator) (v : Validator) : QuorumError → Prop
  | zeroAddress (nameless : v.address.isZero = true) : Defect before v (.zeroAddress before.length)
  | zeroPower (named : v.address.isZero = false) (powerless : v.power = 0) :
      Defect before v (.zeroPower before.length)
  | duplicate (named : v.address.isZero = false) (power_ne : v.power ≠ 0)
      (again : v.address ∈ before.map (·.address)) : Defect before v (.duplicateValidator v.address)
  | overflow (named : v.address.isZero = false) (power_ne : v.power ≠ 0)
      (new : v.address ∉ before.map (·.address))
      (large : UInt64.size ≤ totalPower before + v.power.toNat) : Defect before v .powerOverflow

variable {before rest members : List Validator} {v : Validator} {e : QuorumError}

theorem totalPower_append (first second : List Validator) :
    totalPower (first ++ second) = totalPower first + totalPower second := by
  induction first with
  | nil => rw [List.nil_append, totalPower, Nat.zero_add]
  | cons v rest ih => rw [List.cons_append, totalPower, totalPower, ih, Nat.add_assoc]

theorem totalPower_singleton (v : Validator) : totalPower [v] = v.power.toNat := rfl

theorem Compatible.nil : Compatible [] := ⟨nofun, .nil, nofun, by decide⟩

theorem Compatible.of_append (h : Compatible (before ++ rest)) : Compatible before := by
  refine ⟨fun v hv ↦ h.address_ne_zero v (List.mem_append_left _ hv), ?_,
    fun v hv ↦ h.power_ne_zero v (List.mem_append_left _ hv), ?_⟩
  · have hnodup := h.addresses_nodup
    rw [List.map_append] at hnodup
    exact hnodup.of_append_left
  · have hlt := h.power_lt
    rw [totalPower_append] at hlt
    omega

theorem Compatible.take (h : Compatible members) (n : Nat) : Compatible (members.take n) := by
  rw [← List.take_append_drop n members] at h
  exact h.of_append

theorem flawless_iff :
    (∀ e, ¬ Defect before v e) ↔
      v.address.isZero = false ∧ v.power ≠ 0 ∧ v.address ∉ before.map (·.address) ∧
        totalPower before + v.power.toNat < UInt64.size := by
  constructor
  · intro flawless
    have named : v.address.isZero = false := by
      apply Bool.eq_false_iff.2
      intro nameless
      exact flawless _ (.zeroAddress nameless)
    have power_ne : v.power ≠ 0 := fun powerless ↦ flawless _ (.zeroPower named powerless)
    have new : v.address ∉ before.map (·.address) :=
      fun again ↦ flawless _ (.duplicate named power_ne again)
    refine ⟨named, power_ne, new, Nat.lt_of_not_le ?_⟩
    intro large
    exact flawless _ (.overflow named power_ne new large)
  · intro h e defect
    obtain ⟨named, power_ne, new, fits⟩ := h
    cases defect with
    | zeroAddress nameless =>
      rw [named] at nameless
      cases nameless
    | zeroPower _ powerless => exact power_ne powerless
    | duplicate _ _ again => exact new again
    | overflow _ _ _ large => omega

theorem compatible_concat_iff :
    Compatible (before ++ [v]) ↔ Compatible before ∧ ∀ e, ¬ Defect before v e := by
  rw [flawless_iff]
  constructor
  · intro h
    have hmem : v ∈ before ++ [v] := List.mem_append_right _ (List.mem_singleton_self v)
    have hnodup := h.addresses_nodup
    have hlt := h.power_lt
    rw [List.map_append, List.nodup_append] at hnodup
    rw [totalPower_append, totalPower_singleton] at hlt
    refine ⟨h.of_append, h.address_ne_zero v hmem, h.power_ne_zero v hmem, ?_, hlt⟩
    intro again
    exact hnodup.2.2 _ again _ (List.mem_singleton_self _) rfl
  · intro h
    obtain ⟨h, named, power_ne, new, fits⟩ := h
    refine ⟨?_, ?_, ?_, ?_⟩
    · intro w hw
      rcases List.mem_append.1 hw with hw | hw
      · exact h.address_ne_zero w hw
      · rw [List.mem_singleton.1 hw, named]
    · rw [List.map_append]
      exact List.nodup_append.2 ⟨h.addresses_nodup, List.nodup_singleton _, by simpa using new⟩
    · intro w hw
      rcases List.mem_append.1 hw with hw | hw
      · exact h.power_ne_zero w hw
      · rwa [List.mem_singleton.1 hw]
    · rwa [totalPower_append, totalPower_singleton]

def checkBehind (before rest : List Validator) : Except QuorumError UInt64 :=
  check before.length (before.map (·.address)).reverse (.ofNat (totalPower before)) rest

theorem Compatible.toNat_ofNat (h : Compatible before) :
    (UInt64.ofNat (totalPower before)).toNat = totalPower before :=
  UInt64.toNat_ofNat_of_lt' h.power_lt

theorem checkBehind_of_defect (compatible : Compatible before) (h : Defect before v e) :
    checkBehind before (v :: rest) = .error e := by
  rw [checkBehind, check, compatible.toNat_ofNat]
  cases h with
  | zeroAddress nameless => rw [if_pos nameless]
  | zeroPower named powerless => simp [named, powerless]
  | duplicate named power_ne again =>
    rw [if_neg (by simp [named]), if_neg power_ne, if_pos (List.mem_reverse.2 again)]
  | overflow named power_ne new large =>
    rw [if_neg (by simp [named]), if_neg power_ne, if_neg (mt List.mem_reverse.1 new), if_pos large]

theorem checkBehind_of_flawless (compatible : Compatible before) (h : ∀ e, ¬ Defect before v e) :
    checkBehind before (v :: rest) = checkBehind (before ++ [v]) rest := by
  obtain ⟨named, power_ne, new, fits⟩ := flawless_iff.1 h
  have htotal : UInt64.ofNat (totalPower before) + v.power =
      UInt64.ofNat (totalPower (before ++ [v])) := by
    rw [totalPower_append, UInt64.ofNat_add, totalPower_singleton, UInt64.ofNat_toNat]
  rw [checkBehind, check, compatible.toNat_ofNat, if_neg (by simp [named]), if_neg power_ne,
    if_neg (mt List.mem_reverse.1 new), if_neg (by omega), checkBehind, List.length_append,
    List.map_append, List.reverse_append, htotal]
  rfl

theorem Defect.unique {e' : QuorumError} (compatible : Compatible before) (h : Defect before v e)
    (h' : Defect before v e') : e = e' := by
  have hcheck : checkBehind before [v] = .error e := checkBehind_of_defect compatible h
  rw [checkBehind_of_defect compatible h'] at hcheck
  exact (Except.error.inj hcheck).symm

def FirstDefect (before rest : List Validator) (e : QuorumError) : Prop :=
  ∃ passed v after, rest = passed ++ v :: after ∧ Compatible (before ++ passed) ∧
    Defect (before ++ passed) v e

theorem firstDefect_cons (compatible : Compatible before) :
    FirstDefect before (v :: rest) e ↔
      Defect before v e ∨ (∀ e, ¬ Defect before v e) ∧ FirstDefect (before ++ [v]) rest e := by
  constructor
  · intro h
    obtain ⟨passed, w, after, hsplit, hpassed, defect⟩ := h
    cases passed with
    | nil =>
      obtain ⟨rfl, _⟩ := List.cons.inj hsplit
      rw [List.append_nil] at defect
      exact .inl defect
    | cons u passed =>
      obtain ⟨rfl, hrest⟩ := List.cons.inj hsplit
      rw [List.append_cons] at hpassed defect
      exact .inr ⟨(compatible_concat_iff.1 hpassed.of_append).2, passed, w, after, hrest, hpassed,
        defect⟩
  · intro h
    rcases h with defect | ⟨_, passed, w, after, hrest, hpassed, defect⟩
    · refine ⟨[], v, rest, rfl, ?_, ?_⟩
      · rwa [List.append_nil]
      · rwa [List.append_nil]
    · rw [← List.append_cons] at hpassed defect
      exact ⟨v :: passed, w, after, congrArg (v :: ·) hrest, hpassed, defect⟩

theorem checkBehind_eq_error_iff (compatible : Compatible before) :
    checkBehind before rest = .error e ↔ FirstDefect before rest e := by
  induction rest generalizing before with
  | nil => simp [checkBehind, check, FirstDefect]
  | cons v rest ih =>
    rw [firstDefect_cons compatible]
    by_cases h : ∃ cause, Defect before v cause
    · obtain ⟨cause, defect⟩ := h
      rw [checkBehind_of_defect compatible defect, Except.error.injEq]
      constructor
      · intro he
        exact .inl (he ▸ defect)
      · intro h
        rcases h with other | ⟨flawless, _⟩
        · exact defect.unique compatible other
        · exact absurd defect (flawless cause)
    · have flawless : ∀ cause, ¬ Defect before v cause := not_exists.1 h
      rw [checkBehind_of_flawless compatible flawless, ih (compatible_concat_iff.2 ⟨compatible, flawless⟩)]
      simp [flawless]

end Validator

open Validator (Compatible Defect FirstDefect)

namespace ValidatorSet

/-- How a list that makes up no set is refused: as empty, or for its first member that is not
compatible with those before it. -/
inductive Refusal (members : List Validator) : QuorumError → Prop
  | empty (members_eq : members = []) : Refusal members .emptyValidatorSet
  | member {i : Nat} {v : Validator} {e : QuorumError} (found : members[i]? = some v)
      (first : ∀ j < i, Compatible (members.take (j + 1)))
      (incompatible : ¬ Compatible (members.take (i + 1)))
      (defect : Defect (members.take i) v e) : Refusal members e

variable {vs : ValidatorSet} {members : List Validator} {e : QuorumError}

theorem exists_ofList_iff : (∃ vs, ofList members = .ok vs) ↔ members ≠ [] ∧ Compatible members := by
  constructor
  · intro h
    obtain ⟨vs, h⟩ := h
    obtain rfl := ofList_eq_ok_iff.1 h
    exact ⟨vs.members_ne_nil, vs.address_ne_zero, vs.nodup, vs.power_ne_zero, vs.power_lt⟩
  · intro h
    obtain ⟨hne, h⟩ := h
    let vs : ValidatorSet :=
      ⟨members, .ofNat (Validator.totalPower members), hne, h.address_ne_zero, h.power_ne_zero,
        h.addresses_nodup, h.toNat_ofNat⟩
    exact ⟨vs, ofList_eq_ok_iff.2 rfl⟩

theorem ofList_eq_error_iff_check (hne : members ≠ []) :
    ofList members = .error e ↔ Validator.checkBehind [] members = .error e := by
  have hcheck : Validator.checkBehind [] members = Validator.check 0 [] 0 members := rfl
  rw [hcheck, ofList, dif_neg hne]
  split
  · rename_i cause h
    simp [h]
  · rename_i h
    simp [h]

theorem firstDefect_iff :
    FirstDefect [] members e ↔
      ∃ i v, members[i]? = some v ∧ Compatible (members.take i) ∧ Defect (members.take i) v e := by
  constructor
  · intro h
    obtain ⟨passed, v, after, hsplit, compatible, defect⟩ := h
    subst hsplit
    refine ⟨passed.length, v, by simp, ?_, ?_⟩
    · rwa [List.take_left]
    · rwa [List.take_left]
  · intro h
    obtain ⟨i, v, found, compatible, defect⟩ := h
    obtain ⟨hi, rfl⟩ := List.getElem?_eq_some_iff.1 found
    refine ⟨members.take i, members[i], members.drop (i + 1), ?_, compatible, defect⟩
    rw [← List.drop_eq_getElem_cons hi, List.take_append_drop]

theorem refusal_iff : Refusal members e ↔
    members = [] ∧ e = .emptyValidatorSet ∨ FirstDefect [] members e := by
  rw [firstDefect_iff]
  constructor
  · intro h
    cases h with
    | empty members_eq => exact .inl ⟨members_eq, rfl⟩
    | @member i v _ found first _ defect =>
      refine .inr ⟨i, v, found, ?_, defect⟩
      cases i with
      | zero => exact .nil
      | succ i => exact first i (Nat.lt_succ_self i)
  · intro h
    rcases h with ⟨members_eq, rfl⟩ | ⟨i, v, found, compatible, defect⟩
    · exact .empty members_eq
    · refine .member found ?_ ?_ defect
      · intro j hj
        have hle := compatible.take (j + 1)
        rwa [List.take_take, Nat.min_eq_left hj] at hle
      · rw [List.take_add_one, found, Option.toList_some]
        intro longer
        exact (Validator.compatible_concat_iff.1 longer).2 _ defect

theorem ofList_eq_error_iff : ofList members = .error e ↔ Refusal members e := by
  rw [refusal_iff]
  by_cases hne : members = []
  · subst hne
    simp [ofList, FirstDefect, eq_comm]
  · rw [ofList_eq_error_iff_check hne, Validator.checkBehind_eq_error_iff .nil]
    simp [hne]

theorem positionOf?_of_getElem? {i : Nat} {v : Validator} (h : vs.members[i]? = some v) :
    vs.positionOf? v.address = some i := by
  obtain ⟨hi, rfl⟩ := List.getElem?_eq_some_iff.1 h
  rw [positionOf?, List.findIdx?_eq_some_iff_getElem]
  refine ⟨hi, by simp, ?_⟩
  intro j hj heq
  have hj' : j < (vs.members.map (·.address)).length := by
    rw [List.length_map]
    omega
  have hi' : i < (vs.members.map (·.address)).length := by rwa [List.length_map]
  have hsame : (vs.members.map (·.address))[j] = (vs.members.map (·.address))[i] := by
    simpa using heq
  have := (vs.nodup.getElem_inj_iff).1 hsame
  omega

theorem positionOf?_eq_none_iff {a : Address} : vs.positionOf? a = none ↔ a ∉ vs.addresses := by
  simp [positionOf?, addresses]

theorem ofParts_of_length_eq {addresses : List Address} {powers : List UInt64}
    (h : addresses.length = powers.length) :
    ofParts addresses powers = ofList ((addresses.zip powers).map fun p ↦ ⟨p.1, p.2⟩) := by
  rw [ofParts, if_neg (not_not_intro h), ← List.map_uncurry_zip_eq_zipWith]
  rfl

theorem ofParts_of_length_ne {addresses : List Address} {powers : List UInt64}
    (h : addresses.length ≠ powers.length) :
    ofParts addresses powers =
      .error (.parallelArrayMismatch addresses.length powers.length) := by
  rw [ofParts, if_pos h]

/-- A list makes up a set just if it has members and they are compatible, and then the set is that
list. Otherwise it is the first member that does not go with those before it that is reported. -/
theorem construction_exact (members : List Validator) :
    ((∃ vs, ofList members = .ok vs) ↔ members ≠ [] ∧ Compatible members) ∧
    (∀ vs, ofList members = .ok vs →
      vs.members = members ∧ vs.totalPower.toNat = Validator.totalPower members ∧
      (∀ i v, members[i]? = some v → vs.positionOf? v.address = some i) ∧
      ∀ a, a ∉ members.map (·.address) → vs.positionOf? a = none) ∧
    (∀ e, ofList members = .error e ↔ Refusal members e) ∧
    (∀ addresses powers, addresses.length ≠ powers.length →
      ofParts addresses powers =
        .error (.parallelArrayMismatch addresses.length powers.length)) ∧
    ∀ addresses powers, addresses.length = powers.length →
      ofParts addresses powers = ofList ((addresses.zip powers).map fun p ↦ ⟨p.1, p.2⟩) := by
  refine ⟨exists_ofList_iff, ?_, fun e ↦ ofList_eq_error_iff, ?_, ?_⟩
  · intro vs h
    obtain rfl := ofList_eq_ok_iff.1 h
    refine ⟨rfl, vs.toNat_totalPower, ?_, ?_⟩
    · intro i v found
      exact positionOf?_of_getElem? found
    · intro a stranger
      exact positionOf?_eq_none_iff.2 stranger
  · intro addresses powers h
    exact ofParts_of_length_ne h
  · intro addresses powers h
    exact ofParts_of_length_eq h

def crew : List Validator := [⟨FixedBytes.ofNat 20 1, 5⟩, ⟨FixedBytes.ofNat 20 2, 7⟩]

/-- The second validator here is the first one again, and without power, and so is the third. -/
def mutineers : List Validator :=
  [⟨FixedBytes.ofNat 20 1, 5⟩, ⟨FixedBytes.ofNat 20 1, 0⟩, ⟨FixedBytes.zero 20, 0⟩]

theorem construction_exact_crew :
    (∃ vs, ofList crew = .ok vs ∧ vs.totalPower.toNat = 12 ∧
      vs.positionOf? (FixedBytes.ofNat 20 2) = some 1 ∧
      vs.positionOf? (FixedBytes.ofNat 20 3) = none) ∧
    ofList mutineers = .error (.zeroPower 1) ∧
    ofParts [FixedBytes.ofNat 20 1] [5, 7] = .error (.parallelArrayMismatch 1 2) ∧
    ofParts [FixedBytes.ofNat 20 1, FixedBytes.ofNat 20 2] [5, 7] = ofList crew := by
  obtain ⟨succeeds, faithful, -, mismatched, zipped⟩ := construction_exact crew
  obtain ⟨-, -, refused, -⟩ := construction_exact mutineers
  obtain ⟨vs, hvs⟩ := succeeds.2 ⟨by decide, by decide, by decide, by decide, by decide⟩
  obtain ⟨-, total, positions, strangers⟩ := faithful vs hvs
  have found : mutineers[1]? = some ⟨FixedBytes.ofNat 20 1, 0⟩ := rfl
  refine ⟨⟨vs, hvs, total, positions 1 _ rfl, strangers _ (by decide)⟩, (refused _).2 ?_, ?_, ?_⟩
  · refine .member found ?_ ?_ (.zeroPower (by decide) rfl)
    · intro j hj
      obtain rfl : j = 0 := by omega
      exact ⟨by decide, by decide, by decide, by decide⟩
    · intro h
      exact absurd h.addresses_nodup (by decide)
  · exact mismatched _ _ (by decide)
  · exact zipped _ _ rfl

end ValidatorSet

end TokenBridge
