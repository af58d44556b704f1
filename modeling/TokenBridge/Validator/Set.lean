import TokenBridge.Validator.Error

namespace TokenBridge

structure Validator where
  address : Address
  power : UInt64
deriving DecidableEq

namespace Validator

def totalPower : List Validator → Nat
  | [] => 0
  | v :: rest => v.power.toNat + totalPower rest

/-- The first defect of a list whose members stand from `index` on, behind members with the
addresses `seen` and the power `total`, or else the power of all of them. -/
def check (index : Nat) (seen : List Address) (total : UInt64) :
    List Validator → Except QuorumError UInt64
  | [] => .ok total
  | v :: rest =>
    if v.address.isZero then .error (.zeroAddress index)
    else if v.power = 0 then .error (.zeroPower index)
    else if v.address ∈ seen then .error (.duplicateValidator v.address)
    else if UInt64.size ≤ total.toNat + v.power.toNat then .error .powerOverflow
    else check (index + 1) (v.address :: seen) (total + v.power) rest

/-- Where the power of the next member is not too much, it is added without wrapping. -/
theorem toNat_add_of_fits {total power : UInt64}
    (h : ¬ UInt64.size ≤ total.toNat + power.toNat) :
    (total + power).toNat = total.toNat + power.toNat := by
  rw [UInt64.toNat_add]
  exact Nat.mod_eq_of_lt (Nat.lt_of_not_le h)

theorem check_eq_ok {index : Nat} {seen : List Address} {total sum : UInt64}
    {members : List Validator} (h : check index seen total members = .ok sum) :
    (∀ v ∈ members, v.address.isZero = false ∧ v.power ≠ 0 ∧ v.address ∉ seen) ∧
      (members.map (·.address)).Nodup ∧ sum.toNat = total.toNat + totalPower members := by
  induction members generalizing index seen total with
  | nil =>
    cases h
    simp [totalPower]
  | cons v rest ih =>
    simp only [check] at h
    split at h
    · cases h
    · split at h
      · cases h
      · split at h
        · cases h
        · split at h
          · cases h
          · rename_i hz hp hs ho
            obtain ⟨hm, hn, hsum⟩ := ih h
            refine ⟨?_, ?_, ?_⟩
            · intro w hw
              rcases List.mem_cons.1 hw with rfl | hw
              · exact ⟨by simpa using hz, hp, hs⟩
              · obtain ⟨h₁, h₂, h₃⟩ := hm w hw
                exact ⟨h₁, h₂, fun hin ↦ h₃ (List.mem_cons_of_mem _ hin)⟩
            · refine List.nodup_cons.2 ⟨?_, hn⟩
              intro hin
              obtain ⟨w, hw, he⟩ := List.mem_map.1 hin
              exact (hm w hw).2.2 (by rw [he]; exact List.mem_cons_self)
            · rw [hsum, toNat_add_of_fits ho, totalPower, Nat.add_assoc]

end Validator

/-- Validators in the order in which their signatures are given, and the power of all of them. -/
structure ValidatorSet where
  members : List Validator
  totalPower : UInt64
  members_ne_nil : members ≠ []
  address_ne_zero : ∀ v ∈ members, v.address.isZero = false
  power_ne_zero : ∀ v ∈ members, v.power ≠ 0
  nodup : (members.map (·.address)).Nodup
  toNat_totalPower : totalPower.toNat = Validator.totalPower members
deriving DecidableEq

namespace ValidatorSet

def ofList (members : List Validator) : Except QuorumError ValidatorSet :=
  if hne : members = [] then .error .emptyValidatorSet
  else
    match h : Validator.check 0 [] 0 members with
    | .error e => .error e
    | .ok totalPower =>
      have ok := Validator.check_eq_ok h
      .ok {
        members
        totalPower
        members_ne_nil := hne
        address_ne_zero := fun v hv ↦ (ok.1 v hv).1
        power_ne_zero := fun v hv ↦ (ok.1 v hv).2.1
        nodup := ok.2.1
        toNat_totalPower := by simpa using ok.2.2 }

def ofParts (addresses : List Address) (powers : List UInt64) : Except QuorumError ValidatorSet :=
  if addresses.length ≠ powers.length then
    .error (.parallelArrayMismatch addresses.length powers.length)
  else ofList (List.zipWith Validator.mk addresses powers)

variable (vs : ValidatorSet)

def size : Nat := vs.members.length

def addresses : List Address := vs.members.map (·.address)

def powers : List UInt64 := vs.members.map (·.power)

def positionOf? (address : Address) : Option Nat := vs.members.findIdx? (·.address = address)

def contains (address : Address) : Bool := (vs.positionOf? address).isSome

theorem power_lt : Validator.totalPower vs.members < UInt64.size := by
  rw [← vs.toNat_totalPower]
  exact vs.totalPower.toNat_lt

/-- The members tell all of a set, as its power is theirs. -/
theorem ext_members {vs vs' : ValidatorSet} (h : vs.members = vs'.members) : vs = vs' := by
  have htotal : vs.totalPower = vs'.totalPower := by
    rw [← UInt64.toNat_inj, vs.toNat_totalPower, vs'.toNat_totalPower, h]
  cases vs
  cases vs'
  cases h
  cases htotal
  rfl

end ValidatorSet

end TokenBridge
