import Mathlib.Data.List.Induction
import Mathlib.Data.List.ReduceOption
import TokenBridge.Proofs.Validator.Construction
import TokenBridge.Proofs.Validator.Verdict

namespace TokenBridge

namespace ValidatorSet

variable {vs : ValidatorSet}

theorem positionOf?_eq_some_iff {a : Address} {i : Nat} :
    vs.positionOf? a = some i ↔ ∃ v, vs.members[i]? = some v ∧ v.address = a := by
  constructor
  · intro h
    obtain ⟨hi, hfound, _⟩ := List.findIdx?_eq_some_iff_getElem.1 h
    exact ⟨vs.members[i], List.getElem?_eq_getElem hi, of_decide_eq_true hfound⟩
  · intro h
    obtain ⟨v, hv, rfl⟩ := h
    exact positionOf?_of_getElem? hv

theorem exists_positionOf?_iff {a : Address} :
    (∃ i, vs.positionOf? a = some i) ↔ a ∈ vs.addresses := by
  rw [← Option.isSome_iff_exists]
  exact contains_iff_mem

/-- No two members have one address, so that an address tells the slot. -/
theorem index_eq_of_address_eq {i j : Nat} {v w : Validator} (hv : vs.members[i]? = some v)
    (hw : vs.members[j]? = some w) (h : v.address = w.address) : i = j := by
  have hi := positionOf?_of_getElem? hv
  rw [h, positionOf?_of_getElem? hw] at hi
  exact (Option.some.inj hi).symm

end ValidatorSet

namespace SignatureSet

def present (s : SignatureSet) : List Attestation := s.slots.reduceOption

/-- Signatures that have a slot each: they name members, and no member twice. -/
structure Placeable (vs : ValidatorSet) (gathered : List Attestation) : Prop where
  member : ∀ a ∈ gathered, a.validator ∈ vs.addresses
  nodup : (gathered.map (·.validator)).Nodup

inductive Misfit (vs : ValidatorSet) (before : List Attestation) (a : Attestation) :
    QuorumError → Prop
  | unknown (stranger : a.validator ∉ vs.addresses) : Misfit vs before a (.unknownSigner a.validator)
  | duplicate (member : a.validator ∈ vs.addresses)
      (again : a.validator ∈ before.map (·.validator)) :
      Misfit vs before a (.duplicateSigner a.validator)

def laidOut (vs : ValidatorSet) (gathered : List Attestation) : SignatureSet :=
  ⟨vs.members.map fun v ↦ gathered.find? (·.validator = v.address)⟩

variable {vs : ValidatorSet} {s : SignatureSet} {gathered gathered' before after : List Attestation}
  {a : Attestation} {e : QuorumError}

theorem ext_slots {t : SignatureSet} (h : ∀ i : Nat, s.slots[i]? = t.slots[i]?) : s = t :=
  congrArg mk (List.ext_getElem? h)

theorem find?_named_eq_none_iff {named : Address} :
    gathered.find? (·.validator = named) = none ↔ named ∉ gathered.map (·.validator) := by
  simp

theorem find?_named_eq_some_iff (nodup : (gathered.map (·.validator)).Nodup) {named : Address} :
    gathered.find? (·.validator = named) = some a ↔ a ∈ gathered ∧ a.validator = named := by
  constructor
  · intro h
    exact ⟨List.mem_of_find?_eq_some h, of_decide_eq_true (List.find?_some h :)⟩
  · intro h
    obtain ⟨ha, rfl⟩ := h
    have hsome : (gathered.find? (·.validator = a.validator)).isSome :=
      List.find?_isSome.2 ⟨a, ha, decide_eq_true rfl⟩
    obtain ⟨b, hb⟩ := Option.isSome_iff_exists.1 hsome
    have hnamed : b.validator = a.validator := of_decide_eq_true (List.find?_some hb :)
    rw [hb, List.inj_on_of_nodup_map nodup (List.mem_of_find?_eq_some hb) ha hnamed]

theorem slots_laidOut (vs : ValidatorSet) (gathered : List Attestation) (i : Nat) :
    (laidOut vs gathered).slots[i]? =
      vs.members[i]?.map fun v ↦ gathered.find? (·.validator = v.address) :=
  List.getElem?_map

theorem size_laidOut : (laidOut vs gathered).size = vs.size := List.length_map _

theorem laidOut_nil : laidOut vs [] = abstaining vs.size := by
  apply ext_slots
  intro i
  rw [slots_laidOut, abstaining, ValidatorSet.size, ← List.map_const', List.getElem?_map]
  rfl

theorem slots_insert {i : Nat} (hi : i < s.slots.length) (a : Attestation) :
    (s.insert i a).slots = s.slots.set i (some a) := by
  have hroom : i + 1 - s.slots.length = 0 := by omega
  rw [insert, hroom, List.replicate_zero, List.append_nil]

theorem insert_laidOut {i : Nat} (position : vs.positionOf? a.validator = some i)
    (new : a.validator ∉ before.map (·.validator)) :
    (laidOut vs before).insert i a = laidOut vs (before ++ [a]) := by
  obtain ⟨v, hv, named⟩ := ValidatorSet.positionOf?_eq_some_iff.1 position
  have hi : i < (laidOut vs before).slots.length := by
    rw [laidOut, List.length_map]
    exact (List.getElem?_eq_some_iff.1 hv).1
  apply ext_slots
  intro j
  rw [slots_insert hi, List.getElem?_set, slots_laidOut, slots_laidOut]
  by_cases hj : i = j
  · subst hj
    rw [if_pos rfl, if_pos hi, hv, Option.map_some, List.find?_append, named,
      find?_named_eq_none_iff.2 new, Option.none_or, List.find?_singleton, if_pos (by simp)]
  · rw [if_neg hj]
    apply Option.map_congr
    intro w hw
    have hother : a.validator ≠ w.address := by
      intro heq
      exact hj (ValidatorSet.index_eq_of_address_eq hv hw (named.trans heq))
    rw [List.find?_append, List.find?_singleton, if_neg (by simpa using hother), Option.or_none]

theorem exists_slot_laidOut_iff {i : Nat} (position : vs.positionOf? a.validator = some i) :
    (∃ b, (laidOut vs before).slots[i]? = some (some b)) ↔
      a.validator ∈ before.map (·.validator) := by
  obtain ⟨v, hv, named⟩ := ValidatorSet.positionOf?_eq_some_iff.1 position
  rw [slots_laidOut, hv, Option.map_some, named, ← not_iff_not, ← find?_named_eq_none_iff]
  cases before.find? (·.validator = a.validator) <;> simp

theorem place_append {first second : List Attestation} (s : SignatureSet) :
    place vs s (first ++ second) =
      match place vs s first with
      | .error e => .error e
      | .ok s' => place vs s' second := by
  induction first generalizing s with
  | nil => rfl
  | cons a first ih =>
    rw [List.cons_append, place, place]
    cases vs.positionOf? a.validator with
    | none => rfl
    | some i =>
      dsimp only
      split
      · rfl
      · exact ih _

theorem place_of_new (member : a.validator ∈ vs.addresses)
    (new : a.validator ∉ before.map (·.validator)) :
    place vs (laidOut vs before) (a :: after) = place vs (laidOut vs (before ++ [a])) after := by
  obtain ⟨i, position⟩ := ValidatorSet.exists_positionOf?_iff.2 member
  rw [place, position]
  dsimp only
  split
  · rename_i b filled
    exact absurd ((exists_slot_laidOut_iff position).1 ⟨b, filled⟩) new
  · rw [insert_laidOut position new]

theorem place_of_misfit (h : Misfit vs before a e) :
    place vs (laidOut vs before) (a :: after) = .error e := by
  rw [place]
  cases h with
  | unknown stranger => rw [ValidatorSet.positionOf?_eq_none_iff.2 stranger]
  | duplicate member again =>
    obtain ⟨i, position⟩ := ValidatorSet.exists_positionOf?_iff.2 member
    obtain ⟨b, filled⟩ := (exists_slot_laidOut_iff position).2 again
    rw [position]
    dsimp only
    rw [filled]

theorem Placeable.nil : Placeable vs [] := ⟨nofun, .nil⟩

theorem placeable_concat_iff :
    Placeable vs (before ++ [a]) ↔
      Placeable vs before ∧ a.validator ∈ vs.addresses ∧ a.validator ∉ before.map (·.validator) := by
  constructor
  · intro h
    have hnodup := h.nodup
    rw [List.map_append, List.map_singleton, List.nodup_append] at hnodup
    refine ⟨⟨fun b hb ↦ h.member b (List.mem_append_left _ hb), hnodup.1⟩, ?_, ?_⟩
    · exact h.member a (List.mem_append_right _ List.mem_cons_self)
    · intro again
      exact hnodup.2.2 _ again _ List.mem_cons_self rfl
  · intro h
    obtain ⟨h, member, new⟩ := h
    refine ⟨?_, ?_⟩
    · intro b hb
      rcases List.mem_append.1 hb with hb | hb
      · exact h.member b hb
      · rwa [List.mem_singleton.1 hb]
    · rw [List.map_append, List.map_singleton, List.nodup_append]
      refine ⟨h.nodup, List.nodup_singleton _, ?_⟩
      intro x hx y hy heq
      rw [List.mem_singleton.1 hy] at heq
      exact new (heq ▸ hx)

theorem arrange_of_placeable (h : Placeable vs gathered) :
    arrange vs gathered = .ok (laidOut vs gathered) := by
  induction gathered using List.reverseRecOn with
  | nil => rw [arrange, laidOut_nil, place]
  | append_singleton before a ih =>
    obtain ⟨placeable, member, new⟩ := placeable_concat_iff.1 h
    have hbefore := ih placeable
    rw [arrange] at hbefore
    rw [arrange, place_append, hbefore]
    exact place_of_new member new

theorem arrange_of_misfit (placeable : Placeable vs before) (h : Misfit vs before a e) :
    arrange vs (before ++ a :: after) = .error e := by
  have hbefore := arrange_of_placeable placeable
  rw [arrange] at hbefore
  rw [arrange, place_append, hbefore]
  exact place_of_misfit h

/-- Of gathered signatures, the first that cannot be placed behind those before it. -/
def FirstMisfit (vs : ValidatorSet) (gathered : List Attestation) (e : QuorumError) : Prop :=
  ∃ before a after, gathered = before ++ a :: after ∧ Placeable vs before ∧ Misfit vs before a e

theorem placeable_or_firstMisfit (vs : ValidatorSet) (gathered : List Attestation) :
    Placeable vs gathered ∨ ∃ e, FirstMisfit vs gathered e := by
  induction gathered using List.reverseRecOn with
  | nil => exact .inl .nil
  | append_singleton before a ih =>
    rcases ih with placeable | ⟨e, passed, b, after, rfl, placeable, misfit⟩
    · by_cases member : a.validator ∈ vs.addresses
      · by_cases again : a.validator ∈ before.map (·.validator)
        · exact .inr ⟨_, before, a, [], rfl, placeable, .duplicate member again⟩
        · exact .inl (placeable_concat_iff.2 ⟨placeable, member, again⟩)
      · exact .inr ⟨_, before, a, [], rfl, placeable, .unknown member⟩
    · refine .inr ⟨e, passed, b, after ++ [a], ?_, placeable, misfit⟩
      rw [List.append_assoc, List.cons_append]

theorem arrange_eq_ok_iff :
    arrange vs gathered = .ok s ↔ Placeable vs gathered ∧ s = laidOut vs gathered := by
  constructor
  · intro h
    rcases placeable_or_firstMisfit vs gathered with placeable | ⟨e, _, _, _, rfl, placeable, misfit⟩
    · rw [arrange_of_placeable placeable] at h
      exact ⟨placeable, (Except.ok.inj h).symm⟩
    · rw [arrange_of_misfit placeable misfit] at h
      cases h
  · intro h
    obtain ⟨placeable, rfl⟩ := h
    exact arrange_of_placeable placeable

theorem arrange_eq_error_iff : arrange vs gathered = .error e ↔ FirstMisfit vs gathered e := by
  constructor
  · intro h
    rcases placeable_or_firstMisfit vs gathered with placeable | ⟨e', misfit⟩
    · rw [arrange_of_placeable placeable] at h
      cases h
    · obtain ⟨before, a, after, rfl, placeable, defect⟩ := misfit
      rw [arrange_of_misfit placeable defect] at h
      cases h
      exact ⟨before, a, after, rfl, placeable, defect⟩
  · intro h
    obtain ⟨before, a, after, rfl, placeable, defect⟩ := h
    exact arrange_of_misfit placeable defect

theorem Placeable.perm (h : Placeable vs gathered) (hperm : gathered'.Perm gathered) :
    Placeable vs gathered' :=
  ⟨fun a ha ↦ h.member a (hperm.subset ha), (hperm.map _).nodup_iff.2 h.nodup⟩

theorem laidOut_perm (h : Placeable vs gathered) (hperm : gathered'.Perm gathered) :
    laidOut vs gathered' = laidOut vs gathered := by
  apply congrArg mk
  apply List.map_congr_left
  intro v _
  apply Option.ext
  intro a
  rw [find?_named_eq_some_iff h.nodup, find?_named_eq_some_iff (h.perm hperm).nodup, hperm.mem_iff]

theorem filled_laidOut_iff (h : Placeable vs gathered) {i : Nat} {v : Validator} :
    vs.Filled (laidOut vs gathered) i v a ↔
      vs.members[i]? = some v ∧ a ∈ gathered ∧ a.validator = v.address := by
  rw [ValidatorSet.Filled, slots_laidOut]
  apply and_congr_right
  intro hv
  rw [hv, Option.map_some, Option.some.injEq, find?_named_eq_some_iff h.nodup]

/-- As many slots are filled as there are signatures: the members that have signed are those that
are named, in another order. -/
theorem signedCount_laidOut (h : Placeable vs gathered) :
    (laidOut vs gathered).signedCount = gathered.length := by
  have hsigned : ((vs.members.filter fun v ↦ v.address ∈ gathered.map (·.validator)).map
      (·.address)).Perm (gathered.map (·.validator)) := by
    refine (List.perm_ext_iff_of_nodup (vs.nodup.sublist (List.filter_sublist.map _)) h.nodup).2 ?_
    intro named
    constructor
    · intro hmem
      obtain ⟨v, hv, rfl⟩ := List.mem_map.1 hmem
      exact of_decide_eq_true (List.mem_filter.1 hv).2
    · intro hmem
      obtain ⟨a, ha, rfl⟩ := List.mem_map.1 hmem
      obtain ⟨v, hv, hnamed⟩ := List.mem_map.1 (h.member a ha)
      exact List.mem_map.2 ⟨v, List.mem_filter.2 ⟨hv, decide_eq_true (hnamed ▸ hmem)⟩, hnamed⟩
  have hlength := hsigned.length_eq
  rw [List.length_map, List.length_map, ← List.countP_eq_length_filter] at hlength
  rw [signedCount, laidOut, List.countP_map, ← hlength]
  apply List.countP_congr
  intro v _
  simp

/-- The names that stand in slots are, in their order, names of members. -/
theorem named_sublist {members : List Validator} {slots : List (Option Attestation)}
    (hlength : slots.length = members.length)
    (named : ∀ (i : Nat) v a, members[i]? = some v → slots[i]? = some (some a) →
      a.validator = v.address) :
    (slots.reduceOption.map (·.validator)).Sublist (members.map (·.address)) := by
  induction members generalizing slots with
  | nil =>
    rw [List.length_nil, List.length_eq_zero_iff] at hlength
    rw [hlength]
    exact .slnil
  | cons v members ih =>
    cases slots with
    | nil => exact List.nil_sublist _
    | cons slot slots =>
      have hrest := ih (Nat.succ.inj hlength) fun i w b hw hb ↦ named (i + 1) w b hw hb
      cases slot with
      | none =>
        rw [List.reduceOption_cons_of_none]
        exact hrest.cons _
      | some a =>
        rw [List.reduceOption_cons_of_some, List.map_cons, List.map_cons, named 0 v a rfl rfl]
        exact hrest.cons_cons _

theorem mem_present_iff : a ∈ s.present ↔ ∃ i : Nat, s.slots[i]? = some (some a) := by
  rw [present, List.reduceOption_mem_iff, List.mem_iff_getElem?]

theorem exists_slot_iff (size_eq : s.size = vs.size) {i : Nat} :
    (∃ slot, s.slots[i]? = some slot) ↔ ∃ v, vs.members[i]? = some v := by
  have hlength : s.slots.length = vs.members.length := size_eq
  simp only [List.getElem?_eq_some_iff, hlength]
  constructor
  · intro ⟨_, hi, _⟩
    exact ⟨_, hi, rfl⟩
  · intro ⟨_, hi, _⟩
    exact ⟨_, hlength ▸ hi, rfl⟩

/-- Where each signature stands in the slot of the validator it names, the layout is that of the
signatures in it. -/
theorem laidOut_present (size_eq : s.size = vs.size)
    (named : ∀ i v a, vs.Filled s i v a → a.validator = v.address) :
    Placeable vs s.present ∧ laidOut vs s.present = s := by
  have hnames : (s.present.map (·.validator)).Sublist vs.addresses :=
    named_sublist size_eq fun i v a hv ha ↦ named i v a ⟨hv, ha⟩
  have hnodup := vs.nodup.sublist hnames
  refine ⟨⟨fun a ha ↦ hnames.subset (List.mem_map_of_mem ha), hnodup⟩, ?_⟩
  apply ext_slots
  intro i
  rw [slots_laidOut]
  cases hv : vs.members[i]? with
  | none =>
    have hlength : s.slots.length ≤ i := Nat.le_trans (Nat.le_of_eq size_eq)
      (List.getElem?_eq_none_iff.1 hv)
    exact (List.getElem?_eq_none hlength).symm
  | some v =>
    obtain ⟨slot, hslot⟩ := (exists_slot_iff size_eq).2 ⟨v, hv⟩
    rw [hslot, Option.map_some, Option.some.injEq]
    apply Option.ext
    intro b
    rw [find?_named_eq_some_iff hnodup]
    constructor
    · intro h
      obtain ⟨hb, hnamed⟩ := h
      obtain ⟨j, hj⟩ := mem_present_iff.1 hb
      obtain ⟨w, hw⟩ := (exists_slot_iff size_eq).1 ⟨_, hj⟩
      have hsame := (named j w b ⟨hw, hj⟩).symm.trans hnamed
      obtain rfl := ValidatorSet.index_eq_of_address_eq hw hv hsame
      exact Option.some.inj (hslot.symm.trans hj)
    · rintro rfl
      exact ⟨mem_present_iff.2 ⟨i, hslot⟩, named i v b ⟨hv, hslot⟩⟩

theorem arrange_present {recover : Recovery} {threshold : PowerThreshold} {digest : Word}
    {power : UInt64} (accepted : vs.verifyBy recover threshold s digest = .ok power)
    (hperm : gathered.Perm s.present) : arrange vs gathered = .ok s := by
  obtain ⟨size_eq, authentic, _⟩ := ValidatorSet.verifyBy_eq_ok_iff.1 accepted
  have named : ∀ i v a, vs.Filled s i v a → a.validator = v.address :=
    fun i v a filled ↦ (ValidatorSet.authentic_slots_iff.1 authentic i v a filled).1
  obtain ⟨placeable, hlaidOut⟩ := laidOut_present size_eq named
  rw [arrange_of_placeable (placeable.perm hperm), laidOut_perm placeable hperm, hlaidOut]

/-- Signatures in the slots of the validators they name are refused only for whose they are. -/
theorem verifyBy_of_named {recover : Recovery} {threshold : PowerThreshold} {digest : Word}
    (size_eq : s.size = vs.size) (named : ∀ i v a, vs.Filled s i v a → a.validator = v.address)
    (refused : vs.verifyBy recover threshold s digest = .error e) :
    (∀ provided expected, e ≠ .lengthMismatch provided expected) ∧
    ∀ i expected found, e = .orderMismatch i expected found →
      ∃ v a, vs.Filled s i v a ∧ expected = v.address ∧ a.validator = v.address ∧
        recover digest a.signature = .ok found ∧ found ≠ v.address := by
  have verdict : ValidatorSet.Verdict recover vs threshold s digest _ :=
    ValidatorSet.verdict_verifyBy
  rw [refused] at verdict
  cases verdict with
  | mismatch size_ne => exact absurd size_eq size_ne
  | insufficient => exact ⟨nofun, nofun⟩
  | @faulty i v a _ _ filled _ fault =>
    have claimed := named i v a filled
    cases fault with
    | misplaced misnamed => exact absurd claimed misnamed
    | malformed => exact ⟨nofun, nofun⟩
    | swapped _ signed other =>
      refine ⟨nofun, ?_⟩
      intro _ _ _ heq
      cases heq
      exact ⟨v, a, filled, rfl, claimed, signed, other⟩
    | foreign => exact ⟨nofun, nofun⟩

/-- Signatures can be laid out just if they name members and no member twice, and in whatever order
they come, each is put into the slot of the validator it names. Otherwise the first that cannot be
placed is reported. What a set has accepted is laid out as it was. -/
theorem arrangement_exact (vs : ValidatorSet) (gathered : List Attestation) :
    ((∃ s, arrange vs gathered = .ok s) ↔ Placeable vs gathered) ∧
    (∀ s, arrange vs gathered = .ok s →
      s.size = vs.size ∧ s.signedCount = gathered.length ∧
      (∀ i v a, vs.Filled s i v a ↔
        vs.members[i]? = some v ∧ a ∈ gathered ∧ a.validator = v.address) ∧
      ∀ gathered', gathered'.Perm gathered → arrange vs gathered' = .ok s) ∧
    (∀ e, arrange vs gathered = .error e ↔ FirstMisfit vs gathered e) ∧
    (∀ recover threshold s digest power, vs.verifyBy recover threshold s digest = .ok power →
      gathered.Perm s.present → arrange vs gathered = .ok s) ∧
    ∀ recover threshold s digest e, arrange vs gathered = .ok s →
      vs.verifyBy recover threshold s digest = .error e →
      (∀ provided expected, e ≠ .lengthMismatch provided expected) ∧
      ∀ i expected found, e = .orderMismatch i expected found →
        ∃ v a, vs.Filled s i v a ∧ expected = v.address ∧ a.validator = v.address ∧
          recover digest a.signature = .ok found ∧ found ≠ v.address := by
  refine ⟨?_, ?_, fun e ↦ arrange_eq_error_iff, ?_, ?_⟩
  · constructor
    · intro h
      obtain ⟨s, h⟩ := h
      exact (arrange_eq_ok_iff.1 h).1
    · intro placeable
      exact ⟨_, arrange_of_placeable placeable⟩
  · intro s h
    obtain ⟨placeable, rfl⟩ := arrange_eq_ok_iff.1 h
    refine ⟨size_laidOut, signedCount_laidOut placeable, ?_, ?_⟩
    · intro i v a
      exact filled_laidOut_iff placeable
    · intro gathered' hperm
      rw [arrange_of_placeable (placeable.perm hperm), laidOut_perm placeable hperm]
  · intro recover threshold s digest power accepted hperm
    exact arrange_present accepted hperm
  · intro recover threshold s digest e h refused
    obtain ⟨placeable, rfl⟩ := arrange_eq_ok_iff.1 h
    refine verifyBy_of_named size_laidOut ?_ refused
    intro i v a filled
    exact ((filled_laidOut_iff placeable).1 filled).2.2

open ValidatorSet

/-- The first validator's name under the second validator's signature. -/
def borrowed : Attestation := ⟨FixedBytes.ofNat 20 1, (numbered 2).signature⟩

theorem arrangement_exact_lopsided :
    let all : PowerThreshold := ⟨10000, by decide, by decide⟩
    let digest := FixedBytes.zero 32
    let both : SignatureSet := ⟨[some (numbered 1), some (numbered 2)]⟩
    lopsided.verifyBy numberedSigner all both digest = .ok 18446744073709551615 ∧
      arrange lopsided [numbered 2, numbered 1] = .ok both ∧
      arrange lopsided [numbered 1, numbered 2] = .ok both ∧ both.signedCount = 2 ∧
      arrange lopsided [numbered 2, numbered 2, numbered 3] =
        .error (.duplicateSigner (FixedBytes.ofNat 20 2)) ∧
      arrange lopsided [borrowed] = .ok ⟨[some borrowed, none]⟩ ∧
      lopsided.verifyBy numberedSigner all ⟨[some borrowed, none]⟩ digest =
        .error (.orderMismatch 0 (FixedBytes.ofNat 20 1) (FixedBytes.ofNat 20 2)) ∧
      ∃ v a, lopsided.Filled ⟨[some borrowed, none]⟩ 0 v a ∧ a.validator = v.address ∧
        numberedSigner digest a.signature = .ok (FixedBytes.ofNat 20 2) := by
  intro all digest both
  have accepted : lopsided.verifyBy numberedSigner all both digest = .ok 18446744073709551615 := rfl
  have placed : arrange lopsided [borrowed] = .ok ⟨[some borrowed, none]⟩ := rfl
  have mistaken : lopsided.verifyBy numberedSigner all ⟨[some borrowed, none]⟩ digest =
      .error (.orderMismatch 0 (FixedBytes.ofNat 20 1) (FixedBytes.ofNat 20 2)) := rfl
  obtain ⟨_, orderless, _, returned, _⟩ := arrangement_exact lopsided [numbered 2, numbered 1]
  have arranged := returned _ _ both _ _ accepted (.swap _ _ _)
  obtain ⟨_, count, _, permuted⟩ := orderless both arranged
  obtain ⟨_, _, refused, _⟩ := arrangement_exact lopsided [numbered 2, numbered 2, numbered 3]
  obtain ⟨_, _, _, _, verified⟩ := arrangement_exact lopsided [borrowed]
  obtain ⟨_, blamed⟩ := verified _ _ _ _ _ placed mistaken
  obtain ⟨v, a, filled, _, named, signed, _⟩ := blamed _ _ _ rfl
  refine ⟨accepted, arranged, permuted _ (.swap _ _ _), count, (refused _).2 ?_, placed, mistaken,
    v, a, filled, named, signed⟩
  refine ⟨[numbered 2], numbered 2, [numbered 3], rfl, ⟨by decide, by decide⟩, ?_⟩
  exact .duplicate (by decide) (by decide)

end SignatureSet

end TokenBridge
