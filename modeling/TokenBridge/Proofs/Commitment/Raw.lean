import TokenBridge.Proofs.Commitment.Binding
import TokenBridge.Proofs.Validation

namespace TokenBridge.Commitment

variable {id : Bytes} {addresses : List Bytes} {powers : List UInt64} {nonce : UInt64}

theorem readAddresses_eq_ok_iff {index : Nat} {raws : List Bytes} {addresses : List Address} :
    readAddresses index raws = .ok addresses ↔ addresses.map (·.bytes) = raws := by
  induction raws generalizing index addresses with
  | nil =>
    rw [readAddresses, Except.ok.injEq, List.map_eq_nil_iff, eq_comm]
  | cons raw rest ih =>
    constructor
    · intro h
      rw [readAddresses] at h
      split at h
      · cases hrest : readAddresses (index + 1) rest with
        | error cause =>
          rw [hrest] at h
          cases h
        | ok later =>
          rw [hrest] at h
          cases h
          rw [List.map_cons, ih.1 hrest]
      · cases h
    · intro h
      obtain ⟨a, later, rfl, ha, hlater⟩ := List.map_eq_cons_iff.1 h
      subst ha
      rw [readAddresses, dif_pos a.length_bytes, ih.2 hlater]
      rfl

/-- Of raw addresses, the first of which has number `index`, the first of a wrong length is
reported. -/
def FirstMisfit (index : Nat) (raws : List Bytes) (e : DataError) : Prop :=
  ∃ before raw after, raws = before ++ raw :: after ∧ (∀ r ∈ before, r.length = 20) ∧
    raw.length ≠ 20 ∧ e = .invalidAddressLength (index + before.length) raw.length

theorem firstMisfit_cons {index : Nat} {first : Bytes} {rest : List Bytes} {e : DataError} :
    FirstMisfit index (first :: rest) e ↔
      (first.length ≠ 20 ∧ e = .invalidAddressLength index first.length) ∨
        (first.length = 20 ∧ FirstMisfit (index + 1) rest e) := by
  constructor
  · intro h
    obtain ⟨before, raw, after, hsplit, hbefore, hraw, he⟩ := h
    cases before with
    | nil =>
      obtain ⟨rfl, _⟩ := List.cons.inj hsplit
      exact .inl ⟨hraw, he⟩
    | cons r before =>
      obtain ⟨rfl, hrest⟩ := List.cons.inj hsplit
      obtain ⟨hfirst, hbefore⟩ := List.forall_mem_cons.1 hbefore
      refine .inr ⟨hfirst, before, raw, after, hrest, hbefore, hraw, ?_⟩
      rw [he, List.length_cons, Nat.add_right_comm, Nat.add_assoc]
  · intro h
    rcases h with ⟨hfirst, he⟩ | ⟨hfirst, before, raw, after, hrest, hbefore, hraw, he⟩
    · exact ⟨[], first, rest, rfl, nofun, hfirst, he⟩
    · have hsplit : first :: rest = (first :: before) ++ raw :: after := by
        rw [hrest]
        rfl
      refine ⟨first :: before, raw, after, hsplit, ?_, hraw, ?_⟩
      · exact List.forall_mem_cons.2 ⟨hfirst, hbefore⟩
      · rw [he, List.length_cons, Nat.add_right_comm, Nat.add_assoc]

theorem readAddresses_eq_error_iff {index : Nat} {raws : List Bytes} {e : DataError} :
    readAddresses index raws = .error e ↔ FirstMisfit index raws e := by
  induction raws generalizing index with
  | nil => simp [readAddresses, FirstMisfit]
  | cons first rest ih =>
    rw [firstMisfit_cons, readAddresses]
    by_cases hfirst : first.length = 20
    · have hmap : (readAddresses (index + 1) rest).map (⟨first, hfirst⟩ :: ·) = .error e ↔
          readAddresses (index + 1) rest = .error e := by
        cases readAddresses (index + 1) rest <;> simp [Except.map]
      rw [dif_pos hfirst, hmap, ih]
      simp [hfirst]
    · rw [dif_neg hfirst]
      simp [hfirst, eq_comm]

theorem rawCheckpoint_of_error {e : DataError} (h : BridgeId.ofBytes id = .error e) :
    rawCheckpoint id addresses powers nonce = .error e := by
  rw [rawCheckpoint, h]
  rfl

theorem rawCheckpoint_of_ok {bridge : BridgeId} (h : BridgeId.ofBytes id = .ok bridge) :
    rawCheckpoint id addresses powers nonce =
      if addresses.length = powers.length then
        (readAddresses 0 addresses).map fun list ↦
          keccak256 (checkpointFields bridge.word list powers nonce)
      else .error (.validatorArrayMismatch addresses.length powers.length) := by
  rw [rawCheckpoint, h, ← ite_not]
  cases readAddresses 0 addresses <;> rfl

theorem rawCheckpoint_eq_ok_iff {c : Word} :
    rawCheckpoint id addresses powers nonce = .ok c ↔
      ∃ bridge list, BridgeId.ofBytes id = .ok bridge ∧ list.map (·.bytes) = addresses ∧
        addresses.length = powers.length ∧
        keccak256 (checkpointFields bridge.word list powers nonce) = c := by
  constructor
  · intro h
    cases hid : BridgeId.ofBytes id with
    | error e =>
      rw [rawCheckpoint_of_error hid] at h
      cases h
    | ok bridge =>
      rw [rawCheckpoint_of_ok hid] at h
      split at h
      · rename_i hlength
        cases hread : readAddresses 0 addresses with
        | error e =>
          rw [hread] at h
          cases h
        | ok list =>
          rw [hread] at h
          exact ⟨bridge, list, rfl, readAddresses_eq_ok_iff.1 hread, hlength, Except.ok.inj h⟩
      · cases h
  · intro h
    obtain ⟨bridge, list, hid, hlist, hlength, hc⟩ := h
    rw [rawCheckpoint_of_ok hid, if_pos hlength, readAddresses_eq_ok_iff.2 hlist, Except.map, hc]

/-- What keeps raw values from being committed to. Of several defects the one that comes first here is
reported, and of several addresses the first. -/
inductive RawDefect (id : Bytes) (addresses : List Bytes) (powers : List UInt64) : DataError → Prop
  | longId (long : 32 < id.length) :
      RawDefect id addresses powers (.invalidBridgeIdLength id.length)
  | zeroId (short : id.length ≤ 32) (zero : ∀ b ∈ id, b = 0) :
      RawDefect id addresses powers .zeroBridgeId
  | unpaired (short : id.length ≤ 32) (named : ∃ b ∈ id, b ≠ 0)
      (length_ne : addresses.length ≠ powers.length) :
      RawDefect id addresses powers (.validatorArrayMismatch addresses.length powers.length)
  | address {before after : List Bytes} {raw : Bytes} (short : id.length ≤ 32)
      (named : ∃ b ∈ id, b ≠ 0) (length_eq : addresses.length = powers.length)
      (split : addresses = before ++ raw :: after) (first : ∀ r ∈ before, r.length = 20)
      (misfit : raw.length ≠ 20) :
      RawDefect id addresses powers (.invalidAddressLength before.length raw.length)

theorem rawCheckpoint_eq_error_iff {e : DataError} :
    rawCheckpoint id addresses powers nonce = .error e ↔ RawDefect id addresses powers e := by
  constructor
  · intro h
    cases hid : BridgeId.ofBytes id with
    | error cause =>
      rw [rawCheckpoint_of_error hid] at h
      cases h
      rcases BridgeId.ofBytes_eq_error_iff.1 hid with ⟨long, rfl⟩ | ⟨short, zero, rfl⟩
      · exact .longId long
      · exact .zeroId short zero
    | ok bridge =>
      obtain ⟨short, named⟩ := BridgeId.exists_ofBytes_iff.1 ⟨bridge, hid⟩
      rw [rawCheckpoint_of_ok hid] at h
      split at h
      · rename_i length_eq
        cases hread : readAddresses 0 addresses with
        | error cause =>
          rw [hread] at h
          cases h
          obtain ⟨before, raw, after, split, first, misfit, rfl⟩ :=
            readAddresses_eq_error_iff.1 hread
          rw [Nat.zero_add]
          exact .address short named length_eq split first misfit
        | ok list =>
          rw [hread] at h
          cases h
      · rename_i length_ne
        cases h
        exact .unpaired short named length_ne
  · intro defect
    cases defect with
    | longId long =>
      exact rawCheckpoint_of_error (BridgeId.ofBytes_eq_error_iff.2 (.inl ⟨long, rfl⟩))
    | zeroId short zero =>
      exact rawCheckpoint_of_error (BridgeId.ofBytes_eq_error_iff.2 (.inr ⟨short, zero, rfl⟩))
    | unpaired short named length_ne =>
      obtain ⟨bridge, hid⟩ := BridgeId.exists_ofBytes_iff.2 ⟨short, named⟩
      rw [rawCheckpoint_of_ok hid, if_neg length_ne]
    | @address before after raw short named length_eq split first misfit =>
      obtain ⟨bridge, hid⟩ := BridgeId.exists_ofBytes_iff.2 ⟨short, named⟩
      have hread : readAddresses 0 addresses =
          .error (.invalidAddressLength before.length raw.length) := by
        refine readAddresses_eq_error_iff.2 ⟨before, raw, after, split, first, misfit, ?_⟩
        rw [Nat.zero_add]
      rw [rawCheckpoint_of_ok hid, if_pos length_eq, hread]
      rfl

theorem exists_rawCheckpoint_iff :
    (∃ c, rawCheckpoint id addresses powers nonce = .ok c) ↔
      id.length ≤ 32 ∧ (∃ b ∈ id, b ≠ 0) ∧ addresses.length = powers.length ∧
        ∀ raw ∈ addresses, raw.length = 20 := by
  constructor
  · intro h
    obtain ⟨c, h⟩ := h
    obtain ⟨bridge, list, hid, rfl, hlength, _⟩ := rawCheckpoint_eq_ok_iff.1 h
    obtain ⟨short, named⟩ := BridgeId.exists_ofBytes_iff.1 ⟨bridge, hid⟩
    refine ⟨short, named, hlength, ?_⟩
    intro raw hraw
    obtain ⟨a, _, rfl⟩ := List.mem_map.1 hraw
    exact a.length_bytes
  · intro h
    obtain ⟨short, ⟨b, hb, hne⟩, hlength, hall⟩ := h
    cases h : rawCheckpoint id addresses powers nonce with
    | ok c => exact ⟨c, rfl⟩
    | error e =>
      cases rawCheckpoint_eq_error_iff.1 h with
      | longId long => omega
      | zeroId _ zero => exact absurd (zero b hb) hne
      | unpaired _ _ length_ne => exact absurd hlength length_ne
      | address _ _ _ split _ misfit =>
        refine absurd (hall _ ?_) misfit
        rw [split]
        exact List.mem_append_right _ List.mem_cons_self

theorem rawCheckpoint_zeros {base : Bytes} {m n : Nat} {c c' : Word}
    (h : rawCheckpoint (base ++ List.replicate m 0) addresses powers nonce = .ok c)
    (h' : rawCheckpoint (base ++ List.replicate n 0) addresses powers nonce = .ok c') : c = c' := by
  obtain ⟨bridge, list, hid, hlist, _, rfl⟩ := rawCheckpoint_eq_ok_iff.1 h
  obtain ⟨bridge', list', hid', hlist', _, rfl⟩ := rawCheckpoint_eq_ok_iff.1 h'
  have hlists : list = list' :=
    (List.map_inj_right fun _ _ ↦ FixedBytes.ext).1 (hlist.trans hlist'.symm)
  have hword : bridge.word = bridge'.word := by
    apply FixedBytes.ext
    rw [BridgeId.ofBytes_zeros hid, BridgeId.ofBytes_zeros hid']
  rw [hlists, hword]

/-- Raw values are committed to just if they can be read, and then as the values they are read
as. -/
theorem raw_checkpoints_agree (id : Bytes) (addresses : List Bytes) (powers : List UInt64)
    (nonce : UInt64) :
    ((∃ c, rawCheckpoint id addresses powers nonce = .ok c) ↔
      id.length ≤ 32 ∧ (∃ b ∈ id, b ≠ 0) ∧ addresses.length = powers.length ∧
        ∀ raw ∈ addresses, raw.length = 20) ∧
    (∀ e, rawCheckpoint id addresses powers nonce = .error e ↔ RawDefect id addresses powers e) ∧
    (∀ bridge list vs, BridgeId.ofBytes id = .ok bridge → list.map (·.bytes) = addresses →
      ValidatorSet.ofParts list powers = .ok vs →
      rawCheckpoint id addresses powers nonce = .ok (checkpoint bridge vs nonce)) ∧
    ∀ base m n c c', id = base ++ List.replicate m 0 →
      rawCheckpoint id addresses powers nonce = .ok c →
      rawCheckpoint (base ++ List.replicate n 0) addresses powers nonce = .ok c' → c = c' := by
  refine ⟨exists_rawCheckpoint_iff, fun e ↦ rawCheckpoint_eq_error_iff, ?_, ?_⟩
  · intro bridge list vs hid hlist hvs
    obtain ⟨haddresses, hpowers⟩ := ValidatorSet.parts_of_ok hvs
    have hlength : addresses.length = powers.length := by
      rw [← hlist, List.length_map, ← haddresses, ← hpowers, ValidatorSet.addresses,
        ValidatorSet.powers, List.length_map, List.length_map]
    refine rawCheckpoint_eq_ok_iff.2 ⟨bridge, list, hid, hlist, hlength, ?_⟩
    rw [checkpoint, checkpointPreimage, haddresses, hpowers]
  · rintro base m n c c' rfl h h'
    exact rawCheckpoint_zeros h h'

def lone : ValidatorSet where
  members := [⟨FixedBytes.ofNat 20 1, 5⟩]
  totalPower := 5
  members_ne_nil := by decide
  address_ne_zero := by decide
  power_ne_zero := by decide
  nodup := by decide
  toNat_totalPower := by decide

theorem raw_checkpoints_agree_lone :
    let id : BridgeId := ⟨⟨7 :: List.replicate 31 0, by decide⟩, by decide⟩
    let raws := lone.addresses.map (·.bytes)
    rawCheckpoint [7] raws [5] 3 = .ok (checkpoint id lone 3) ∧
      rawCheckpoint [7, 0, 0] raws [5] 3 = .ok (checkpoint id lone 3) ∧
      rawCheckpoint [7] (raws ++ [[1]]) [5, 6] 3 = .error (.invalidAddressLength 1 1) := by
  intro id raws
  obtain ⟨_, _, typed, zeros⟩ := raw_checkpoints_agree [7] raws [5] 3
  obtain ⟨succeeds, _⟩ := raw_checkpoints_agree [7, 0, 0] raws [5] 3
  obtain ⟨_, refused, _⟩ := raw_checkpoints_agree [7] (raws ++ [[1]]) [5, 6] 3
  have hid : BridgeId.ofBytes [7] = .ok id := BridgeId.ofBytes_eq_ok_iff.2 rfl
  have hset : ValidatorSet.ofParts lone.addresses [5] = .ok lone := by
    rw [ValidatorSet.ofParts, if_neg (by decide)]
    exact ValidatorSet.ofList_eq_ok_iff.2 rfl
  have hshort := typed id lone.addresses lone hid rfl hset
  obtain ⟨c, hlong⟩ := succeeds.2 (by decide)
  refine ⟨hshort, ?_, (refused _).2 ?_⟩
  · rw [hlong, zeros [7] 0 2 _ c rfl hshort hlong]
  · have split : raws ++ [[1]] = raws ++ [1] :: [] := rfl
    exact .address (by decide) (by decide) rfl split (by decide) (by decide)

end TokenBridge.Commitment
