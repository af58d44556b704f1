import TokenBridge.Borsh.States
import TokenBridge.Proofs.Borsh.Recovery
import TokenBridge.Proofs.Validation

namespace TokenBridge.Borsh.Format

variable {α β : Type} {f : Format α} {g : Format β} {P : α → Prop} {Q : β → Prop}

theorem append_of_take? {count : Nat} {input front rest : Bytes}
    (h : take? count input = some (front, rest)) : front ++ rest = input := by
  induction count generalizing input front with
  | zero =>
    cases h
    rfl
  | succ count ih =>
    cases input with
    | nil => cases h
    | cons b input =>
      simp only [take?, Option.map_eq_some_iff, Prod.mk.injEq, Prod.exists] at h
      obtain ⟨front', rest', h', rfl, rfl⟩ := h
      rw [List.cons_append, ih h']

/-- The bytes of a number are the only ones of their length that stand for it. -/
theorem ofNatLE_of_take? {count : Nat} {input front rest : Bytes}
    (h : take? count input = some (front, rest)) :
    Bytes.toNatLE front < Bytes.count count ∧
      Bytes.ofNatLE count (Bytes.toNatLE front) ++ rest = input := by
  obtain rfl := length_take? h
  refine ⟨Bytes.toNatLE_lt front, ?_⟩
  rw [Bytes.ofNatLE_toNatLE, append_of_take? h]

theorem pair_eq_ok_iff {input rest : Bytes} {p : α × β} :
    (f.pair g).decode input = .ok (p, rest) ↔
      ∃ between, f.decode input = .ok (p.1, between) ∧ g.decode between = .ok (p.2, rest) := by
  simp only [pair]
  cases f.decode input with
  | error e => simp
  | ok first =>
    obtain ⟨a, between⟩ := first
    dsimp only
    constructor
    · intro h
      split at h
      · cases h
      · rename_i b rest' hb
        cases h
        exact ⟨between, rfl, hb⟩
    · rintro ⟨_, ⟨⟩, hb⟩
      simp only [hb]

theorem decodeAs_eq_ok_iff {build : α → β} {input rest : Bytes} {b : β} :
    f.decodeAs build input = .ok (b, rest) ↔ ∃ a, f.decode input = .ok (a, rest) ∧ build a = b := by
  simp only [decodeAs]
  cases f.decode input with
  | error e => simp
  | ok found =>
    obtain ⟨a, rest'⟩ := found
    constructor
    · intro h
      cases h
      exact ⟨a, rfl, rfl⟩
    · rintro ⟨_, ⟨⟩, rfl⟩
      rfl

theorem checked_eq_ok_iff {ε : Type} {check : α → Except ε β} {raw : β → α} {message : ε → String}
    {input rest : Bytes} {b : β} :
    (f.checked check raw message).decode input = .ok (b, rest) ↔
      ∃ a, f.decode input = .ok (a, rest) ∧ check a = .ok b := by
  simp only [checked]
  cases f.decode input with
  | error e => simp
  | ok found =>
    obtain ⟨a, rest'⟩ := found
    dsimp only
    constructor
    · intro h
      split at h
      · cases h
      · rename_i b' hb
        cases h
        exact ⟨a, rfl, hb⟩
    · rintro ⟨_, ⟨⟩, hb⟩
      simp only [hb]

/-- What can be written comes back from its encoding, and nothing else does: whatever is read can be
written, and stood in front of the rest just as it is written. -/
structure Canonical (f : Format α) (P : α → Prop) : Prop where
  recovers : ∀ {a}, P a → f.Recovers a
  consumes : ∀ {input a rest}, f.decode input = .ok (a, rest) → P a ∧ f.encode a ++ rest = input

abbrev Total (f : Format α) : Prop := f.Canonical fun _ ↦ True

namespace Canonical

theorem of_iff {P' : α → Prop} (h : f.Canonical P) (hP : ∀ a, P a ↔ P' a) : f.Canonical P' where
  recovers ha := h.recovers ((hP _).2 ha)
  consumes hd := (h.consumes hd).imp_left (hP _).1

theorem pair (hf : f.Canonical P) (hg : g.Canonical Q) :
    (f.pair g).Canonical fun p ↦ P p.1 ∧ Q p.2 where
  recovers hp := (hf.recovers hp.1).pair (hg.recovers hp.2)
  consumes {input p rest} hd := by
    obtain ⟨between, hfirst, hsecond⟩ := pair_eq_ok_iff.1 hd
    obtain ⟨hp, happend⟩ := hf.consumes hfirst
    obtain ⟨hq, rfl⟩ := hg.consumes hsecond
    refine ⟨⟨hp, hq⟩, ?_⟩
    rw [Format.pair, List.append_assoc, happend]

theorem via {build : α → β} {raw : β → α} (h : f.Canonical P) (hb : ∀ b, build (raw b) = b)
    (ha : ∀ a, raw (build a) = a) : (f.via build raw).Canonical fun b ↦ P (raw b) where
  recovers hp := (h.recovers hp).via (hb _)
  consumes {input b rest} hd := by
    obtain ⟨a, hdecode, rfl⟩ := decodeAs_eq_ok_iff.1 hd
    have hconsumes := h.consumes hdecode
    rw [← ha a] at hconsumes
    exact hconsumes

theorem checked {ε : Type} {check : α → Except ε β} {raw : β → α} {message : ε → String}
    (h : f.Canonical P) (hcheck : ∀ {a b}, check a = .ok b ↔ raw b = a) :
    (f.checked check raw message).Canonical fun b ↦ P (raw b) where
  recovers {b} hp rest := by
    have hb : check (raw b) = .ok b := hcheck.2 rfl
    simp only [Format.checked, h.recovers hp rest, hb]
  consumes {input b rest} hd := by
    obtain ⟨a, hdecode, hb⟩ := checked_eq_ok_iff.1 hd
    obtain rfl := hcheck.1 hb
    exact h.consumes hdecode

theorem decodeMany (h : f.Canonical P) {count : Nat} {input rest : Bytes} {as : List α}
    (hd : f.decodeMany count input = .ok (as, rest)) :
    as.length = count ∧ (∀ a ∈ as, P a) ∧ as.flatMap f.encode ++ rest = input := by
  induction count generalizing input as with
  | zero =>
    cases hd
    exact ⟨rfl, List.forall_mem_nil _, rfl⟩
  | succ count ih =>
    simp only [Format.decodeMany] at hd
    split at hd
    · cases hd
    · rename_i a between hfirst
      split at hd
      · cases hd
      · rename_i later rest' hlater
        cases hd
        obtain ⟨ha, rfl⟩ := h.consumes hfirst
        obtain ⟨hlength, hall, happend⟩ := ih hlater
        refine ⟨congrArg (· + 1) hlength, List.forall_mem_cons.2 ⟨ha, hall⟩, ?_⟩
        rw [List.flatMap_cons, List.append_assoc, happend]

end Canonical

/-- Whole inputs are read if they are encodings, and then as the value that they encode. No encoding
is another one with something behind it. -/
structure SelfDelimiting (f : Format α) (P : α → Prop) : Prop where
  read_encode : ∀ a, P a → f.read (f.encode a) = .ok a
  encode_of_read : ∀ input a, f.read input = .ok a → f.encode a = input
  part_refused : ∀ a, P a → ∀ front rest, rest ≠ [] → f.encode a = front ++ rest →
    ∃ e, f.read front = .error e
  excess_refused : ∀ a, P a → ∀ rest, rest ≠ [] → f.read (f.encode a ++ rest) = .error .leftOver

theorem decode_of_read {input : Bytes} {a : α} (h : f.read input = .ok a) :
    f.decode input = .ok (a, []) := by
  unfold read at h
  split at h
  · cases h
  · cases h
    assumption
  · cases h

theorem Canonical.selfDelimiting (h : f.Canonical P) : f.SelfDelimiting P where
  read_encode a ha := (h.recovers ha).read_encode
  encode_of_read input a hread := by
    have happend := (h.consumes (decode_of_read hread)).2
    rwa [List.append_nil] at happend
  part_refused a ha front rest hrest hencode := by
    cases hread : f.read front with
    | error e => exact ⟨e, rfl⟩
    | ok a' =>
      -- the part would be an encoding of its own, behind which decoding stops
      obtain ⟨ha', hfront⟩ := h.consumes (decode_of_read hread)
      rw [List.append_nil] at hfront
      have hpart := h.recovers ha' rest
      have hwhole := h.recovers ha []
      rw [hfront, ← hencode] at hpart
      rw [List.append_nil, hpart] at hwhole
      cases hwhole
      exact absurd rfl hrest
  excess_refused a ha rest hrest := by
    obtain ⟨b, rest, rfl⟩ := List.exists_cons_of_ne_nil hrest
    rw [read, h.recovers ha]

theorem byte_total : byte.Total where
  recovers _ _ := rfl
  consumes {input b rest} hd := by
    cases input with
    | nil => cases hd
    | cons b' input =>
      cases hd
      exact ⟨trivial, rfl⟩

theorem fixed_total (n : Nat) : (fixed n).Total where
  recovers _ := fixed_recovers _
  consumes {input a rest} hd := by
    simp only [fixed] at hd
    split at hd
    · cases hd
    · rename_i front rest' htake
      cases hd
      exact ⟨trivial, append_of_take? htake⟩

theorem uint32_total : uint32.Total where
  recovers _ := uint32_recovers _
  consumes {input n rest} hd := by
    simp only [uint32] at hd
    split at hd
    · cases hd
    · rename_i front rest' htake
      cases hd
      obtain ⟨hlt, happend⟩ := ofNatLE_of_take? htake
      rw [← UInt32.toNat_ofNat_of_lt' hlt] at happend
      exact ⟨trivial, happend⟩

theorem uint64_total : uint64.Total where
  recovers _ := uint64_recovers _
  consumes {input n rest} hd := by
    simp only [uint64] at hd
    split at hd
    · cases hd
    · rename_i front rest' htake
      cases hd
      obtain ⟨hlt, happend⟩ := ofNatLE_of_take? htake
      rw [← UInt64.toNat_ofNat_of_lt' hlt] at happend
      exact ⟨trivial, happend⟩

theorem uint256_total : uint256.Total where
  recovers _ := uint256_recovers _
  consumes {input n rest} hd := by
    simp only [uint256] at hd
    split at hd
    · cases hd
    · rename_i front rest' htake
      cases hd
      exact ⟨trivial, (ofNatLE_of_take? htake).2⟩

theorem Canonical.list (h : f.Canonical P) :
    f.list.Canonical fun as ↦ as.length < UInt32.size ∧ ∀ a ∈ as, P a where
  recovers has := .list has.1 fun a ha ↦ h.recovers (has.2 a ha)
  consumes {input as rest} hd := by
    simp only [Format.list] at hd
    split at hd
    · cases hd
    · rename_i count between hcount
      obtain ⟨hlength, hall, rfl⟩ := h.decodeMany hd
      obtain ⟨_, rfl⟩ := uint32_total.consumes hcount
      refine ⟨⟨hlength ▸ count.toNat_lt, hall⟩, ?_⟩
      simp only [Format.list, hlength, UInt32.ofNat_toNat, List.append_assoc]

theorem Canonical.option (h : f.Canonical P) : f.option.Canonical fun o ↦ ∀ a ∈ o, P a where
  recovers {o} ho rest := by
    cases o with
    | none => rfl
    | some a =>
      have ha := h.recovers (ho a rfl) rest
      have htag : (1 : UInt8) ≠ 0 := by decide
      simp only [Format.option, List.cons_append, if_neg htag, if_true, ha]
  consumes {input o rest} hd := by
    cases input with
    | nil => cases hd
    | cons tag input =>
      simp only [Format.option] at hd
      split at hd
      · rename_i htag
        cases hd
        exact ⟨nofun, by rw [htag]; rfl⟩
      · split at hd
        · rename_i htag
          split at hd
          · cases hd
          · rename_i a rest' ha
            cases hd
            obtain ⟨hp, rfl⟩ := h.consumes ha
            refine ⟨fun a' ha' ↦ Option.some.inj ha' ▸ hp, by rw [htag]; rfl⟩
        · cases hd

/-- Cases that are told apart by a byte. -/
theorem oneOf_total [DecidableEq α] {cases : List α} (hmem : ∀ a, a ∈ cases)
    (hnodup : cases.Nodup) (hlength : cases.length ≤ 256) : (oneOf cases).Total where
  recovers {a} _ rest := by
    have hlt : cases.idxOf a < cases.length := List.idxOf_lt_length_of_mem (hmem a)
    have htag : (UInt8.ofNat (cases.idxOf a)).toNat = cases.idxOf a :=
      UInt8.toNat_ofNat_of_lt' (Nat.lt_of_lt_of_le hlt hlength)
    have hcase : cases[cases.idxOf a]? = some a := by
      rw [List.getElem?_eq_getElem hlt, List.getElem_idxOf hlt]
    simp only [oneOf, List.singleton_append, htag, hcase]
  consumes {input a rest} hd := by
    rcases input with _ | ⟨tag, input⟩
    · cases hd
    · simp only [oneOf] at hd
      split at hd
      · rename_i a' ha
        cases hd
        obtain ⟨hlt, rfl⟩ := List.getElem?_eq_some_iff.1 ha
        refine ⟨trivial, ?_⟩
        simp only [oneOf, hnodup.idxOf_getElem, UInt8.ofNat_toNat, List.singleton_append]
      · cases hd

end TokenBridge.Borsh.Format
