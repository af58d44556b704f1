import TokenBridge.Proofs.Table
import TokenBridge.Proofs.Text.Numeral

namespace TokenBridge

open Numeral

namespace Hex

variable {position front n : Nat} {bytes digits : Bytes} {b : UInt8} {d : Nat}

theorem lt_of_digit? (h : digit? b = some d) : d < 16 := by
  unfold digit? at h
  grind

theorem digit?_eq : Numeral.digit? 16 (Char.ofNat b.toNat) = digit? b := by
  rw [digit?_ofNat_toNat, UInt256.digit?]
  cases h : digit? b with
  | none => rfl
  | some d => rw [Option.filter_some, if_pos (decide_eq_true (lt_of_digit? h))]

theorem valueFrom?_pair {high low : UInt8} :
    valueFrom? 16 front (Bytes.chars (high :: low :: digits)) =
      (digit? high).bind fun d ↦ (digit? low).bind fun e ↦
        valueFrom? 16 (16 * (16 * front + d) + e) (Bytes.chars digits) := by
  simp only [Bytes.chars, List.map_cons, valueFrom?_cons, digit?_eq]

theorem value_of_decodeFrom (front : Nat) (h : decodeFrom position digits = .ok bytes) :
    digits.length = 2 * bytes.length ∧
      valueFrom? 16 front (Bytes.chars digits) =
        some (front * Bytes.count bytes.length + Bytes.toNatBE bytes) := by
  fun_induction decodeFrom position digits generalizing front bytes with
  | case1 position =>
    cases h
    exact ⟨rfl, by simp [valueFrom?, Bytes.chars, Bytes.count, Bytes.toNatBE, Bytes.toNatLE]⟩
  | case2 => cases h
  | case3 => cases h
  | case4 => cases h
  | case5 position high low rest d e he hd ih =>
    cases hrest : decodeFrom (position + 2) rest with
    | error e =>
      rw [hrest] at h
      cases h
    | ok others =>
      rw [hrest] at h
      cases h
      obtain ⟨hlength, hvalue⟩ := ih (16 * (16 * front + d) + e) hrest
      have := lt_of_digit? hd
      have := lt_of_digit? he
      have hbyte : (UInt8.ofNat (16 * d + e)).toNat = 16 * d + e := by
        rw [UInt8.toNat_ofNat', Nat.mod_eq_of_lt (by omega)]
      have hsum : (16 * (16 * front + d) + e) * Bytes.count others.length =
          front * (256 * Bytes.count others.length) +
            (16 * d + e) * Bytes.count others.length := by ring
      refine ⟨by simp [hlength]; omega, ?_⟩
      rw [valueFrom?_pair, hd, he, Option.bind_some, Option.bind_some, hvalue, Bytes.toNatBE_cons,
        hbyte, hsum, List.length_cons, Bytes.count, Nat.add_assoc]

/-- An even number of digits can be taken two by two. -/
theorem exists_decodeFrom (heven : digits.length % 2 = 0)
    (h : valueFrom? 16 front (Bytes.chars digits) = some n) :
    ∃ bytes, decodeFrom position digits = .ok bytes := by
  fun_induction decodeFrom position digits generalizing front with
  | case1 position => exact ⟨[], rfl⟩
  | case2 => cases heven
  | case3 position high low rest hhigh =>
    rw [valueFrom?_pair, hhigh] at h
    cases h
  | case4 position high low rest d hlow hhigh =>
    rw [valueFrom?_pair, hhigh, hlow] at h
    cases h
  | case5 position high low rest d e hlow hhigh ih =>
    rw [valueFrom?_pair, hhigh, hlow] at h
    rw [List.length_cons, List.length_cons] at heven
    obtain ⟨others, hothers⟩ := ih (by omega) h
    rw [hothers]
    exact ⟨_, rfl⟩

def marks : List (List Char × Nat) := [([], 16), (['0', 'x'], 16), (['0', 'X'], 16)]

theorem stripMark_marked : Marked marks fun bytes ↦ (16, stripMark bytes) where
  ascii := by decide
  taken := by
    intro bytes
    dsimp only
    unfold stripMark
    split
    · exact ⟨['0', 'x'], by decide, rfl⟩
    · exact ⟨['0', 'X'], by decide, rfl⟩
    · exact ⟨[], by decide, rfl⟩
  split_mark := by
    intro m hm hne digits
    simp only [marks, List.mem_cons, List.not_mem_nil, or_false] at hm
    rcases hm with rfl | rfl | rfl
    · exact absurd rfl hne
    all_goals rfl

/-- No mark but the empty one could be read as hex digits. -/
theorem eq_nil_or_exists_of_mem_marks {m : List Char × Nat} (h : m ∈ marks) :
    m = ([], 16) ∨ ∃ c ∈ m.1, Numeral.digit? 16 c = none := by
  have hall : ∀ m ∈ marks,
      m = ([], 16) ∨ m.1.any (Numeral.digit? 16 · = none) = true := by decide
  simpa using hall m h

end Hex

namespace FixedBytes

variable {n : Nat} {a : FixedBytes n}

theorem ofHex_eq_ok_iff_of_stripMark {text : String} {digits : Bytes}
    (h : Hex.stripMark (Bytes.ofText text) = digits) :
    ofHex n text = .ok a ↔
      digits.length = 2 * n ∧ value? 16 (Bytes.chars digits) = some a.toNat := by
  rw [ofHex, h]
  by_cases hlength : digits.length = 2 * n
  · rw [if_neg (by omega), if_neg (not_not.2 hlength)]
    constructor
    · intro hread
      split at hread
      · cases hread
      · rename_i bytes hbytes
        split at hread
        · cases hread
          have hfound := (Hex.value_of_decodeFrom 0 hbytes).2
          rw [Nat.zero_mul, Nat.zero_add] at hfound
          exact ⟨hlength, hfound⟩
        · cases hread
    · intro hvalue
      obtain ⟨bytes, hbytes⟩ := Hex.exists_decodeFrom (by omega) hvalue.2
      obtain ⟨hdouble, hfound⟩ := Hex.value_of_decodeFrom 0 hbytes
      rw [Nat.zero_mul, Nat.zero_add] at hfound
      have hbound : bytes.length = n := by omega
      have hsame : (⟨bytes, hbound⟩ : FixedBytes n) = a :=
        toNat_injective (Option.some_inj.1 (hfound.symm.trans hvalue.2))
      rw [hbytes]
      dsimp only
      rw [dif_pos hbound, hsame]
  · refine iff_of_false (fun hread ↦ ?_) fun hvalue ↦ hlength hvalue.1
    split at hread
    · cases hread
    · cases hread

/-- Two digits for each byte, behind a mark or without one. -/
def Spelled (text : List Char) (a : FixedBytes n) : Prop :=
  ∃ mark radix digits, (mark, radix) ∈ Hex.marks ∧ text = mark ++ digits ∧
    digits.length = 2 * n ∧ value? radix digits = some a.toNat

theorem ofHex_eq_ok_iff {text : String} : ofHex n text = .ok a ↔ Spelled text.toList a := by
  rw [ofHex_eq_ok_iff_of_stripMark rfl, ← Bytes.length_chars]
  refine Hex.stripMark_marked.reads_iff
    (fun radix digits ↦ digits.length = 2 * n ∧ value? radix digits = some a.toNat) ?_ ?_ text
  · intro radix digits hdigits
    exact ascii_of_value? hdigits.2
  · intro radix digits hplain hdigits m hm
    obtain rfl : radix = 16 := by
      revert hplain
      simp [Hex.marks]
    rcases Hex.eq_nil_or_exists_of_mem_marks hm with hnil | ⟨c, hc, hdigit⟩
    · exact .inl hnil
    · exact .inr ⟨c, hc, not_mem_of_value? hdigits.2 hdigit⟩

end FixedBytes

end TokenBridge
