import TokenBridge.Decimal
import TokenBridge.UInt256
import TokenBridge.Proofs.Text.Marks
import Mathlib.Tactic.Ring

namespace TokenBridge

namespace Numeral

def digit? (radix : Nat) (c : Char) : Option Nat := (Escape.hexDigit? c).filter (· < radix)

def valueFrom? (radix front : Nat) (digits : List Char) : Option Nat :=
  digits.foldlM (fun n c ↦ (digit? radix c).map (radix * n + ·)) front

def value? (radix : Nat) (digits : List Char) : Option Nat := valueFrom? radix 0 digits

variable {radix front n d : Nat} {c : Char} {digits : List Char}

theorem valueFrom?_cons :
    valueFrom? radix front (c :: digits) =
      (digit? radix c).bind fun d ↦ valueFrom? radix (radix * front + d) digits := by
  rw [valueFrom?, List.foldlM_cons]
  cases digit? radix c <;> rfl

theorem value?_concat :
    value? radix (digits ++ [c]) =
      (value? radix digits).bind fun n ↦ (digit? radix c).map (radix * n + ·) := by
  rw [value?, valueFrom?, List.foldlM_append]
  refine congrArg (Option.bind _) (funext fun n ↦ ?_)
  rw [List.foldlM_cons]
  cases digit? radix c <;> rfl

theorem le_of_valueFrom? (hradix : 0 < radix) (h : valueFrom? radix front digits = some n) :
    front ≤ n := by
  induction digits generalizing front with
  | nil =>
    cases h
    exact Nat.le_refl _
  | cons c rest ih =>
    rw [valueFrom?_cons, Option.bind_eq_some_iff] at h
    obtain ⟨d, _, h⟩ := h
    have hle := Nat.le_mul_of_pos_left front hradix
    have := ih h
    omega

theorem exists_digit_of_valueFrom? (h : valueFrom? radix front digits = some n) (hc : c ∈ digits) :
    ∃ d, digit? radix c = some d := by
  induction digits generalizing front with
  | nil => cases hc
  | cons first rest ih =>
    rw [valueFrom?_cons, Option.bind_eq_some_iff] at h
    obtain ⟨d, hd, h⟩ := h
    rcases List.mem_cons.1 hc with rfl | hc
    · exact ⟨d, hd⟩
    · exact ih h hc

theorem not_mem_of_value? (h : value? radix digits = some n) (hc : digit? radix c = none) :
    c ∉ digits := by
  intro hmem
  obtain ⟨d, hd⟩ := exists_digit_of_valueFrom? h hmem
  rw [hc] at hd
  cases hd

theorem hexDigit?_eq :
    Escape.hexDigit? c =
      if 48 ≤ c.toNat ∧ c.toNat ≤ 57 then some (c.toNat - 48)
      else if 97 ≤ c.toNat ∧ c.toNat ≤ 102 then some (c.toNat - 87)
      else if 65 ≤ c.toNat ∧ c.toNat ≤ 70 then some (c.toNat - 55)
      else none := rfl

theorem range_of_digit? (h : digit? radix c = some d) :
    (48 ≤ c.toNat ∧ c.toNat ≤ 57) ∨ (97 ≤ c.toNat ∧ c.toNat ≤ 102) ∨
      (65 ≤ c.toNat ∧ c.toNat ≤ 70) := by
  rw [digit?, Option.filter_eq_some_iff, hexDigit?_eq] at h
  grind

theorem ascii_of_value? (h : value? radix digits = some n) : Ascii digits := by
  intro c hc
  obtain ⟨d, hd⟩ := exists_digit_of_valueFrom? h hc
  have := range_of_digit? hd
  omega

theorem digit?_ofNat_toNat (b : UInt8) :
    digit? radix (Char.ofNat b.toNat) = UInt256.digit? radix b := by
  rw [digit?, hexDigit?_eq, Char.toNat_ofNat_toNat]
  rfl

end Numeral

open Numeral

namespace UInt256

variable {radix : Nat} {a : UInt256} {bytes : Bytes}

theorem fit_eq_ok_iff {n : Nat} : fit n = .ok a ↔ n = a.toNat := by
  unfold fit ofNat?
  constructor
  · intro h
    split at h
    · rename_i b hb
      cases h
      split at hb
      · cases hb
        rfl
      · cases hb
    · cases h
  · rintro rfl
    rw [dif_pos a.toNat_lt]

/-- A value that is too large at the end of a group does not get smaller behind it. -/
theorem readDecimal_eq_ok_iff {left value : Nat} :
    readDecimal left value bytes = .ok a ↔
      valueFrom? 10 value (Bytes.chars bytes) = some a.toNat := by
  induction bytes generalizing left value with
  | nil => exact fit_eq_ok_iff.trans (Option.some_inj).symm
  | cons b rest ih =>
    rw [Bytes.chars, List.map_cons, valueFrom?_cons, digit?_ofNat_toNat, readDecimal]
    cases hd : digit? 10 b with
    | none => simp
    | some d =>
      rw [Option.bind_some]
      cases left with
      | succ left => exact ih
      | zero =>
        dsimp only
        split
        · exact ih
        · rename_i hlarge
          refine iff_of_false (fun h ↦ by cases h) fun h ↦ hlarge ?_
          exact Nat.lt_of_le_of_lt (le_of_valueFrom? (by decide) h) a.toNat_lt

theorem readUpward_eq_ok_iff {weight value : Nat} :
    readUpward radix weight value bytes = .ok a ↔
      ∃ n, value? radix (Bytes.chars bytes.reverse) = some n ∧ value + n * weight = a.toNat := by
  induction bytes generalizing weight value with
  | nil =>
    rw [readUpward, fit_eq_ok_iff]
    simp [Bytes.chars, value?, valueFrom?]
  | cons b rest ih =>
    have hlast : value? radix (Bytes.chars (b :: rest).reverse) =
        (value? radix (Bytes.chars rest.reverse)).bind fun n ↦
          (digit? radix b).map (radix * n + ·) := by
      rw [List.reverse_cons, Bytes.chars_append, ← digit?_ofNat_toNat]
      exact value?_concat
    rw [hlast, readUpward]
    cases digit? radix b with
    | none => simp
    | some d =>
      have hsplit : ∀ m, value + (radix * m + d) * weight =
          value + d * weight + m * (radix * weight) := fun m ↦ by ring
      simp only [Option.map_some, Option.bind_eq_some_iff, Option.some_inj]
      split
      · rw [ih]
        constructor
        · intro h
          obtain ⟨m, hm, ha⟩ := h
          exact ⟨radix * m + d, ⟨m, hm, rfl⟩, (hsplit m).trans ha⟩
        · intro h
          obtain ⟨_, ⟨m, hm, rfl⟩, ha⟩ := h
          exact ⟨m, hm, (hsplit m).symm.trans ha⟩
      · rename_i hlarge
        refine iff_of_false (fun h ↦ by cases h) fun h ↦ hlarge ?_
        obtain ⟨_, ⟨m, _, rfl⟩, ha⟩ := h
        have := a.toNat_lt
        have := hsplit m
        omega

def radixMarks : List (List Char × Nat) :=
  [([], 10), (['0', 'x'], 16), (['0', 'X'], 16), (['0', 'o'], 8), (['0', 'O'], 8),
    (['0', 'b'], 2), (['0', 'B'], 2)]

theorem exists_mark_of_splitRadix (bytes : Bytes) :
    ∃ mark, (mark, (splitRadix bytes).1) ∈ radixMarks ∧
      bytes = Bytes.ofAscii mark ++ (splitRadix bytes).2 := by
  have hplain : ([], 10) ∈ radixMarks := List.mem_cons_self
  generalize h : splitRadix bytes = marked
  obtain ⟨radix, digits⟩ := marked
  dsimp only
  unfold splitRadix at h
  split at h
  · rename_i mark rest
    split at h
    · rename_i hmark
      cases h
      rcases hmark with rfl | rfl
      · exact ⟨['0', 'x'], by decide, rfl⟩
      · exact ⟨['0', 'X'], by decide, rfl⟩
    · split at h
      · rename_i hmark
        cases h
        rcases hmark with rfl | rfl
        · exact ⟨['0', 'o'], by decide, rfl⟩
        · exact ⟨['0', 'O'], by decide, rfl⟩
      · split at h
        · rename_i hmark
          cases h
          rcases hmark with rfl | rfl
          · exact ⟨['0', 'b'], by decide, rfl⟩
          · exact ⟨['0', 'B'], by decide, rfl⟩
        · cases h
          exact ⟨[], hplain, rfl⟩
  · cases h
    exact ⟨[], hplain, rfl⟩

theorem splitRadix_marked : Marked radixMarks splitRadix where
  ascii := by decide
  taken := exists_mark_of_splitRadix
  split_mark := by
    intro m hm hne digits
    simp only [radixMarks, List.mem_cons, List.not_mem_nil, or_false] at hm
    rcases hm with rfl | rfl | rfl | rfl | rfl | rfl | rfl
    · exact absurd rfl hne
    all_goals rfl

/-- No mark but the empty one could be read as decimal digits. -/
theorem eq_nil_or_exists_of_mem_radixMarks {m : List Char × Nat} (h : m ∈ radixMarks) :
    m = ([], 10) ∨ ∃ c ∈ m.1, c ≠ '_' ∧ Numeral.digit? 10 c = none := by
  have hall : ∀ m ∈ radixMarks,
      m = ([], 10) ∨ m.1.any (fun c ↦ c ≠ '_' && Numeral.digit? 10 c = none) = true := by decide
  simpa using hall m h

theorem chars_filter :
    Bytes.chars (bytes.filter (· ≠ 95)) = (Bytes.chars bytes).filter (· ≠ '_') := by
  have hscore : ∀ b : UInt8, Char.ofNat b.toNat = '_' ↔ b = 95 := by
    intro b
    rw [← Char.toNat_inj, Char.toNat_ofNat_toNat, ← UInt8.toNat_inj]
    rfl
  simp [Bytes.chars, List.filter_map, Function.comp_def, hscore]

theorem ascii_of_filter {text : List Char} (h : Ascii (text.filter (· ≠ '_'))) : Ascii text := by
  intro c hc
  by_cases hscore : c = '_'
  · rw [hscore]
    decide
  · exact h c (List.mem_filter.2 ⟨hc, decide_eq_true hscore⟩)

theorem ofText_eq_ok_iff_of_splitRadix {text : String} {digits : Bytes}
    (h : splitRadix (Bytes.ofText text) = (radix, digits)) :
    ofText text = .ok a ↔
      value? radix ((Bytes.chars digits).filter (· ≠ '_')) = some a.toNat := by
  rw [← chars_filter, ofText, h]
  dsimp only
  split
  · rename_i hradix
    rw [hradix]
    exact readDecimal_eq_ok_iff
  · rw [readUpward_eq_ok_iff, List.reverse_reverse]
    simp

/-- Digits behind a mark, and underscores that do not count. No digits at all write zero. -/
def Spelled (text : List Char) (a : UInt256) : Prop :=
  ∃ mark radix digits, (mark, radix) ∈ radixMarks ∧ text = mark ++ digits ∧
    value? radix (digits.filter (· ≠ '_')) = some a.toNat

theorem ofText_eq_ok_iff {text : String} : ofText text = .ok a ↔ Spelled text.toList a := by
  rw [ofText_eq_ok_iff_of_splitRadix rfl]
  refine splitRadix_marked.reads_iff
    (fun radix digits ↦ value? radix (digits.filter (· ≠ '_')) = some a.toNat) ?_ ?_ text
  · intro radix digits hvalue
    exact ascii_of_filter (ascii_of_value? hvalue)
  · intro radix digits hplain hvalue m hm
    obtain rfl : radix = 10 := by
      revert hplain
      simp [radixMarks]
    rcases eq_nil_or_exists_of_mem_radixMarks hm with hnil | ⟨c, hc, hscore, hdigit⟩
    · exact .inl hnil
    · refine .inr ⟨c, hc, fun hin ↦ ?_⟩
      exact not_mem_of_value? hvalue hdigit (List.mem_filter.2 ⟨hin, decide_eq_true hscore⟩)

end UInt256

namespace Decimal

variable {c : Char} {n : UInt64} {text : List Char}

theorem digit?_eq : digit? c = Numeral.digit? 10 c := by
  have hdigit : digit? c = if 48 ≤ c.toNat ∧ c.toNat ≤ 57 then some (c.toNat - 48) else none := rfl
  rw [hdigit, Numeral.digit?, hexDigit?_eq]
  grind

theorem readDigits_eq_ok_iff {value : Nat} (hvalue : value < UInt64.size) :
    readDigits value text = .ok n ↔ valueFrom? 10 value text = some n.toNat := by
  induction text generalizing value with
  | nil =>
    have hn : (UInt64.ofNat value).toNat = value := UInt64.toNat_ofNat_of_lt' hvalue
    rw [readDigits, valueFrom?, List.foldlM_nil, Except.ok.injEq, ← UInt64.toNat_inj, hn]
    exact (Option.some_inj).symm
  | cons c rest ih =>
    rw [valueFrom?_cons, readDigits, digit?_eq]
    cases Numeral.digit? 10 c with
    | none => simp
    | some d =>
      rw [Option.bind_some]
      dsimp only
      split
      · rename_i hsmall
        exact ih hsmall
      · rename_i hlarge
        refine iff_of_false (fun h ↦ by cases h) fun h ↦ hlarge ?_
        exact Nat.lt_of_le_of_lt (le_of_valueFrom? (by decide) h) n.toNat_lt

/-- The texts that are read as a 64-bit number: at least one digit, with at most a plus sign in
front. -/
def Spelled (text : List Char) (n : UInt64) : Prop :=
  ∃ sign digits, sign ∈ [[], ['+']] ∧ digits ≠ [] ∧ text = sign ++ digits ∧
    value? 10 digits = some n.toNat

theorem spelled_plus_iff : Spelled ('+' :: text) n ↔ text ≠ [] ∧ value? 10 text = some n.toNat := by
  constructor
  · intro h
    obtain ⟨sign, digits, hsign, hdigits, htext, hvalue⟩ := h
    rcases List.mem_pair.1 hsign with rfl | rfl
    · rw [List.nil_append] at htext
      rw [← htext, value?, valueFrom?_cons] at hvalue
      cases hvalue
    · cases htext
      exact ⟨hdigits, hvalue⟩
  · intro h
    exact ⟨['+'], text, by decide, h.1, rfl, h.2⟩

theorem spelled_iff_of_ne (hsign : ∀ rest, text ≠ '+' :: rest) :
    Spelled text n ↔ text ≠ [] ∧ value? 10 text = some n.toNat := by
  constructor
  · intro h
    obtain ⟨sign, digits, hmem, hdigits, htext, hvalue⟩ := h
    rcases List.mem_pair.1 hmem with rfl | rfl
    · exact htext ▸ ⟨hdigits, hvalue⟩
    · exact absurd htext (hsign digits)
  · intro h
    exact ⟨[], text, by decide, h.1, rfl, h.2⟩

theorem readUInt64_eq_ok_iff {text : String} :
    readUInt64 text = .ok n ↔ Spelled text.toList n := by
  unfold readUInt64
  split
  · rename_i htext
    rw [htext, spelled_iff_of_ne (fun rest h ↦ by cases h)]
    simp
  · rename_i htext
    rw [htext, spelled_plus_iff]
    simp
  · rename_i rest hne htext
    rw [htext, spelled_plus_iff, readDigits_eq_ok_iff (by decide)]
    exact ⟨fun h ↦ ⟨hne, h⟩, And.right⟩
  · rename_i hempty hplus hrest
    rw [spelled_iff_of_ne hrest, readDigits_eq_ok_iff (by decide)]
    exact ⟨fun h ↦ ⟨hempty, h⟩, And.right⟩

end Decimal

end TokenBridge
