import TokenBridge.Json.Printer
import TokenBridge.Json.Scalar
import Mathlib.Data.List.TakeWhile

namespace TokenBridge.Json

theorem shorthand?_letter {c letter : Char} (h : Escape.letter? c = some letter) :
    letter ≠ 'u' ∧ shorthand? letter = some c := by
  have hall : ∀ p ∈ Escape.shorthands, p.2 ≠ 'u' ∧ shorthand? p.2 = some p.1 := by decide
  rw [Escape.letter?, Option.map_eq_some_iff] at h
  obtain ⟨p, hp, rfl⟩ := h
  obtain rfl : p.1 = c := of_decide_eq_true (List.find?_some hp :)
  exact hall p (List.mem_of_find?_eq_some hp)

theorem hexValue?_digitChar {n : Nat} (h : n < 32) :
    Escape.hexValue? ['0', '0', Hex.digitChar (n / 16), Hex.digitChar (n % 16)] = some n := by
  decide +revert

def piece (c : Char) : Piece :=
  if Escape.letter? c = none ∧ c.toNat < 32 then .unit c.toNat else .char c

theorem pieces?_escape (c : Char) (rest : List Char) :
    pieces? (escape c ++ rest) = (pieces? rest).map fun p ↦ (piece c :: p.1, p.2) := by
  unfold escape piece
  split
  · rename_i letter hletter
    obtain ⟨hne, hshort⟩ := shorthand?_letter hletter
    cases hrest : pieces? rest <;> simp [pieces?, hne, hshort, hletter, hrest]
  · rename_i hletter
    split
    · rename_i hlow
      have hvalue := hexValue?_digitChar hlow
      cases hrest : pieces? rest <;> simp [pieces?, hvalue, hletter, hlow, hrest]
    · rename_i hhigh
      have hquote : c ≠ '"' := by
        rintro rfl
        exact absurd hletter (by decide)
      have hslash : c ≠ '\\' := by
        rintro rfl
        exact absurd hletter (by decide)
      cases hrest : pieces? rest <;> simp [pieces?, hslash, hhigh, hrest]

theorem pieces?_flatMap_escape (s rest : List Char) :
    pieces? (s.flatMap escape ++ '"' :: rest) = some (s.map piece, rest) := by
  induction s with
  | nil => rfl
  | cons c s ih =>
    rw [List.flatMap_cons, List.append_assoc, pieces?_escape, ih]
    rfl

/-- A unit this low is no surrogate, whatever stands behind it. -/
theorem join?_unit {n : Nat} (h : n < 32) (rest : List Piece) :
    join? (.unit n :: rest) = (join? rest).map (Char.ofNat n :: ·) := by
  have hhigh : isHigh n = false := by simp [isHigh]; omega
  have hlow : isLow n = false := by simp [isLow]; omega
  rcases rest with _ | ⟨c | low, rest⟩ <;> simp [join?, hhigh, hlow]

theorem join?_map_piece (s : List Char) : join? (s.map piece) = some s := by
  induction s with
  | nil => rfl
  | cons c s ih =>
    rw [List.map_cons, piece]
    split
    · rename_i hc
      rw [join?_unit hc.2, ih, Option.map_some, Char.ofNat_toNat]
    · rw [join?, ih, Option.map_some]

theorem string?_quote (s : String) (rest : List Char) :
    string? (s.toList.flatMap escape ++ '"' :: rest) = some (some s, rest) := by
  simp only [string?, pieces?_flatMap_escape, Option.map_some, join?_map_piece,
    String.ofList_toList]

theorem quote_append (s : String) (rest : List Char) :
    quote (some s) ++ rest = '"' :: (s.toList.flatMap escape ++ '"' :: rest) := by
  rw [quote, List.cons_append, List.cons_append, List.append_assoc]
  rfl

/-- What may stand behind a document that is written without blanks. -/
inductive Follows : List Char → Prop
  | nil : Follows []
  | comma (rest : List Char) : Follows (',' :: rest)
  | bracket (rest : List Char) : Follows (']' :: rest)
  | brace (rest : List Char) : Follows ('}' :: rest)

theorem natOfDigits_toDigits (n : Nat) : natOfDigits (Nat.toDigits 10 n) = n :=
  Nat.ofDigitChars_ten_toDigits

theorem isDigit_of_mem_toDigits {n : Nat} {c : Char} (h : c ∈ Nat.toDigits 10 n) :
    isDigit c = true := by
  have hc := Nat.isDigit_of_mem_toDigits (by decide) (by decide) h
  rw [Char.isDigit, Bool.and_eq_true, decide_eq_true_iff, decide_eq_true_iff] at hc
  rw [isDigit, Bool.and_eq_true, decide_eq_true_iff, decide_eq_true_iff]
  exact hc

/-- Only zero is written with a zero in front. -/
theorem exists_toDigits_eq_cons (n : Nat) : ∃ c front,
    Nat.toDigits 10 n = c :: front ∧ isDigit c = true ∧ (0 < n → c ≠ '0') := by
  induction n using Nat.base_induction 10 (by decide) with
  | single d hd =>
    refine ⟨Nat.digitChar d, [], Nat.toDigits_of_lt_base hd, ?_⟩
    decide +revert
  | digit n d hd hn ih =>
    obtain ⟨c, front, hfront, hdigit, hzero⟩ := ih
    refine ⟨c, front ++ Nat.toDigits 10 d, ?_, hdigit, fun _ ↦ hzero hn⟩
    rw [← Nat.toDigits_append_toDigits (by decide) hn hd, hfront, List.cons_append]

theorem digits_append {found rest : List Char} (hfound : ∀ c ∈ found, isDigit c = true)
    (hrest : Follows rest) : digits (found ++ rest) = (found, rest) := by
  rw [digits, List.takeWhile_append_of_pos hfound, List.dropWhile_append_of_pos hfound]
  cases hrest <;> simp [isDigit]

theorem integer?_toDigits (n : Nat) {rest : List Char} (hrest : Follows rest) :
    integer? (Nat.toDigits 10 n ++ rest) = some (Nat.toDigits 10 n, rest) := by
  rcases Nat.eq_zero_or_pos n with rfl | hn
  · rfl
  · have hfound := digits_append (fun _ ↦ isDigit_of_mem_toDigits (n := n)) hrest
    obtain ⟨c, front, hfront, -, hzero⟩ := exists_toDigits_eq_cons n
    rw [hfront, List.cons_append] at hfound ⊢
    simp [integer?, hzero hn, hfound]

theorem numeral?_toDigits (n : Nat) {rest : List Char} (hrest : Follows rest) :
    numeral? (Nat.toDigits 10 n ++ rest) = some (nat n, rest) := by
  have hfraction : fraction rest = ([], rest) := by cases hrest <;> rfl
  have hexponent : exponent rest = ([], rest) := by cases hrest <;> rfl
  have hinteger := integer?_toDigits n hrest
  have hvalue := natOfDigits_toDigits n
  obtain ⟨c, front, hfront, hdigit, -⟩ := exists_toDigits_eq_cons n
  have hminus : c ≠ '-' := by
    rintro rfl
    cases hdigit
  rw [hfront] at hinteger hvalue ⊢
  rw [List.cons_append] at hinteger ⊢
  simp [numeral?, hminus, hinteger, hfraction, hexponent, hvalue]

end TokenBridge.Json
