import TokenBridge.CommandLine.Values
import TokenBridge.Proofs.Text.Hex

namespace TokenBridge

open Numeral

theorem mapError_eq_ok_iff {ε ε' α : Type} {f : ε → ε'} {outcome : Except ε α} {a : α} :
    outcome.mapError f = .ok a ↔ outcome = .ok a := by
  cases outcome with
  | error e => exact iff_of_false (fun h ↦ by cases h) fun h ↦ by cases h
  | ok b => simp [Except.mapError]

theorem bind_eq_ok_iff {ε α β : Type} {outcome : Except ε α} {f : α → Except ε β} {b : β} :
    (outcome >>= f) = .ok b ↔ ∃ a, outcome = .ok a ∧ f a = .ok b := by
  cases outcome with
  | error e => simp [bind, Except.bind]
  | ok a => simp [bind, Except.bind]

theorem FixedBytes.Spelled.colon_not_mem {n : Nat} {a : FixedBytes n} {text : List Char}
    (h : Spelled text a) : ':' ∉ text := by
  obtain ⟨mark, radix, digits, hmark, rfl, _, hvalue⟩ := h
  have hall : ∀ m ∈ Hex.marks, ':' ∉ m.1 := by decide
  rw [List.mem_append, not_or]
  exact ⟨hall _ hmark, not_mem_of_value? hvalue rfl⟩

namespace UInt256

variable {a : UInt256} {text : List Char}

theorem Spelled.colon_not_mem (h : Spelled text a) : ':' ∉ text := by
  obtain ⟨mark, radix, digits, hmark, rfl, hvalue⟩ := h
  have hall : ∀ m ∈ radixMarks, ':' ∉ m.1 := by decide
  have hkept : ':' ∉ digits.filter (· ≠ '_') := not_mem_of_value? hvalue rfl
  rw [List.mem_append, not_or]
  exact ⟨hall _ hmark, fun hcolon ↦ hkept (List.mem_filter.2 ⟨hcolon, by decide⟩)⟩

/-- An empty text is read as zero. -/
theorem spelled_nil_iff : Spelled [] a ↔ a = zero := by
  constructor
  · intro h
    obtain ⟨mark, radix, digits, _, htext, hvalue⟩ := h
    rw [(List.append_eq_nil_iff.1 htext.symm).2] at hvalue
    exact ext (Option.some_inj.1 hvalue).symm
  · rintro rfl
    exact ⟨[], 10, [], List.mem_cons_self, rfl, rfl⟩

end UInt256

namespace CommandLine

theorem readAddress_eq_ok_iff {text : String} {a : Address} :
    readAddress text = .ok a ↔ FixedBytes.Spelled text.toList a :=
  mapError_eq_ok_iff.trans FixedBytes.ofHex_eq_ok_iff

theorem fields_eq_splitOn (text : List Char) : fields text = text.splitOn ':' := by
  induction text with
  | nil => rfl
  | cons c rest ih =>
    rw [fields, List.splitOn_cons_eq_if_modifyHead, ih]
    by_cases hcolon : c = ':'
    · simp [hcolon]
    · cases hparts : rest.splitOn ':' with
      | nil => exact absurd hparts (List.splitOn_ne_nil ':' rest)
      | cons part parts => simp [hcolon]

theorem fields_append (front rest : List Char) :
    fields (front ++ ':' :: rest) = fields front ++ fields rest := by
  rw [fields_eq_splitOn, fields_eq_splitOn, fields_eq_splitOn, List.splitOn_append_cons_self]

theorem exists_fields_eq_cons (text : List Char) : ∃ part parts, fields text = part :: parts := by
  rw [fields_eq_splitOn]
  exact List.exists_cons_of_ne_nil (List.splitOn_ne_nil ':' text)

theorem intercalate_fields (text : List Char) : [':'].intercalate (fields text) = text := by
  rw [fields_eq_splitOn, List.intercalate_splitOn]

theorem eq_of_fields_singleton {text part : List Char} (h : fields text = [part]) :
    text = part := by
  simpa [h] using (intercalate_fields text).symm

theorem eq_of_fields_triple {first second third text : List Char}
    (h : fields text = [first, second, third]) :
    text = first ++ ':' :: (second ++ ':' :: third) := by
  simpa [h] using (intercalate_fields text).symm

theorem fields_triple {first second third : List Char} (hfirst : ':' ∉ first)
    (hsecond : ':' ∉ second) (hthird : ':' ∉ third) :
    fields (first ++ ':' :: (second ++ ':' :: third)) = [first, second, third] := by
  rw [fields_eq_splitOn, List.splitOn_append_cons_self_of_not_mem hfirst,
    List.splitOn_append_cons_self_of_not_mem hsecond, List.splitOn_eq_singleton hthird]

/-- A destination, an amount and a fee with colons between them, where the amount and the fee are
written as `numeral` says. -/
def PayoutText (numeral : List Char → UInt256 → Prop) (text : List Char) (p : Payout) : Prop :=
  ∃ destination amount fee, text = destination ++ ':' :: (amount ++ ':' :: fee) ∧
    FixedBytes.Spelled destination p.destination ∧ numeral amount p.amount ∧ numeral fee p.fee

variable {text : String}

theorem readPayout_eq_ok_iff {p : Payout} :
    readPayout text = .ok p ↔ PayoutText UInt256.Spelled text.toList p := by
  unfold readPayout
  constructor
  · intro h
    split at h
    · rename_i destination amount fee hfields
      simp only [bind_eq_ok_iff, mapError_eq_ok_iff, readAddress_eq_ok_iff, UInt256.ofText_eq_ok_iff,
        String.toList_ofList] at h
      obtain ⟨a, ha, f, hf, d, hd, hp⟩ := h
      cases hp
      exact ⟨destination, amount, fee, eq_of_fields_triple hfields, hd, ha, hf⟩
    · cases h
  · intro h
    obtain ⟨destination, amount, fee, htext, hd, ha, hf⟩ := h
    rw [htext, fields_triple hd.colon_not_mem ha.colon_not_mem hf.colon_not_mem]
    simp only [bind_eq_ok_iff, mapError_eq_ok_iff, readAddress_eq_ok_iff, UInt256.ofText_eq_ok_iff,
      String.toList_ofList]
    exact ⟨_, ha, _, hf, _, hd, rfl⟩

def ValidatorText (text : List Char) (v : Validator) : Prop :=
  ∃ address power, text = address ++ ':' :: power ∧ FixedBytes.Spelled address v.address ∧
    Decimal.Spelled power v.power

theorem split_at_colon {address : List Char} (h : ':' ∉ address) (power : List Char) :
    (address ++ ':' :: power).takeWhile (· ≠ ':') = address ∧
      (address ++ ':' :: power).dropWhile (· ≠ ':') = ':' :: power := by
  have hall : ∀ c ∈ address, decide (c ≠ ':') = true :=
    fun c hc ↦ decide_eq_true fun hcolon ↦ h (hcolon ▸ hc)
  rw [List.takeWhile_append_of_pos hall, List.dropWhile_append_of_pos hall]
  simp

theorem readValidator_eq_ok_iff {v : Validator} :
    readValidator text = .ok v ↔ ValidatorText text.toList v := by
  unfold readValidator
  constructor
  · intro h
    split at h
    · cases h
    · rename_i c power hpower
      simp only [bind_eq_ok_iff, mapError_eq_ok_iff, readAddress_eq_ok_iff,
        Decimal.readUInt64_eq_ok_iff, String.toList_ofList] at h
      obtain ⟨w, hw, a, ha, hv⟩ := h
      cases hv
      have hc := List.head?_dropWhile_not (fun c ↦ decide (c ≠ ':')) text.toList
      rw [hpower] at hc
      obtain rfl : c = ':' := by simpa using hc
      refine ⟨_, power, ?_, ha, hw⟩
      rw [← hpower, List.takeWhile_append_dropWhile]
  · intro h
    obtain ⟨address, power, htext, ha, hw⟩ := h
    obtain ⟨htake, hdrop⟩ := split_at_colon ha.colon_not_mem power
    rw [htext, htake, hdrop]
    simp only [bind_eq_ok_iff, mapError_eq_ok_iff, readAddress_eq_ok_iff,
      Decimal.readUInt64_eq_ok_iff, String.toList_ofList]
    exact ⟨_, hw, _, ha, rfl⟩

end CommandLine

end TokenBridge
