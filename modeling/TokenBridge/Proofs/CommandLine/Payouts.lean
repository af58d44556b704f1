import TokenBridge.Proofs.CommandLine.Values

namespace TokenBridge

open Numeral

namespace UInt256

def plainMarks : List (List Char × Nat) := [([], 10), (['0', 'x'], 16)]

def looseMarks : List (List Char × Nat) :=
  [(['0', 'X'], 16), (['0', 'o'], 8), (['0', 'O'], 8), (['0', 'b'], 2), (['0', 'B'], 2)]

variable {a : UInt256} {text mark digits : List Char} {radix : Nat}

theorem mem_radixMarks_iff {m : List Char × Nat} :
    m ∈ radixMarks ↔ m ∈ plainMarks ∨ m ∈ looseMarks := by
  have hsplit : radixMarks = plainMarks ++ looseMarks := rfl
  rw [hsplit, List.mem_append]

/-- Decimal digits, or hex digits behind `0x`, and at least one of them. -/
def Plain (text : List Char) (a : UInt256) : Prop :=
  ∃ mark radix digits, (mark, radix) ∈ plainMarks ∧ text = mark ++ digits ∧ digits ≠ [] ∧
    value? radix digits = some a.toNat

/-- A numeral without digits, with an underscore or with a mark that the tool does not ask for. -/
def Loose (text : List Char) : Prop :=
  (∃ radix, (text, radix) ∈ plainMarks) ∨ '_' ∈ text ∨
    ∃ mark radix, (mark, radix) ∈ looseMarks ∧ mark <+: text

theorem filter_eq_self_of_not_mem (h : '_' ∉ digits) : digits.filter (· ≠ '_') = digits :=
  List.filter_eq_self.2 fun _ hc ↦ decide_eq_true fun hscore ↦ h (hscore ▸ hc)

theorem not_prefix_of_value? {n : Nat} (hvalue : value? 10 digits = some n)
    (hmark : (mark, radix) ∈ radixMarks) (hne : mark ≠ []) : ¬ mark <+: digits := by
  intro hfront
  rcases eq_nil_or_exists_of_mem_radixMarks hmark with hnil | ⟨c, hc, _, hnone⟩
  · exact hne (congrArg Prod.fst hnil)
  · exact not_mem_of_value? hvalue hnone (hfront.subset hc)

theorem length_of_mem_looseMarks (h : (mark, radix) ∈ looseMarks) : mark.length = 2 := by
  have hall : ∀ m ∈ looseMarks, m.1.length = 2 := by decide
  exact hall _ h

theorem Plain.not_loose (h : Plain text a) : ¬ Loose text := by
  obtain ⟨mark, radix, digits, hmark, rfl, hdigits, hvalue⟩ := h
  have hscore : '_' ∉ digits := not_mem_of_value? hvalue rfl
  rcases List.mem_pair.1 hmark with hplain | hplain
  · cases hplain
    rintro (⟨r, hbad⟩ | hbad | ⟨m, r, hm, hbad⟩)
    · rcases List.mem_pair.1 hbad with hbare | hbare
      · exact hdigits (congrArg Prod.fst hbare)
      · have hx : (['0', 'x'], 16) ∈ radixMarks := by decide
        obtain rfl : digits = ['0', 'x'] := congrArg Prod.fst hbare
        exact not_prefix_of_value? hvalue hx (by decide) (List.prefix_refl _)
    · exact hscore hbad
    · have hne := List.ne_nil_of_length_eq_add_one (length_of_mem_looseMarks hm)
      exact not_prefix_of_value? hvalue (mem_radixMarks_iff.2 (.inr hm)) hne hbad
  · cases hplain
    rintro (⟨r, hbad⟩ | hbad | ⟨m, r, hm, hbad⟩)
    · simp [plainMarks, hdigits] at hbad
    · simp [hscore] at hbad
    · have hlength := length_of_mem_looseMarks hm
      obtain rfl : m = ['0', 'x'] :=
        (List.prefix_of_prefix_length_le hbad (List.prefix_append _ digits) hlength.le).eq_of_length
          hlength
      simp [looseMarks] at hm

theorem plain_iff : Plain text a ↔ Spelled text a ∧ ¬ Loose text := by
  constructor
  · intro h
    refine ⟨?_, h.not_loose⟩
    obtain ⟨mark, radix, digits, hmark, htext, _, hvalue⟩ := h
    have hfilter := filter_eq_self_of_not_mem (not_mem_of_value? hvalue rfl)
    exact ⟨mark, radix, digits, mem_radixMarks_iff.2 (.inl hmark), htext, hfilter.symm ▸ hvalue⟩
  · intro h
    obtain ⟨⟨mark, radix, digits, hmark, rfl, hvalue⟩, hloose⟩ := h
    simp only [Loose, not_or] at hloose
    obtain ⟨hbare, hscore, hmarks⟩ := hloose
    rw [filter_eq_self_of_not_mem fun hin ↦ hscore (List.mem_append_right _ hin)] at hvalue
    rcases mem_radixMarks_iff.1 hmark with hplain | hodd
    · refine ⟨mark, radix, digits, hplain, rfl, ?_, hvalue⟩
      rintro rfl
      exact hbare ⟨radix, (List.append_nil mark).symm ▸ hplain⟩
    · exact absurd ⟨mark, radix, hodd, List.prefix_append mark digits⟩ hmarks

end UInt256

namespace CommandLine

variable {p : Payout}

theorem PayoutText.plain_iff {text : List Char} :
    PayoutText UInt256.Plain text p ↔
      PayoutText UInt256.Spelled text p ∧
        ∀ numeral ∈ (fields text).tail, ¬ UInt256.Loose numeral := by
  constructor
  · intro h
    obtain ⟨destination, amount, fee, rfl, hdestination, hamount, hfee⟩ := h
    rw [UInt256.plain_iff] at hamount hfee
    refine ⟨⟨destination, amount, fee, rfl, hdestination, hamount.1, hfee.1⟩, ?_⟩
    rw [fields_triple hdestination.colon_not_mem hamount.1.colon_not_mem hfee.1.colon_not_mem]
    simp [hamount.2, hfee.2]
  · intro h
    obtain ⟨⟨destination, amount, fee, rfl, hdestination, hamount, hfee⟩, hloose⟩ := h
    rw [fields_triple hdestination.colon_not_mem hamount.colon_not_mem hfee.colon_not_mem] at hloose
    refine ⟨destination, amount, fee, rfl, hdestination, UInt256.plain_iff.2 ⟨hamount, ?_⟩,
      UInt256.plain_iff.2 ⟨hfee, ?_⟩⟩
    · exact hloose amount (by simp)
    · exact hloose fee (by simp)

/-- Where one of the three parts has a colon of its own, no payout is read. -/
theorem payoutText_parts_iff (destination amount fee : List Char) :
    PayoutText UInt256.Spelled (destination ++ ':' :: (amount ++ ':' :: fee)) p ↔
      FixedBytes.Spelled destination p.destination ∧ UInt256.Spelled amount p.amount ∧
        UInt256.Spelled fee p.fee := by
  constructor
  · intro h
    obtain ⟨first, second, third, htext, hfirst, hsecond, hthird⟩ := h
    have hfields := congrArg fields htext
    rw [fields_triple hfirst.colon_not_mem hsecond.colon_not_mem hthird.colon_not_mem, fields_append,
      fields_append] at hfields
    obtain ⟨d, ds, hd⟩ := exists_fields_eq_cons destination
    obtain ⟨a, as, ha⟩ := exists_fields_eq_cons amount
    obtain ⟨f, fs, hf⟩ := exists_fields_eq_cons fee
    have hlength := congrArg List.length hfields
    simp only [hd, ha, hf, List.length_append, List.length_cons, List.length_nil] at hlength
    obtain rfl : ds = [] := List.length_eq_zero_iff.1 (by omega)
    obtain rfl : as = [] := List.length_eq_zero_iff.1 (by omega)
    obtain rfl : fs = [] := List.length_eq_zero_iff.1 (by omega)
    rw [hd, ha, hf] at hfields
    cases hfields
    rw [eq_of_fields_singleton hd, eq_of_fields_singleton ha, eq_of_fields_singleton hf]
    exact ⟨hfirst, hsecond, hthird⟩
  · intro h
    exact ⟨destination, amount, fee, rfl, h.1, h.2.1, h.2.2⟩

/-- A payout is an address and two numerals with colons between them, and the numerals may be loose.
Where one of them is missing it counts as zero. -/
theorem payouts_read_loosely (text : String) (p : Payout) :
    (readPayout text = .ok p ↔ PayoutText UInt256.Spelled text.toList p) ∧
      (PayoutText UInt256.Plain text.toList p ↔
        readPayout text = .ok p ∧
          ∀ numeral ∈ (fields text.toList).tail, ¬ UInt256.Loose numeral) ∧
      ∀ destination other : List Char,
        (readPayout (String.ofList (destination ++ ':' :: ':' :: other)) = .ok p ↔
          FixedBytes.Spelled destination p.destination ∧ p.amount = .zero ∧
            UInt256.Spelled other p.fee) ∧
        (readPayout (String.ofList (destination ++ ':' :: (other ++ [':']))) = .ok p ↔
          FixedBytes.Spelled destination p.destination ∧ UInt256.Spelled other p.amount ∧
            p.fee = .zero) := by
  refine ⟨readPayout_eq_ok_iff, ?_, fun destination other ↦ ⟨?_, ?_⟩⟩
  · rw [PayoutText.plain_iff, readPayout_eq_ok_iff]
  · rw [readPayout_eq_ok_iff, String.toList_ofList, ← UInt256.spelled_nil_iff]
    exact payoutText_parts_iff destination [] other
  · rw [readPayout_eq_ok_iff, String.toList_ofList, ← UInt256.spelled_nil_iff]
    exact payoutText_parts_iff destination other []

/-- Without an amount only the fee of seven is read. -/
theorem missing_amount_read_as_zero :
    readPayout "0xc783df8a850f42e7f7e57013759c285caa701eb6::7" =
        .ok ⟨.ofNat 20 0xc783df8a850f42e7f7e57013759c285caa701eb6, .zero, .ofUInt64 7⟩ ∧
      ∀ p, ¬ PayoutText UInt256.Plain
        "0xc783df8a850f42e7f7e57013759c285caa701eb6::7".toList p := by
  refine ⟨by decide +kernel, fun p h ↦ ?_⟩
  have hmissing : [] ∈ (fields "0xc783df8a850f42e7f7e57013759c285caa701eb6::7".toList).tail := by
    decide
  exact (PayoutText.plain_iff.1 h).2 [] hmissing (.inl ⟨10, by decide⟩)

end CommandLine

end TokenBridge
