import TokenBridge.Proofs.Text.Ascii

namespace TokenBridge

/-- A reader takes one of the marks off the front of a text, and goes on in the radix of the mark. -/
structure Marked (marks : List (List Char × Nat)) (split : Bytes → Nat × Bytes) : Prop where
  ascii : ∀ m ∈ marks, Ascii m.1
  taken : ∀ bytes, ∃ mark,
    (mark, (split bytes).1) ∈ marks ∧ bytes = Bytes.ofAscii mark ++ (split bytes).2
  split_mark : ∀ m ∈ marks, m.1 ≠ [] → ∀ digits, split (Bytes.ofAscii m.1 ++ digits) = (m.2, digits)

namespace Marked

variable {marks : List (List Char × Nat)} {split : Bytes → Nat × Bytes}

theorem chars_mark_append (h : Marked marks split) {mark : List Char} {radix : Nat}
    (hmark : (mark, radix) ∈ marks) (digits : Bytes) :
    Bytes.chars (Bytes.ofAscii mark ++ digits) = mark ++ Bytes.chars digits := by
  rw [Bytes.chars_append, Bytes.chars_ofAscii (h.ascii _ hmark)]

/-- Digits that no mark could be part of are left as they are. -/
theorem split_eq_self (h : Marked marks split) {radix : Nat} {bytes : Bytes}
    (hforeign : ∀ m ∈ marks, m = ([], radix) ∨ ∃ c ∈ m.1, c ∉ Bytes.chars bytes) :
    split bytes = (radix, bytes) := by
  obtain ⟨mark, hmark, hbytes⟩ := h.taken bytes
  rcases hforeign _ hmark with hnil | ⟨c, hc, hout⟩
  · obtain ⟨rfl, hradix⟩ := Prod.mk.inj hnil
    exact Prod.ext hradix hbytes.symm
  · refine absurd ?_ hout
    rw [hbytes, h.chars_mark_append hmark]
    exact List.mem_append_left _ hc

/-- What is read behind the mark is what stands there in the text, if only texts of one byte a
character are read and none that a mark could be part of is read without a mark. -/
theorem reads_iff (h : Marked marks split) (reads : Nat → List Char → Prop)
    (hascii : ∀ radix digits, reads radix digits → Ascii digits)
    (hforeign : ∀ radix digits, ([], radix) ∈ marks → reads radix digits →
      ∀ m ∈ marks, m = ([], radix) ∨ ∃ c ∈ m.1, c ∉ digits) (text : String) :
    reads (split (Bytes.ofText text)).1 (Bytes.chars (split (Bytes.ofText text)).2) ↔
      ∃ mark radix digits, (mark, radix) ∈ marks ∧ text.toList = mark ++ digits ∧
        reads radix digits := by
  constructor
  · intro hreads
    obtain ⟨mark, hmark, hbytes⟩ := h.taken (Bytes.ofText text)
    have hchars := congrArg Bytes.chars hbytes
    rw [h.chars_mark_append hmark] at hchars
    have htext : Ascii (Bytes.chars (Bytes.ofText text)) := by
      rw [hchars, ascii_append_iff]
      exact ⟨h.ascii _ hmark, hascii _ _ hreads⟩
    rw [Bytes.chars_ofText htext] at hchars
    exact ⟨mark, _, _, hmark, hchars, hreads⟩
  · intro hsplit
    obtain ⟨mark, radix, digits, hmark, htext, hreads⟩ := hsplit
    have hdigits := hascii radix digits hreads
    have hbytes : Bytes.ofText text = Bytes.ofAscii mark ++ Bytes.ofAscii digits := by
      have hall : Ascii text.toList := htext ▸ ascii_append_iff.2 ⟨h.ascii _ hmark, hdigits⟩
      rw [Bytes.ofText_of_ascii hall, htext, Bytes.ofAscii_append]
    have hfound : split (Bytes.ofText text) = (radix, Bytes.ofAscii digits) := by
      rw [hbytes]
      by_cases hnil : mark = []
      · subst hnil
        refine h.split_eq_self ?_
        rw [Bytes.chars_append, Bytes.chars_ofAscii hdigits]
        exact hforeign radix digits hmark hreads
      · exact h.split_mark _ hmark hnil _
    rw [hfound, Bytes.chars_ofAscii hdigits]
    exact hreads

end Marked

end TokenBridge
