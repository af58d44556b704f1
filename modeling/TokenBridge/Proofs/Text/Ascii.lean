import TokenBridge.Bytes
import Mathlib.Data.List.Basic

namespace TokenBridge

def Ascii (text : List Char) : Prop := ∀ c ∈ text, c.toNat < 128

variable {text first second : List Char}

instance : Decidable (Ascii text) :=
  decidable_of_iff (text.all (·.toNat < 128) = true) (by simp [Ascii])

theorem ascii_append_iff : Ascii (first ++ second) ↔ Ascii first ∧ Ascii second :=
  List.forall_mem_append

theorem Char.toNat_ofNat_toNat (b : UInt8) : (Char.ofNat b.toNat).toNat = b.toNat := by
  have hb := b.toNat_lt
  have hvalid : b.toNat.isValidChar := Or.inl (by omega)
  rw [Char.ofNat, dif_pos hvalid]
  rfl

namespace Bytes

def chars (bytes : Bytes) : List Char := bytes.map fun b ↦ Char.ofNat b.toNat

def ofAscii (text : List Char) : Bytes := text.map fun c ↦ UInt8.ofNat c.toNat

theorem utf8EncodeChar_of_lt {c : Char} (h : c.toNat < 128) :
    String.utf8EncodeChar c = [UInt8.ofNat c.toNat] :=
  if_pos (Nat.le_of_lt_succ h)

/-- A character that takes more bytes than one starts with a byte that is no character. -/
theorem toNat_lt_of_utf8 {c : Char} (h : ∀ b ∈ String.utf8EncodeChar c, b.toNat < 128) :
    c.toNat < 128 := by
  unfold String.utf8EncodeChar at h
  dsimp only at h
  split at h
  · rename_i hsmall
    exact Nat.lt_succ_of_le hsmall
  · split at h
    · have hfirst := h _ List.mem_cons_self
      simp at hfirst
      omega
    · split at h
      · have hfirst := h _ List.mem_cons_self
        simp at hfirst
        omega
      · have hfirst := h _ List.mem_cons_self
        simp at hfirst
        omega

theorem ascii_of_ofText {text : String} (h : ∀ b ∈ ofText text, b.toNat < 128) :
    Ascii text.toList := by
  intro c hc
  exact toNat_lt_of_utf8 fun b hb ↦ h b (List.mem_flatMap.2 ⟨c, hc, hb⟩)

theorem ofText_of_ascii {text : String} (h : Ascii text.toList) :
    ofText text = ofAscii text.toList := by
  rw [ofText, ofAscii, ← List.flatMap_singleton' (l := text.toList.map _), List.flatMap_map]
  exact List.flatMap_congr fun c hc ↦ utf8EncodeChar_of_lt (h c hc)

theorem ofAscii_append : ofAscii (first ++ second) = ofAscii first ++ ofAscii second :=
  List.map_append

theorem chars_ofAscii (h : Ascii text) : chars (ofAscii text) = text := by
  rw [chars, ofAscii, List.map_map]
  refine (List.map_congr_left fun c hc ↦ ?_).trans (List.map_id text)
  have hlt := h c hc
  have hbyte : (UInt8.ofNat c.toNat).toNat = c.toNat := by
    rw [UInt8.toNat_ofNat', Nat.mod_eq_of_lt (by omega)]
  rw [Function.comp_apply, hbyte, Char.ofNat_toNat, id]

theorem ofAscii_chars (bytes : Bytes) : ofAscii (chars bytes) = bytes := by
  rw [chars, ofAscii, List.map_map]
  refine (List.map_congr_left fun b _ ↦ ?_).trans (List.map_id bytes)
  rw [Function.comp_apply, Char.toNat_ofNat_toNat, UInt8.ofNat_toNat, id]

theorem chars_append (first second : Bytes) : chars (first ++ second) = chars first ++ chars second :=
  List.map_append

theorem length_chars (bytes : Bytes) : (chars bytes).length = bytes.length := List.length_map _

theorem ascii_chars_iff {bytes : Bytes} : Ascii (chars bytes) ↔ ∀ b ∈ bytes, b.toNat < 128 := by
  simp [Ascii, chars, Char.toNat_ofNat_toNat]

/-- Read as characters, bytes that are characters are the text they were made from. -/
theorem chars_ofText {text : String} (h : Ascii (chars (ofText text))) :
    chars (ofText text) = text.toList := by
  have hascii := ascii_of_ofText (ascii_chars_iff.1 h)
  rw [ofText_of_ascii hascii, chars_ofAscii hascii]

end Bytes

end TokenBridge
