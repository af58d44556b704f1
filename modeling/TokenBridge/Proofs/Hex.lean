import TokenBridge.UInt256
import Mathlib.Tactic.Ring

namespace TokenBridge

namespace Hex

def digitByte (d : Nat) : UInt8 := UInt8.ofNat (digitChar d).toNat

theorem digit?_digitByte {d : Nat} (h : d < 16) : digit? (digitByte d) = some d := by
  decide +revert

theorem digitByte_ne_underscore {d : Nat} (h : d < 16) : digitByte d ≠ 95 := by
  decide +revert

theorem utf8EncodeChar_digitChar {d : Nat} (h : d < 16) :
    String.utf8EncodeChar (digitChar d) = [digitByte d] := by
  decide +revert

theorem digitChar_eq {d : Nat} (h : d < 16) : Nat.digitChar d = digitChar d := by
  decide +revert

def digitBytes (bytes : Bytes) : Bytes :=
  bytes.flatMap fun b ↦ [digitByte (b.toNat / 16), digitByte (b.toNat % 16)]

theorem flatMap_utf8EncodeChar_digits (bytes : Bytes) :
    (digits bytes).flatMap String.utf8EncodeChar = digitBytes bytes := by
  rw [digits, digitBytes, List.flatMap_assoc]
  refine congrArg (List.flatMap · bytes) (funext fun b ↦ ?_)
  have hb := b.toNat_lt
  simp only [List.flatMap_cons, List.flatMap_nil, List.append_nil, List.singleton_append,
    utf8EncodeChar_digitChar (show b.toNat / 16 < 16 by omega),
    utf8EncodeChar_digitChar (show b.toNat % 16 < 16 by omega)]

theorem ofText_encode (bytes : Bytes) :
    Bytes.ofText (encode bytes) = 48 :: 120 :: digitBytes bytes := by
  rw [Bytes.ofText, encode, String.toList_ofList, List.flatMap_cons, List.flatMap_cons,
    flatMap_utf8EncodeChar_digits]
  rfl

theorem stripMark_ofText_encode (bytes : Bytes) :
    stripMark (Bytes.ofText (encode bytes)) = digitBytes bytes := by
  rw [ofText_encode, stripMark]

theorem length_digitBytes (bytes : Bytes) : (digitBytes bytes).length = 2 * bytes.length := by
  induction bytes with
  | nil => rfl
  | cons b rest ih =>
    simp only [digitBytes, List.flatMap_cons, List.length_append, List.length_cons] at ih ⊢
    simp only [ih, List.length_nil]
    omega

theorem decodeFrom_digitBytes (position : Nat) (bytes : Bytes) :
    decodeFrom position (digitBytes bytes) = .ok bytes := by
  induction bytes generalizing position with
  | nil => rfl
  | cons b rest ih =>
    have hb := b.toNat_lt
    have hvalue : 16 * (b.toNat / 16) + b.toNat % 16 = b.toNat := by omega
    have hcons : digitBytes (b :: rest) =
        digitByte (b.toNat / 16) :: digitByte (b.toNat % 16) :: digitBytes rest := rfl
    simp only [hcons, decodeFrom, digit?_digitByte (show b.toNat / 16 < 16 by omega),
      digit?_digitByte (show b.toNat % 16 < 16 by omega), ih, hvalue, UInt8.ofNat_toNat]
    rfl

end Hex

theorem FixedBytes.ofHex_toHex {n : Nat} (a : FixedBytes n) : ofHex n a.toHex = .ok a := by
  have hlength : (Hex.digitBytes a.bytes).length = 2 * n := by
    rw [Hex.length_digitBytes, a.length_bytes]
  have heven : ¬ (Hex.digitBytes a.bytes).length % 2 = 1 := by omega
  simp only [ofHex, toHex, Hex.stripMark_ofText_encode, if_neg heven, if_neg (not_not.2 hlength)]
  split
  · rename_i e he
    rw [Hex.decodeFrom_digitBytes] at he
    cases he
  · rename_i bytes hbytes
    rw [Hex.decodeFrom_digitBytes] at hbytes
    cases hbytes
    rw [dif_pos a.length_bytes]

namespace UInt256

def hexBytes (n : Nat) : Bytes := (Nat.toDigits 16 n).flatMap String.utf8EncodeChar

theorem hexBytes_of_lt {d : Nat} (h : d < 16) : hexBytes d = [Hex.digitByte d] := by
  rw [hexBytes, Nat.toDigits_of_lt_base h, Hex.digitChar_eq h, List.flatMap_singleton,
    Hex.utf8EncodeChar_digitChar h]

theorem hexBytes_append {n d : Nat} (hn : 0 < n) (hd : d < 16) :
    hexBytes (16 * n + d) = hexBytes n ++ [Hex.digitByte d] := by
  rw [← hexBytes_of_lt hd, hexBytes, ← Nat.toDigits_append_toDigits (by decide) hn hd,
    List.flatMap_append]
  rfl

theorem ne_underscore_of_mem_hexBytes {n : Nat} {b : UInt8} (h : b ∈ hexBytes n) : b ≠ 95 := by
  induction n using Nat.base_induction 16 (by decide) with
  | single d hd =>
    rw [hexBytes_of_lt hd] at h
    exact List.mem_singleton.1 h ▸ Hex.digitByte_ne_underscore hd
  | digit n d hd hn ih =>
    rw [hexBytes_append hn hd, List.mem_append] at h
    rcases h with h | h
    · exact ih h
    · exact List.mem_singleton.1 h ▸ Hex.digitByte_ne_underscore hd

theorem readUpward_digitByte {weight value d : Nat} (rest : Bytes) (hd : d < 16)
    (h : value + d * weight < size) :
    readUpward 16 weight value (Hex.digitByte d :: rest) =
      readUpward 16 (16 * weight) (value + d * weight) rest := by
  have hdigit : digit? 16 (Hex.digitByte d) = some d := by
    rw [digit?, Hex.digit?_digitByte hd, Option.filter_some, if_pos (decide_eq_true hd)]
  simp only [readUpward, hdigit, if_pos h]

/-- No part of a number that fits is too large. -/
theorem readUpward_hexBytes {n weight value : Nat} (h : value + n * weight < size) :
    readUpward 16 weight value (hexBytes n).reverse = fit (value + n * weight) := by
  induction n using Nat.base_induction 16 (by decide) generalizing weight value with
  | single d hd =>
    rw [hexBytes_of_lt hd, List.reverse_singleton, readUpward_digitByte [] hd h, readUpward]
  | digit n d hd hn ih =>
    have hsplit : value + (16 * n + d) * weight = value + d * weight + n * (16 * weight) := by ring
    rw [hsplit] at h ⊢
    rw [hexBytes_append hn hd, List.reverse_append, List.reverse_singleton, List.singleton_append,
      readUpward_digitByte _ hd (Nat.lt_of_le_of_lt (Nat.le_add_right _ _) h), ih h]

theorem splitRadix_ofText_hex (a : UInt256) :
    splitRadix (Bytes.ofText a.hex) = (16, hexBytes a.toNat) := by
  rw [Bytes.ofText, hex, String.toList_ofList, List.flatMap_cons, List.flatMap_cons]
  rfl

theorem fit_toNat (a : UInt256) : fit a.toNat = .ok a := by
  rw [fit, ofNat?, dif_pos a.toNat_lt]

theorem ofText_hex (a : UInt256) : ofText a.hex = .ok a := by
  have hdigits : (hexBytes a.toNat).filter (· ≠ 95) = hexBytes a.toNat :=
    List.filter_eq_self.2 fun b hb ↦ decide_eq_true (ne_underscore_of_mem_hexBytes hb)
  have hlt : 0 + a.toNat * 1 < size := by simpa using a.toNat_lt
  have hvalue : 0 + a.toNat * 1 = a.toNat := by omega
  have hradix : (16 : Nat) ≠ 10 := by decide
  simp only [ofText, splitRadix_ofText_hex, hdigits, if_neg hradix, readUpward_hexBytes hlt, hvalue,
    fit_toNat]

end UInt256

end TokenBridge
