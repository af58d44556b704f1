import TokenBridge.Proofs.Event.Fields
import TokenBridge.Proofs.Hex

namespace TokenBridge

/-- To drop zeros in front is to split them off as far as there are any. -/
theorem Bytes.dropWhile_eq_iff {bytes rest : Bytes} :
    bytes.dropWhile (· == 0) = rest ↔
      ∃ n, bytes = List.replicate n 0 ++ rest ∧ rest.head? ≠ some 0 := by
  constructor
  · rintro rfl
    exact ⟨_, (zeros_append_dropWhile bytes).symm, head?_dropWhile_ne bytes⟩
  · intro h
    obtain ⟨n, rfl, hhead⟩ := h
    have hzeros : ∀ b ∈ List.replicate n (0 : UInt8), (b == 0) = true := by
      intro b hb
      rw [List.eq_of_mem_replicate hb]
      rfl
    rw [List.dropWhile_append_of_pos hzeros, dropWhile_of_head?_ne hhead]

namespace Destination

variable {d d' : Destination} {w : Word} {e : DataError}

theorem ofText_text (d : Destination) : ofText d.text = .ok d := by
  have hbytes : Bytes.ofText d.text = 48 :: 120 :: Hex.digitBytes d.bytes :=
    Hex.ofText_encode d.bytes
  have hmark : (48 :: 120 :: Hex.digitBytes d.bytes).take 2 = [48, 120] := rfl
  have hdigits : (48 :: 120 :: Hex.digitBytes d.bytes).drop 2 = Hex.digitBytes d.bytes := rfl
  simp only [ofText, hbytes, if_pos hmark, hdigits, Hex.decodeFrom_digitBytes]
  exact ofBytes_eq_ok_iff.2 rfl

theorem ofWord_toWord_eq_ok_iff :
    ofWord d.toWord = .ok d' ↔ d.bytes.dropWhile (· == 0) = d'.bytes := by
  rw [ofWord, ofBytes_eq_ok_iff, dropWhile_toWord, eq_comm]

theorem ofWord_toWord_eq_error_iff :
    ofWord d.toWord = .error e ↔ e = .invalidDestination 0 ∧ ∀ b ∈ d.bytes, b = 0 := by
  rw [ofWord_toWord, ← isBlank_iff]
  cases d.isBlank <;> simp [eq_comm]

theorem ofWord_toWord_eq_self_iff : ofWord d.toWord = .ok d ↔ d.bytes.head? ≠ some 0 := by
  rw [ofWord_eq_ok_iff, and_iff_left rfl]

/-- Some byte of a word that is not zero is left when the zeros in front of it are dropped. -/
theorem exists_ofWord (h : w.isZero = false) : ∃ d, ofWord w = .ok d := by
  have hpos : 0 < (w.bytes.dropWhile (· == 0)).length := by
    rw [List.length_pos_iff, ne_eq, List.dropWhile_eq_nil_iff, ← List.all_eq_true]
    exact Bool.eq_false_iff.1 h
  have hle : (w.bytes.dropWhile (· == 0)).length ≤ 32 :=
    Nat.le_trans (List.dropWhile_suffix _).length_le (Nat.le_of_eq w.length_bytes)
  exact ⟨⟨_, hpos, hle⟩, ofBytes_eq_ok_iff.2 rfl⟩

/-- A word holds an address behind as many zeros as fill it, so that it tells the address but for
the zeros that this starts with. -/
theorem toWord_eq_iff :
    d.toWord = d'.toWord ↔ d.bytes.dropWhile (· == 0) = d'.bytes.dropWhile (· == 0) := by
  constructor
  · intro h
    rw [← dropWhile_toWord, h, dropWhile_toWord]
  · intro h
    have hbytes (d : Destination) : d.toWord.bytes =
        List.replicate (32 - (d.bytes.dropWhile (· == 0)).length) 0 ++
          d.bytes.dropWhile (· == 0) := by
      have hzeros := Bytes.zeros_append_dropWhile d.toWord.bytes
      rw [d.toWord.length_bytes, dropWhile_toWord] at hzeros
      exact hzeros.symm
    apply FixedBytes.ext
    rw [hbytes d, hbytes d', h]

/-- An address comes back from its text as it is, and from its word without the zeros it starts
with. Every word but the zero one is that of an address which does not start with a zero. -/
theorem text_and_word_exact :
    (∀ d : Destination, ofText d.text = .ok d) ∧
    (∀ d d' : Destination, ofWord d.toWord = .ok d' ↔
      ∃ n, d.bytes = List.replicate n 0 ++ d'.bytes ∧ d'.bytes.head? ≠ some 0) ∧
    (∀ (d : Destination) e, ofWord d.toWord = .error e ↔
      e = .invalidDestination 0 ∧ ∀ b ∈ d.bytes, b = 0) ∧
    (∀ d : Destination, ofWord d.toWord = .ok d ↔ d.bytes.head? ≠ some 0) ∧
    (∀ w : Word, w.isZero = false →
      ∃ d, ofWord w = .ok d ∧ d.bytes.head? ≠ some 0 ∧ d.toWord = w) ∧
    ∀ d d' : Destination, d.toWord = d'.toWord ↔
      d.bytes.dropWhile (· == 0) = d'.bytes.dropWhile (· == 0) := by
  refine ⟨ofText_text, ?_, fun d e ↦ ofWord_toWord_eq_error_iff,
    fun d ↦ ofWord_toWord_eq_self_iff, ?_, fun d d' ↦ toWord_eq_iff⟩
  · intro d d'
    rw [ofWord_toWord_eq_ok_iff, Bytes.dropWhile_eq_iff]
  · intro w h
    obtain ⟨d, hd⟩ := exists_ofWord h
    obtain ⟨hhead, hbytes⟩ := ofWord_eq_ok_iff.1 hd
    exact ⟨d, hd, hhead, FixedBytes.ext hbytes.symm⟩

/-- Two addresses that share a word, and one whose word is the zero one. -/
theorem text_and_word_exact_padded :
    let short : Destination := ⟨[7, 0], by decide, by decide⟩
    let padded : Destination := ⟨[0, 0, 7, 0], by decide, by decide⟩
    let blank : Destination := ⟨[0, 0], by decide, by decide⟩
    let word : Word := FixedBytes.ofNat 32 0x700
    ofText "0x00000700" = .ok padded ∧ ofWord padded.toWord = .ok short ∧
      padded.toWord = short.toWord ∧ ofWord blank.toWord = .error (.invalidDestination 0) ∧
      word.isZero = false ∧
      ∃ d, ofWord word = .ok d ∧ d.bytes.head? ≠ some 0 ∧ d.toWord = word := by
  intro short padded blank word
  obtain ⟨texts, stripped, refused, _, words, same⟩ := text_and_word_exact
  have hword : word.isZero = false := by decide
  refine ⟨?_, (stripped padded short).2 ⟨2, rfl, by decide⟩, (same padded short).2 rfl,
    (refused blank _).2 ⟨rfl, by simp [blank]⟩, hword, words word hword⟩
  exact texts padded

end Destination

end TokenBridge
