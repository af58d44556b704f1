import Mathlib.Algebra.Ring.Nat
import TokenBridge.Proofs.Event.Log
import TokenBridge.Proofs.Table
import TokenBridge.Proofs.Validation

namespace TokenBridge

namespace Bytes

theorem head?_dropWhile_ne (bytes : Bytes) : (bytes.dropWhile (· == 0)).head? ≠ some 0 := by
  have h := List.head?_dropWhile_not (· == 0) bytes
  intro hzero
  rw [hzero] at h
  cases h

theorem dropWhile_of_head?_ne {bytes : Bytes} (h : bytes.head? ≠ some 0) :
    bytes.dropWhile (· == 0) = bytes := by
  cases bytes with
  | nil => rfl
  | cons b rest => simpa using h

theorem toNatBE_inj {a b : Bytes} (hlength : a.length = b.length) :
    toNatBE a = toNatBE b ↔ a = b := by
  constructor
  · intro h
    rw [← ofNatBE_toNatBE a, ← ofNatBE_toNatBE b, hlength, h]
  · exact congrArg toNatBE

end Bytes

namespace Destination

variable {d : Destination}

/-- A word is read as the one destination that is logged as it and does not start with a zero. -/
theorem ofWord_eq_ok_iff {w : Word} :
    ofWord w = .ok d ↔ d.bytes.head? ≠ some 0 ∧ w.bytes = d.toWord.bytes := by
  rw [ofWord, ofBytes_eq_ok_iff]
  constructor
  · intro hbytes
    have hzeros := Bytes.zeros_append_dropWhile w.bytes
    rw [w.length_bytes, ← hbytes] at hzeros
    refine ⟨?_, hzeros.symm⟩
    rw [hbytes]
    exact Bytes.head?_dropWhile_ne w.bytes
  · intro h
    obtain ⟨hhead, hw⟩ := h
    rw [hw, dropWhile_toWord, Bytes.dropWhile_of_head?_ne hhead]

theorem isBlank_iff : d.isBlank = true ↔ ∀ b ∈ d.bytes, b = 0 := by
  simp [isBlank]

theorem exists_zeros_trimmed (h : d.isBlank = false) :
    ∃ n, d.bytes = List.replicate n 0 ++ d.trimmed.bytes ∧ d.trimmed.bytes.head? ≠ some 0 := by
  have hne : d.bytes.dropWhile (· == 0) ≠ [] := by
    rwa [ne_eq, dropWhile_eq_nil_iff, Bool.not_eq_true]
  have hbytes : d.trimmed.bytes = d.bytes.dropWhile (· == 0) := by
    rw [trimmed, dif_pos (List.length_pos_iff.2 hne)]
  rw [hbytes]
  exact ⟨_, (Bytes.zeros_append_dropWhile d.bytes).symm, Bytes.head?_dropWhile_ne d.bytes⟩

end Destination

namespace Word

variable {w : Word}

theorem toAddress_eq_iff {a : Address} :
    w.toAddress = a ↔ w.bytes.drop 12 = a.toWord.bytes.drop 12 := by
  have hdrop : a.toWord.bytes.drop 12 = a.bytes := congrArg FixedBytes.bytes a.toAddress_toWord
  rw [hdrop]
  exact FixedBytes.ext_iff

theorem toUInt256_eq_iff {a : UInt256} : w.toUInt256 = a ↔ w.bytes = a.toWord.bytes := by
  rw [← FixedBytes.ext_iff]
  constructor
  · rintro rfl
    exact (FixedBytes.ofNat_toNat w).symm
  · rintro rfl
    exact UInt256.toUInt256_toWord a

theorem toNat_mod (w : Word) : w.toNat % 2 ^ 64 = Bytes.toNatBE (w.bytes.drop 24) := by
  have hsplit := Bytes.toNatBE_append (w.bytes.take 24) (w.bytes.drop 24)
  have hlength : (w.bytes.drop 24).length = 8 := by rw [List.length_drop, w.length_bytes]
  have hlt := Bytes.toNatBE_lt (w.bytes.drop 24)
  have hcount : Bytes.count 8 = 2 ^ 64 := by decide
  rw [List.take_append_drop, hlength, hcount] at hsplit
  rw [hlength, hcount] at hlt
  rw [FixedBytes.toNat, hsplit]
  omega

theorem version_eq_iff {v : UInt64} :
    UInt64.ofNat w.toNat = v ↔ w.bytes.drop 24 = (Abi.wordOfNat v.toNat).bytes.drop 24 := by
  have hlength : (w.bytes.drop 24).length = ((Abi.wordOfNat v.toNat).bytes.drop 24).length := by
    rw [List.length_drop, List.length_drop, w.length_bytes, FixedBytes.length_bytes]
  rw [← UInt64.toNat_inj, UInt64.toNat_ofNat', ← Bytes.toNatBE_inj hlength, ← toNat_mod,
    ← toNat_mod, Abi.toNat_wordOfNat, Nat.mod_eq_of_lt v.toNat_lt]

end Word

inductive LogField where
  | plain
  | nonce
  | address
  | version
deriving DecidableEq

namespace LogField

/-- How many bytes at the front of a word are not looked at. -/
@[simp] def ignored : LogField → Nat
  | plain | nonce => 0
  | address => 12
  | version => 24

@[simp] def significant (field : LogField) (word : Bytes) : Bytes := word.drop field.ignored

def nonces (layout : List LogField) (words : List Bytes) : List Nat :=
  ((layout.zip words).filter (·.1 = nonce)).map fun entry ↦ Bytes.toNatBE entry.2

theorem nonces_significant (layout : List LogField) (words : List Bytes) :
    nonces layout (List.zipWith significant layout words) = nonces layout words := by
  unfold nonces
  induction layout generalizing words with
  | nil => rfl
  | cons field layout ih =>
    cases words with
    | nil => rfl
    | cons word words =>
      have hrest := ih words
      cases field <;> simp [hrest]

end LogField

/-- The topics behind the first and then the data of the logs of a kind, word by word. -/
@[simp] def EventKind.layout : EventKind → List LogField
  | deposit => [.address, .address, .plain, .plain, .nonce]
  | validatorSetUpdated => [.nonce, .plain]
  | batchExecuted => [.nonce, .address]
  | adminChanged => [.address, .address]
  | upgraded => [.version]

theorem EventKind.length_layout (kind : EventKind) :
    kind.layout.length = kind.indexedCount + kind.dataCount := by
  cases kind <;> rfl

namespace Event

@[simp] def fieldWords (e : Event) : List Word := e.indexedWords ++ e.dataWords

/-- Whether a destination can be told from the padding in front of it. -/
@[simp] def Legible : Event → Prop
  | deposit r => r.destination.bytes.head? ≠ some 0
  | _ => True

theorem readNonce_eq_ok_iff {w : Word} {n : UInt64} :
    readNonce w = .ok n ↔ w.bytes = (Abi.wordOfNat n.toNat).bytes := by
  rw [← FixedBytes.ext_iff]
  constructor
  · intro h
    unfold readNonce UInt256.toUInt64? at h
    split at h
    · rename_i nonce hnonce
      split at hnonce
      · rename_i hlt
        cases hnonce
        cases h
        rw [UInt64.toNat_ofNat_of_lt' hlt]
        exact (FixedBytes.ofNat_toNat w).symm
      · cases hnonce
    · cases h
  · rintro rfl
    exact readNonce_wordOfNat n

theorem ofFields_deposit_eq_ok_iff {token sender destination amount nonce : Word} {r : Deposit} :
    ofFields .deposit [token, sender, destination, amount, nonce] = .ok (deposit r) ↔
      token.toAddress = r.token ∧ sender.toAddress = r.sender ∧
        Destination.ofWord destination = .ok r.destination ∧ amount.toUInt256 = r.amount ∧
          readNonce nonce = .ok r.nonce := by
  cases r
  simp only [ofFields]
  cases Destination.ofWord destination with
  | error cause => simp [bind, Except.bind]
  | ok d => cases readNonce nonce <;> simp [bind, Except.bind]

theorem ofFields_validatorSetUpdated_eq_ok_iff {nonce checkpoint c : Word} {n : UInt64} :
    ofFields .validatorSetUpdated [nonce, checkpoint] = .ok (validatorSetUpdated c n) ↔
      readNonce nonce = .ok n ∧ checkpoint = c := by
  simp only [ofFields]
  cases readNonce nonce <;> simp [bind, Except.bind, and_comm]

theorem ofFields_batchExecuted_eq_ok_iff {nonce token : Word} {a : Address} {n : UInt64} :
    ofFields .batchExecuted [nonce, token] = .ok (batchExecuted a n) ↔
      readNonce nonce = .ok n ∧ token.toAddress = a := by
  simp only [ofFields]
  cases readNonce nonce <;> simp [bind, Except.bind, and_comm]

/-- Words are read as an event just if they are its own words, but for bytes that do not matter. -/
theorem ofFields_eq_ok_iff {ws : List Word} {e : Event} :
    ofFields e.kind ws = .ok e ↔ e.Legible ∧ ws.length = e.kind.layout.length ∧
      List.zipWith LogField.significant e.kind.layout (ws.map (·.bytes)) =
        List.zipWith LogField.significant e.kind.layout (e.fieldWords.map (·.bytes)) := by
  cases e with
  | deposit r =>
    rcases ws with _ | ⟨t, _ | ⟨s, _ | ⟨d, _ | ⟨a, _ | ⟨n, _ | ⟨x, rest⟩⟩⟩⟩⟩⟩
    case cons.cons.cons.cons.cons.nil =>
      rw [kind, ofFields_deposit_eq_ok_iff, Destination.ofWord_eq_ok_iff, Word.toAddress_eq_iff,
        Word.toAddress_eq_iff, Word.toUInt256_eq_iff, readNonce_eq_ok_iff]
      constructor
      · intro h
        obtain ⟨ht, hs, ⟨legible, hd⟩, ha, hn⟩ := h
        exact ⟨legible, rfl, by simp [indexedWords, dataWords, ht, hs, hd, ha, hn]⟩
      · intro h
        obtain ⟨legible, _, hsame⟩ := h
        obtain ⟨ht, hs, hd, ha, hn⟩ := by simpa [indexedWords, dataWords] using hsame
        exact ⟨ht, hs, ⟨legible, hd⟩, ha, hn⟩
    all_goals simp [kind, ofFields]
  | validatorSetUpdated c n =>
    rcases ws with _ | ⟨nonce, _ | ⟨checkpoint, _ | ⟨x, rest⟩⟩⟩
    case cons.cons.nil =>
      rw [kind, ofFields_validatorSetUpdated_eq_ok_iff, readNonce_eq_ok_iff, FixedBytes.ext_iff]
      simp [indexedWords, dataWords]
    all_goals simp [kind, ofFields]
  | batchExecuted a n =>
    rcases ws with _ | ⟨nonce, _ | ⟨token, _ | ⟨x, rest⟩⟩⟩
    case cons.cons.nil =>
      rw [kind, ofFields_batchExecuted_eq_ok_iff, readNonce_eq_ok_iff, Word.toAddress_eq_iff]
      simp [indexedWords, dataWords]
    all_goals simp [kind, ofFields]
  | adminChanged previous new =>
    rcases ws with _ | ⟨p, _ | ⟨n, _ | ⟨x, rest⟩⟩⟩
    case cons.cons.nil => simp [kind, ofFields, Word.toAddress_eq_iff, indexedWords, dataWords]
    all_goals simp [kind, ofFields]
  | upgraded version =>
    rcases ws with _ | ⟨v, _ | ⟨x, rest⟩⟩
    case cons.nil => simp [kind, ofFields, Word.version_eq_iff, indexedWords, dataWords]
    all_goals simp [kind, ofFields]

theorem kind_of_ofFields {kind : EventKind} {ws : List Word} {e : Event}
    (h : ofFields kind ws = .ok e) : e.kind = kind := by
  unfold ofFields at h
  simp only [bind, Except.bind] at h
  repeat' split at h
  all_goals cases h
  all_goals rfl

end Event

end TokenBridge
