import TokenBridge.Event.Log
import TokenBridge.Proofs.Commitment.Abi
import Mathlib.Data.List.Nodup
import Mathlib.Data.List.TakeWhile

namespace TokenBridge

theorem Bytes.zeros_append_dropWhile (bytes : Bytes) :
    List.replicate (bytes.length - (bytes.dropWhile (· == 0)).length) 0 ++
      bytes.dropWhile (· == 0) = bytes := by
  have hzeros : bytes.takeWhile (· == 0) =
      List.replicate (bytes.takeWhile (· == 0)).length 0 :=
    List.eq_replicate_of_mem fun b hb ↦ by simpa using List.mem_takeWhile_imp hb
  have hsplit : bytes.takeWhile (· == 0) ++ bytes.dropWhile (· == 0) = bytes :=
    List.takeWhile_append_dropWhile
  have hlength : bytes.length - (bytes.dropWhile (· == 0)).length =
      (bytes.takeWhile (· == 0)).length := by
    have := congrArg List.length hsplit
    rw [List.length_append] at this
    omega
  rw [hlength, ← hzeros, hsplit]

theorem FixedBytes.ofBytes?_bytes {n : Nat} (a : FixedBytes n) : ofBytes? a.bytes = some a := by
  rw [ofBytes?, dif_pos a.length_bytes]

theorem UInt256.toUInt256_toWord (a : UInt256) : a.toWord.toUInt256 = a :=
  UInt256.ext (FixedBytes.toNat_ofNat a.toNat_lt)

theorem UInt256.toUInt64?_ofUInt64 (n : UInt64) : (ofUInt64 n).toUInt64? = some n := by
  have hlt : (ofUInt64 n).toNat < UInt64.size := n.toNat_lt
  rw [toUInt64?, if_pos hlt]
  exact congrArg some (UInt64.ofNat_toNat)

namespace Abi

theorem toNat_wordOfNat (n : UInt64) : (wordOfNat n.toNat).toNat = n.toNat :=
  FixedBytes.toNat_ofNat (UInt256.ofUInt64 n).toNat_lt

theorem toUInt256_wordOfNat (n : UInt64) : (wordOfNat n.toNat).toUInt256 = .ofUInt64 n :=
  UInt256.ext (toNat_wordOfNat n)

theorem readWords?_flatMap (ws : List Word) (rest : Bytes) :
    readWords? ws.length (ws.flatMap (·.bytes) ++ rest) = some ws := by
  induction ws with
  | nil => rfl
  | cons w ws ih =>
    have htake : (w.bytes ++ (ws.flatMap (·.bytes) ++ rest)).take 32 = w.bytes :=
      List.take_left' w.length_bytes
    have hdrop : (w.bytes ++ (ws.flatMap (·.bytes) ++ rest)).drop 32 =
        ws.flatMap (·.bytes) ++ rest := List.drop_left' w.length_bytes
    simp only [List.length_cons, readWords?, List.flatMap_cons, List.append_assoc, htake, hdrop,
      FixedBytes.ofBytes?_bytes, ih]
    rfl

end Abi

namespace Destination

def isBlank (d : Destination) : Bool := d.bytes.all (· == 0)

theorem length_dropWhile_le (d : Destination) : (d.bytes.dropWhile (· == 0)).length ≤ 32 :=
  Nat.le_trans (List.dropWhile_suffix (· == 0)).length_le d.length_le

def trimmed (d : Destination) : Destination :=
  if h : 0 < (d.bytes.dropWhile (· == 0)).length then ⟨_, h, d.length_dropWhile_le⟩ else d

theorem dropWhile_toWord (d : Destination) :
    d.toWord.bytes.dropWhile (· == 0) = d.bytes.dropWhile (· == 0) := by
  have hpad : ∀ b ∈ List.replicate (32 - d.bytes.length) (0 : UInt8), (b == 0) = true := by
    intro b hb
    rw [List.eq_of_mem_replicate hb]
    rfl
  exact List.dropWhile_append_of_pos hpad

theorem dropWhile_eq_nil_iff (d : Destination) :
    d.bytes.dropWhile (· == 0) = [] ↔ d.isBlank = true := by
  rw [List.dropWhile_eq_nil_iff, isBlank, List.all_eq_true]

theorem ofWord_toWord (d : Destination) :
    ofWord d.toWord = if d.isBlank then .error (.invalidDestination 0) else .ok d.trimmed := by
  rw [ofWord, dropWhile_toWord, ofBytes]
  by_cases hblank : d.isBlank = true
  · have hnil := d.dropWhile_eq_nil_iff.2 hblank
    simp [hnil, hblank]
  · have hpos : 0 < (d.bytes.dropWhile (· == 0)).length :=
      List.length_pos_iff.2 (mt d.dropWhile_eq_nil_iff.1 hblank)
    rw [dif_pos ⟨hpos, d.length_dropWhile_le⟩, if_neg hblank, trimmed, dif_pos hpos]

theorem toWord_trimmed (d : Destination) : d.trimmed.toWord = d.toWord := by
  unfold trimmed
  split
  · have hshorter : (d.bytes.dropWhile (· == 0)).length ≤ d.bytes.length :=
      (List.dropWhile_suffix (· == 0)).length_le
    -- The padding takes the place of the zeros that are gone.
    have hpad : 32 - (d.bytes.dropWhile (· == 0)).length =
        (32 - d.bytes.length) + (d.bytes.length - (d.bytes.dropWhile (· == 0)).length) := by
      have := d.length_le
      omega
    apply FixedBytes.ext
    change List.replicate (32 - (d.bytes.dropWhile (· == 0)).length) 0 ++
      d.bytes.dropWhile (· == 0) = List.replicate (32 - d.bytes.length) 0 ++ d.bytes
    rw [hpad, ← List.replicate_append_replicate, List.append_assoc, Bytes.zeros_append_dropWhile]
  · rfl

end Destination

namespace EventKind

theorem topics_nodup : (all.map topic).Nodup := by decide +kernel

theorem topic_inj {kind kind' : EventKind} : kind.topic = kind'.topic ↔ kind = kind' := by
  have mem (k : EventKind) : k ∈ all := by cases k <;> decide
  refine ⟨fun h ↦ ?_, congrArg topic⟩
  exact List.inj_on_of_nodup_map topics_nodup (mem kind) (mem kind') h

theorem ofTopic?_topic (kind : EventKind) : ofTopic? kind.topic = some kind := by
  simp only [ofTopic?, topic_inj]
  cases kind <;> rfl

theorem fields_eq_ok {kind : EventKind} {indexed words : List Word}
    (hindexed : indexed.length = kind.indexedCount) (hwords : words.length = kind.dataCount) :
    kind.fields indexed (words.flatMap (·.bytes)) = .ok (indexed ++ words) := by
  have hread := Abi.readWords?_flatMap words []
  rw [List.append_nil, hwords] at hread
  simp [fields, hindexed, hread]

end EventKind

namespace Event

def isBlank : Event → Bool
  | deposit r => r.destination.isBlank
  | _ => false

/-- An event as its log shows it: where a deposit goes is known up to zeros in front. -/
def trimmed : Event → Event
  | deposit r => deposit { r with destination := r.destination.trimmed }
  | e => e

theorem readNonce_wordOfNat (n : UInt64) : readNonce (Abi.wordOfNat n.toNat) = .ok n := by
  simp [readNonce, Abi.toUInt256_wordOfNat, UInt256.toUInt64?_ofUInt64]

theorem toLog_trimmed (e : Event) : e.trimmed.toLog = e.toLog := by
  cases e with
  | deposit r =>
    simp only [trimmed, toLog, kind, indexedWords, dataWords, Destination.toWord_trimmed]
  | _ => rfl

theorem ofFields_toLog (e : Event) :
    ofFields e.kind (e.indexedWords ++ e.dataWords) =
      if e.isBlank then .error (.invalidDestination 0) else .ok e.trimmed := by
  cases e with
  | deposit r =>
    have hdestination := r.destination.ofWord_toWord
    cases hblank : r.destination.isBlank with
    | true =>
      rw [hblank] at hdestination
      simp only [kind, indexedWords, dataWords, List.cons_append, List.nil_append, ofFields,
        hdestination, isBlank, hblank]
      rfl
    | false =>
      rw [hblank] at hdestination
      simp only [kind, indexedWords, dataWords, List.cons_append, List.nil_append, ofFields,
        hdestination, readNonce_wordOfNat, Address.toAddress_toWord, UInt256.toUInt256_toWord,
        isBlank, hblank]
      rfl
  | validatorSetUpdated checkpoint nonce =>
    simp only [kind, indexedWords, dataWords, List.cons_append, List.nil_append, ofFields,
      readNonce_wordOfNat]
    rfl
  | batchExecuted token nonce =>
    simp only [kind, indexedWords, dataWords, List.cons_append, List.nil_append, ofFields,
      readNonce_wordOfNat, Address.toAddress_toWord]
    rfl
  | adminChanged previous new =>
    simp [kind, indexedWords, dataWords, ofFields, Address.toAddress_toWord, isBlank, trimmed]
  | upgraded version =>
    simp [kind, indexedWords, dataWords, ofFields, Abi.toNat_wordOfNat, isBlank, trimmed]

theorem ofLog_cons {topic : Word} {indexed : List Word} {data : Bytes} {kind : EventKind}
    (h : EventKind.ofTopic? topic = some kind) :
    ofLog ⟨topic :: indexed, data⟩ = kind.fields indexed data >>= ofFields kind := by
  simp only [ofLog, h]

theorem ofLog_toLog (e : Event) :
    ofLog e.toLog = if e.isBlank then .error (.invalidDestination 0) else .ok e.trimmed := by
  have hindexed : e.indexedWords.length = e.kind.indexedCount := by cases e <;> rfl
  have hdata : e.dataWords.length = e.kind.dataCount := by cases e <;> rfl
  rw [toLog, ofLog_cons (EventKind.ofTopic?_topic _), EventKind.fields_eq_ok hindexed hdata]
  exact ofFields_toLog e

/-- A single deposit for a blank destination makes a whole list of logs unreadable. -/
theorem ofLogs_toLog (events : List Event) :
    ofLogs (events.map toLog) =
      if events.any isBlank then .error (.invalidDestination 0) else .ok (events.map trimmed) := by
  induction events with
  | nil => rfl
  | cons e rest ih =>
    rw [ofLogs, List.map_cons, List.mapM_cons, ofLog_toLog, List.any_cons]
    cases e.isBlank with
    | true => rfl
    | false =>
      rw [ofLogs] at ih
      simp only [Bool.false_eq_true, if_false, ih, Bool.false_or]
      cases rest.any isBlank <;> rfl

end Event

end TokenBridge
