import TokenBridge.Proofs.Event.Fields

namespace TokenBridge

theorem FixedBytes.ofBytes?_eq_some_iff {n : Nat} {bytes : Bytes} {a : FixedBytes n} :
    ofBytes? bytes = some a ↔ a.bytes = bytes := by
  constructor
  · intro h
    unfold ofBytes? at h
    split at h
    · cases h
      rfl
    · cases h
  · rintro rfl
    exact ofBytes?_bytes a

theorem Abi.readWords?_eq_some_iff {count : Nat} {data : Bytes} {ws : List Word} :
    readWords? count data = some ws ↔
      32 * count ≤ data.length ∧ ws.map (·.bytes) = Bytes.chunks 32 count data := by
  induction count generalizing data ws with
  | zero => cases ws <;> simp [readWords?, Bytes.chunks]
  | succ count ih =>
    simp only [readWords?, Option.bind_eq_bind, Option.bind_eq_some_iff,
      FixedBytes.ofBytes?_eq_some_iff, ih, Option.some.injEq, Bytes.chunks]
    constructor
    · rintro ⟨w, hw, rest, ⟨hlength, hrest⟩, rfl⟩
      have hfull := congrArg List.length hw
      rw [w.length_bytes, List.length_take] at hfull
      rw [List.length_drop] at hlength
      exact ⟨by omega, by rw [List.map_cons, hw, hrest]⟩
    · intro h
      obtain ⟨hlength, hws⟩ := h
      obtain ⟨w, rest, rfl, hw, hrest⟩ := List.map_eq_cons_iff.1 hws
      exact ⟨w, hw, rest, ⟨by rw [List.length_drop]; omega, hrest⟩, rfl⟩

theorem Abi.exists_readWords? {count : Nat} {data : Bytes} (h : 32 * count ≤ data.length) :
    ∃ ws, readWords? count data = some ws := by
  induction count generalizing data with
  | zero => exact ⟨[], rfl⟩
  | succ count ih =>
    have hlong : 32 * count ≤ (data.drop 32).length := by
      rw [List.length_drop]
      omega
    obtain ⟨rest, hrest⟩ := ih hlong
    have hfull : (data.take 32).length = 32 := by
      rw [List.length_take]
      omega
    refine ⟨⟨data.take 32, hfull⟩ :: rest, ?_⟩
    rw [readWords?, FixedBytes.ofBytes?, dif_pos hfull, hrest]
    rfl

theorem Bytes.length_chunks (size count : Nat) (bytes : Bytes) :
    (chunks size count bytes).length = count := by
  induction count generalizing bytes with
  | zero => rfl
  | succ count ih => rw [chunks, List.length_cons, ih]

namespace EventKind

def words (kind : EventKind) (log : EventLog) : List Bytes :=
  log.topics.map (·.bytes) ++ Bytes.chunks 32 kind.dataCount log.data

/-- What matters of a log to those who take it for an event of the kind. -/
def significant (kind : EventKind) (log : EventLog) : List Bytes :=
  List.zipWith LogField.significant (.plain :: kind.layout) (kind.words log)

def nonces (kind : EventKind) (log : EventLog) : List Nat :=
  LogField.nonces (.plain :: kind.layout) (kind.words log)

structure Agree (kind : EventKind) (first second : EventLog) : Prop where
  topics_length : first.topics.length = second.topics.length
  significant_eq : kind.significant first = kind.significant second

theorem Agree.symm {kind : EventKind} {first second : EventLog} (h : kind.Agree first second) :
    kind.Agree second first := ⟨h.topics_length.symm, h.significant_eq.symm⟩

theorem Agree.trans {kind : EventKind} {first second third : EventLog}
    (h : kind.Agree first second) (h' : kind.Agree second third) : kind.Agree first third :=
  ⟨h.topics_length.trans h'.topics_length, h.significant_eq.trans h'.significant_eq⟩

theorem Agree.head?_topics {kind : EventKind} {first second : EventLog}
    (h : kind.Agree first second) : first.topics.head? = second.topics.head? := by
  obtain ⟨topics, data⟩ := first
  obtain ⟨topics', data'⟩ := second
  obtain ⟨hlength, hsame⟩ := h
  cases topics with
  | nil =>
    obtain rfl := List.length_eq_zero_iff.1 hlength.symm
    rfl
  | cons topic indexed =>
    obtain ⟨topic', indexed', rfl⟩ := List.exists_cons_of_length_eq_add_one hlength.symm
    have htopic : topic.bytes = topic'.bytes := (List.cons.inj hsame).1
    exact congrArg some (FixedBytes.ext htopic)

theorem Agree.nonces_eq {kind : EventKind} {first second : EventLog}
    (h : kind.Agree first second) : kind.nonces first = kind.nonces second := by
  rw [nonces, nonces, ← LogField.nonces_significant,
    ← LogField.nonces_significant _ (words _ second)]
  exact congrArg _ h.significant_eq

theorem fields_eq_ok_iff {kind : EventKind} {indexed ws : List Word} {data : Bytes} :
    kind.fields indexed data = .ok ws ↔
      indexed.length = kind.indexedCount ∧ 32 * kind.dataCount ≤ data.length ∧
        ws.map (·.bytes) = indexed.map (·.bytes) ++ Bytes.chunks 32 kind.dataCount data := by
  unfold fields
  constructor
  · intro h
    split at h
    · cases h
    · rename_i hindexed
      split at h
      · cases h
      · rename_i words hwords
        cases h
        obtain ⟨hdata, hchunks⟩ := Abi.readWords?_eq_some_iff.1 hwords
        exact ⟨not_not.1 hindexed, hdata, by rw [List.map_append, hchunks]⟩
  · intro h
    obtain ⟨hindexed, hdata, hws⟩ := h
    obtain ⟨words, hwords⟩ := Abi.exists_readWords? hdata
    have hchunks := (Abi.readWords?_eq_some_iff.1 hwords).2
    rw [← hchunks, ← List.map_append] at hws
    have heq := (List.map_inj_right fun _ _ ↦ FixedBytes.ext).1 hws
    rw [if_neg (not_not.2 hindexed), hwords, heq]

theorem ofTopic?_eq_some_iff {topic : Word} {kind : EventKind} :
    ofTopic? topic = some kind ↔ topic = kind.topic := by
  constructor
  · intro h
    simpa [eq_comm] using List.find?_some h
  · rintro rfl
    exact ofTopic?_topic kind

theorem significant_cons (kind : EventKind) (topic : Word) (indexed : List Word) (data : Bytes) :
    kind.significant ⟨topic :: indexed, data⟩ = topic.bytes ::
      List.zipWith LogField.significant kind.layout
        (indexed.map (·.bytes) ++ Bytes.chunks 32 kind.dataCount data) := rfl

end EventKind

namespace Event

variable {log : EventLog} {e : Event}

def nonce? : Event → Option UInt64
  | deposit r => some r.nonce
  | validatorSetUpdated _ nonce => some nonce
  | batchExecuted _ nonce => some nonce
  | adminChanged _ _ => none
  | upgraded _ => none

theorem length_indexedWords (e : Event) : e.indexedWords.length = e.kind.indexedCount := by
  cases e <;> rfl

theorem length_dataWords (e : Event) : e.dataWords.length = e.kind.dataCount := by
  cases e <;> rfl

theorem length_toLog_data (e : Event) : e.toLog.data.length = 32 * e.kind.dataCount := by
  cases e <;> simp [toLog, dataWords, kind, EventKind.dataCount, FixedBytes.length_bytes]

theorem fields_toLog (e : Event) : e.kind.fields e.indexedWords e.toLog.data = .ok e.fieldWords :=
  EventKind.fields_eq_ok e.length_indexedWords e.length_dataWords

theorem words_toLog (e : Event) :
    e.kind.words e.toLog = e.kind.topic.bytes :: e.fieldWords.map (·.bytes) := by
  obtain ⟨_, _, hwords⟩ := EventKind.fields_eq_ok_iff.1 e.fields_toLog
  rw [hwords]
  rfl

theorem significant_toLog (e : Event) :
    e.kind.significant e.toLog = e.kind.topic.bytes ::
      List.zipWith LogField.significant e.kind.layout (e.fieldWords.map (·.bytes)) := by
  rw [EventKind.significant, words_toLog]
  rfl

theorem ofLog_cons_eq_ok_iff {topic : Word} {indexed : List Word} {data : Bytes} :
    ofLog ⟨topic :: indexed, data⟩ = .ok e ↔
      topic = e.kind.topic ∧
        ∃ ws, e.kind.fields indexed data = .ok ws ∧ ofFields e.kind ws = .ok e := by
  constructor
  · intro h
    cases hkind : EventKind.ofTopic? topic with
    | none =>
      simp only [ofLog, hkind] at h
      cases h
    | some kind =>
      rw [ofLog_cons hkind] at h
      cases hfields : kind.fields indexed data with
      | error cause =>
        rw [hfields] at h
        cases h
      | ok ws =>
        rw [hfields] at h
        have hread : ofFields kind ws = .ok e := h
        obtain rfl := kind_of_ofFields hread
        exact ⟨EventKind.ofTopic?_eq_some_iff.1 hkind, ws, hfields, hread⟩
  · intro h
    obtain ⟨htopic, ws, hfields, hread⟩ := h
    rw [ofLog_cons (EventKind.ofTopic?_eq_some_iff.2 htopic), hfields]
    exact hread

/-- A log is read as the one event that does not start its destination with a zero and whose own log
shows the same. -/
theorem ofLog_eq_ok_iff :
    ofLog log = .ok e ↔ e.Legible ∧ e.kind.Agree e.toLog log ∧
      e.toLog.data.length ≤ log.data.length := by
  obtain ⟨topics, data⟩ := log
  rw [length_toLog_data]
  cases topics with
  | nil =>
    constructor
    · intro h
      cases h
    · intro h
      obtain ⟨_, ⟨htopics, _⟩, _⟩ := h
      cases htopics
  | cons topic indexed =>
    rw [ofLog_cons_eq_ok_iff]
    constructor
    · intro h
      obtain ⟨htopic, ws, hfields, hread⟩ := h
      subst htopic
      obtain ⟨hindexed, hdata, hwords⟩ := EventKind.fields_eq_ok_iff.1 hfields
      obtain ⟨legible, _, hsame⟩ := ofFields_eq_ok_iff.1 hread
      refine ⟨legible, ⟨?_, ?_⟩, hdata⟩
      · simp [toLog, length_indexedWords, hindexed]
      · rw [significant_toLog, EventKind.significant_cons, ← hwords, hsame]
    · intro h
      obtain ⟨legible, ⟨htopics, hsame⟩, hdata⟩ := h
      rw [significant_toLog, EventKind.significant_cons, List.cons.injEq] at hsame
      obtain ⟨htopic, hsame⟩ := hsame
      have hindexed : indexed.length = e.kind.indexedCount := by
        rw [← length_indexedWords]
        exact (Nat.succ_inj.1 htopics).symm
      obtain ⟨words, hread⟩ := Abi.exists_readWords? hdata
      obtain ⟨_, hwords⟩ := Abi.readWords?_eq_some_iff.1 hread
      have hlength : words.length = e.kind.dataCount := by
        simpa [Bytes.length_chunks] using congrArg List.length hwords
      have hfields : e.kind.fields indexed data = .ok (indexed ++ words) := by
        rw [EventKind.fields, if_neg (not_not.2 hindexed), hread]
      rw [← hwords, ← List.map_append] at hsame
      refine ⟨FixedBytes.ext htopic.symm, indexed ++ words, hfields, ?_⟩
      refine ofFields_eq_ok_iff.2 ⟨legible, ?_, hsame.symm⟩
      rw [List.length_append, EventKind.length_layout, hindexed, hlength]

theorem head?_topics_of_ofLog (h : ofLog log = .ok e) :
    log.topics.head? = some e.kind.topic := by
  obtain ⟨_, agree, _⟩ := ofLog_eq_ok_iff.1 h
  exact agree.head?_topics.symm

theorem ofLog_toLog_eq_ok_iff : ofLog e.toLog = .ok e ↔ e.Legible := by
  rw [ofLog_eq_ok_iff]
  exact ⟨fun h ↦ h.1, fun h ↦ ⟨h, ⟨rfl, rfl⟩, Nat.le_refl _⟩⟩

/-- What is logged of an event comes back if no zero stands in front of its destination. -/
theorem logs_return_events (e : Event) :
    (ofLog e.toLog = .ok e ↔ ∀ r, e = deposit r → r.destination.bytes.head? ≠ some 0) ∧
    (∀ r, e = deposit r → r.destination.bytes.head? = some 0 →
      (∃ b ∈ r.destination.bytes, b ≠ 0) → ∃ n d, 0 < n ∧
        r.destination.bytes = List.replicate n 0 ++ d.bytes ∧ d.bytes.head? ≠ some 0 ∧
        ofLog e.toLog = .ok (deposit { r with destination := d })) ∧
    (ofLog e.toLog = .error (.invalidDestination 0) ↔
      ∃ r, e = deposit r ∧ ∀ b ∈ r.destination.bytes, b = 0) := by
  refine ⟨?_, ?_, ?_⟩
  · rw [ofLog_toLog_eq_ok_iff]
    cases e <;> simp
  · rintro r rfl hzero ⟨b, hb, hne⟩
    have hblank : r.destination.isBlank = false := by
      rw [Bool.eq_false_iff, ne_eq, Destination.isBlank_iff]
      exact fun h ↦ hne (h b hb)
    obtain ⟨n, hbytes, hhead⟩ := Destination.exists_zeros_trimmed hblank
    have hpos : 0 < n := by
      apply Nat.pos_of_ne_zero
      rintro rfl
      rw [hbytes] at hzero
      exact hhead hzero
    refine ⟨n, r.destination.trimmed, hpos, hbytes, hhead, ?_⟩
    rw [ofLog_toLog, isBlank, hblank]
    rfl
  · rw [ofLog_toLog]
    cases e with
    | deposit r => simp [isBlank, Destination.isBlank_iff]
    | _ => simp [isBlank]

def parcel (bytes : Bytes) (pos : 0 < bytes.length) (length_le : bytes.length ≤ 32) : Deposit :=
  ⟨FixedBytes.ofNat 20 0xee, FixedBytes.ofNat 20 0x41, ⟨bytes, pos, length_le⟩, .ofUInt64 100, 7⟩

theorem logs_return_events_parcel :
    let bare := deposit (parcel [7, 0] (by decide) (by decide))
    let padded := parcel [0, 0, 7] (by decide) (by decide)
    let blank := deposit (parcel [0, 0] (by decide) (by decide))
    ofLog bare.toLog = .ok bare ∧
    (∃ n d, 0 < n ∧ [0, 0, 7] = List.replicate n 0 ++ d.bytes ∧ d.bytes.head? ≠ some 0 ∧
      ofLog (deposit padded).toLog = .ok (deposit { padded with destination := d })) ∧
    ofLog blank.toLog = .error (.invalidDestination 0) := by
  intro bare padded blank
  refine ⟨(logs_return_events bare).1.2 ?_, ?_, (logs_return_events blank).2.2.2 ⟨_, rfl, ?_⟩⟩
  · intro r hr
    obtain rfl := Event.deposit.inj hr
    decide
  · exact (logs_return_events (deposit padded)).2.1 padded rfl rfl ⟨7, by decide, by decide⟩
  · exact Destination.isBlank_iff.1 rfl

theorem nonces_toLog (e : Event) : e.kind.nonces e.toLog = e.nonce?.toList.map UInt64.toNat := by
  rw [EventKind.nonces, words_toLog]
  have hvalue (n : UInt64) : Bytes.toNatBE (Abi.wordOfNat n.toNat).bytes = n.toNat :=
    Abi.toNat_wordOfNat n
  cases e <;> simp [LogField.nonces, kind, indexedWords, dataWords, nonce?, hvalue]

/-- The log of an event is the normal form of all logs that are read as it. -/
theorem reading_normalizes (log : EventLog) :
    (∀ e, ofLog log = .ok e →
      ofLog e.toLog = .ok e ∧ e.kind.Agree e.toLog log ∧
      e.toLog.data.length = 32 * e.kind.dataCount ∧ e.toLog.data.length ≤ log.data.length ∧
      (∀ log' e', ofLog log' = .ok e' → (e' = e ↔ e.kind.Agree log' log)) ∧
      e.kind.nonces log = e.nonce?.toList.map UInt64.toNat) ∧
    ∀ kind : EventKind, log.topics.head? = some kind.topic → ∀ n ∈ kind.nonces log, 2 ^ 64 ≤ n →
      ∀ e, ofLog log ≠ .ok e := by
  have exact_nonces {e : Event} (h : ofLog log = .ok e) :
      e.kind.nonces log = e.nonce?.toList.map UInt64.toNat := by
    obtain ⟨_, agree, _⟩ := ofLog_eq_ok_iff.1 h
    rw [← agree.nonces_eq, nonces_toLog]
  refine ⟨?_, ?_⟩
  · intro e h
    obtain ⟨legible, agree, hlength⟩ := ofLog_eq_ok_iff.1 h
    refine ⟨ofLog_toLog_eq_ok_iff.2 legible, agree, length_toLog_data e, hlength, ?_,
      exact_nonces h⟩
    intro log' e' h'
    obtain ⟨_, agree', hlength'⟩ := ofLog_eq_ok_iff.1 h'
    constructor
    · rintro rfl
      exact agree'.symm.trans agree
    · intro same
      have htopic := same.head?_topics
      rw [head?_topics_of_ofLog h', head?_topics_of_ofLog h, Option.some.injEq,
        EventKind.topic_inj] at htopic
      rw [length_toLog_data, htopic, ← length_toLog_data] at hlength'
      have hread := ofLog_eq_ok_iff.2 ⟨legible, agree.trans same.symm, hlength'⟩
      rw [h'] at hread
      exact Except.ok.inj hread
  · intro kind htopic n hn hlarge e h
    rw [head?_topics_of_ofLog h, Option.some.injEq, EventKind.topic_inj] at htopic
    subst htopic
    rw [exact_nonces h, List.mem_map] at hn
    obtain ⟨nonce, _, rfl⟩ := hn
    exact absurd nonce.toNat_lt (Nat.not_lt.2 hlarge)

/-- The log of a batch, of which the token stands behind other bytes and the data are too long. -/
def stained (nonce : Nat) : EventLog :=
  ⟨[EventKind.batchExecuted.topic, Abi.wordOfNat nonce, ⟨List.replicate 32 1, rfl⟩], [7]⟩

theorem reading_normalizes_stained :
    let e := batchExecuted ⟨List.replicate 20 1, rfl⟩ 3
    ofLog (stained 3) = .ok e ∧ ofLog e.toLog = .ok e ∧ e.kind.Agree e.toLog (stained 3) ∧
      EventKind.batchExecuted.nonces (stained 3) = [3] ∧
      ∀ e', ofLog (stained (2 ^ 64)) ≠ .ok e' := by
  intro e
  have hread : ofLog (stained 3) = .ok e := by
    rw [stained, ofLog_cons (EventKind.ofTopic?_topic _)]
    exact ofFields_batchExecuted_eq_ok_iff.2 ⟨readNonce_wordOfNat 3, rfl⟩
  obtain ⟨again, agree, _, _, _, hnonces⟩ := (reading_normalizes (stained 3)).1 e hread
  obtain ⟨_, large⟩ := reading_normalizes (stained (2 ^ 64))
  exact ⟨hread, again, agree, hnonces, large .batchExecuted rfl (2 ^ 64) (by decide) (by decide)⟩

end Event

end TokenBridge
