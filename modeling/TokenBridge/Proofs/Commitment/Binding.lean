import TokenBridge.Checkpoint
import TokenBridge.Proofs.Commitment.Abi

namespace TokenBridge

theorem BridgeId.ext {id id' : BridgeId} (h : id.word = id'.word) : id = id' := by
  cases id
  cases id'
  cases h
  rfl

theorem ValidatorSet.ext_parts {vs vs' : ValidatorSet} (haddresses : vs.addresses = vs'.addresses)
    (hpowers : vs.powers = vs'.powers) : vs = vs' := by
  have hzip : vs.addresses.zip vs.powers = vs'.addresses.zip vs'.powers := by
    rw [haddresses, hpowers]
  rw [addresses, powers, addresses, powers, List.zip_map', List.zip_map'] at hzip
  have hmembers : vs.members = vs'.members := by
    refine (List.map_inj_right ?_).1 hzip
    intro v w h
    cases v
    cases w
    cases h
    rfl
  exact ext_members hmembers

theorem Payout.ext_columns {payouts payouts' : List Payout}
    (hdestinations : payouts.map (·.destination.toWord) = payouts'.map (·.destination.toWord))
    (hamounts : payouts.map (·.amount.toWord) = payouts'.map (·.amount.toWord))
    (hfees : payouts.map (·.fee.toWord) = payouts'.map (·.fee.toWord)) : payouts = payouts' := by
  have hzip : (payouts.map (·.destination.toWord)).zip
      ((payouts.map (·.amount.toWord)).zip (payouts.map (·.fee.toWord))) =
        (payouts'.map (·.destination.toWord)).zip
          ((payouts'.map (·.amount.toWord)).zip (payouts'.map (·.fee.toWord))) := by
    rw [hdestinations, hamounts, hfees]
  rw [List.zip_map', List.zip_map', List.zip_map', List.zip_map'] at hzip
  refine (List.map_inj_right ?_).1 hzip
  intro p q h
  simp only [Prod.mk.injEq, Address.toWord_inj, UInt256.toWord_inj] at h
  obtain ⟨hdestination, hamount, hfee⟩ := h
  cases p
  cases q
  cases hdestination
  cases hamount
  cases hfee
  rfl

/-- Two byte strings show that the hash is not injective. -/
def Collides (x y : Bytes) : Prop := x ≠ y ∧ keccak256 x = keccak256 y

inductive Approval where
  | rotation (id : BridgeId) (vs : ValidatorSet) (nonce : UInt64)
  | payment (id : BridgeId) (batch : Batch)

namespace Approval

def digest : Approval → Word
  | rotation id vs nonce => (Checkpoint.compute id vs nonce).signingDigest
  | payment id batch => batch.signingDigest id

def preimage : Approval → Bytes
  | rotation id vs nonce => Commitment.checkpointPreimage id vs nonce
  | payment id batch => Commitment.batchPreimage id batch

def message (a : Approval) : Bytes :=
  Bytes.ofText "\x19Ethereum Signed Message:\n32" ++ (keccak256 a.preimage).bytes

theorem digest_eq (a : Approval) : a.digest = keccak256 a.message := by
  cases a <;> rfl

def values : Approval → List Abi.Value
  | rotation id vs nonce =>
    [.word id.word, .word Commitment.checkpointTag, .word (Abi.wordOfNat nonce.toNat),
      .words (vs.addresses.map Address.toWord),
      .words (vs.powers.map fun power ↦ Abi.wordOfNat power.toNat)]
  | payment id batch =>
    [.word id.word, .word Commitment.batchTag, .words (batch.payouts.map (·.amount.toWord)),
      .words (batch.payouts.map (·.destination.toWord)), .words (batch.payouts.map (·.fee.toWord)),
      .word (Abi.wordOfNat batch.nonce.toNat), .word batch.token.toWord]

theorem preimage_eq (a : Approval) : a.preimage = Abi.encode a.values := by
  cases a <;> rfl

theorem tag_ne : Commitment.checkpointTag ≠ Commitment.batchTag := by decide

theorem length_rotation (id : BridgeId) (vs : ValidatorSet) (nonce : UInt64) :
    (Abi.encodeWords (rotation id vs nonce).values).length = 7 + 2 * vs.members.length := by
  rw [Abi.length_encodeWords]
  simp [values, Abi.Value.tail, ValidatorSet.addresses, ValidatorSet.powers]
  omega

theorem length_payment (id : BridgeId) (batch : Batch) :
    (Abi.encodeWords (payment id batch).values).length = 10 + 3 * batch.payouts.length := by
  rw [Abi.length_encodeWords]
  simp [values, Abi.Value.tail]
  omega

theorem ext_rotation {id id' : BridgeId} {vs vs' : ValidatorSet} {nonce nonce' : UInt64}
    (h : (rotation id vs nonce).values = (rotation id' vs' nonce').values) :
    rotation id vs nonce = rotation id' vs' nonce' := by
  simp only [values, List.cons.injEq, Abi.Value.word.injEq, Abi.Value.words.injEq] at h
  obtain ⟨hid, _, hnonce, haddresses, hpowers, _⟩ := h
  have haddresses := (List.map_inj_right fun _ _ ↦ Address.toWord_inj.1).1 haddresses
  have hpowers := (List.map_inj_right fun _ _ ↦ Abi.wordOfNat_toNat_inj.1).1 hpowers
  rw [BridgeId.ext hid, ValidatorSet.ext_parts haddresses hpowers, Abi.wordOfNat_toNat_inj.1 hnonce]

theorem ext_payment {id id' : BridgeId} {batch batch' : Batch}
    (h : (payment id batch).values = (payment id' batch').values) :
    payment id batch = payment id' batch' := by
  simp only [values, List.cons.injEq, Abi.Value.word.injEq, Abi.Value.words.injEq] at h
  obtain ⟨hid, _, hamounts, hdestinations, hfees, hnonce, htoken, _⟩ := h
  have hbatch : batch = batch' := by
    cases batch
    cases batch'
    cases Payout.ext_columns hdestinations hamounts hfees
    cases Abi.wordOfNat_toNat_inj.1 hnonce
    cases Address.toWord_inj.1 htoken
    rfl
  rw [BridgeId.ext hid, hbatch]

/-- The encodings tell approvals apart: by their tags if they are of different kinds, and by all
that they approve otherwise. The lengths of the lists show in the length of the encoding. -/
theorem preimage_inj {a b : Approval} : a.preimage = b.preimage ↔ a = b := by
  constructor
  · intro h
    rw [preimage_eq, preimage_eq] at h
    have hwords := Abi.flatMap_bytes_inj.1 h
    have hlength := congrArg List.length hwords
    have htag := congrArg (·[1]?) hwords
    cases a with
    | rotation id vs nonce =>
      cases b with
      | rotation id' vs' nonce' =>
        refine ext_rotation (Abi.eq_of_encodeWords ?_ hwords)
        rw [length_rotation, length_rotation] at hlength
        have hsize : vs.members.length = vs'.members.length := by omega
        simp [values, Abi.Value.length?, ValidatorSet.addresses, ValidatorSet.powers, hsize]
      | payment id' batch' => exact absurd (Option.some.inj htag) tag_ne
    | payment id batch =>
      cases b with
      | rotation id' vs' nonce' => exact absurd (Option.some.inj htag).symm tag_ne
      | payment id' batch' =>
        refine ext_payment (Abi.eq_of_encodeWords ?_ hwords)
        rw [length_payment, length_payment] at hlength
        have hsize : batch.payouts.length = batch'.payouts.length := by omega
        simp [values, Abi.Value.length?, hsize]
  · intro h
    rw [h]

/-- Two approvals are signed by the same signature only if they are the same, or if they break the
hash. -/
theorem digest_eq_iff (a b : Approval) :
    a.digest = b.digest ↔
      a = b ∨ Collides a.preimage b.preimage ∨ Collides a.message b.message := by
  rw [digest_eq, digest_eq]
  constructor
  · intro h
    by_cases hmessage : a.message = b.message
    · have hcommitment : keccak256 a.preimage = keccak256 b.preimage :=
        FixedBytes.ext (List.append_cancel_left hmessage)
      by_cases hpreimage : a.preimage = b.preimage
      · exact .inl (preimage_inj.1 hpreimage)
      · exact .inr (.inl ⟨hpreimage, hcommitment⟩)
    · exact .inr (.inr ⟨hmessage, h⟩)
  · intro h
    rcases h with rfl | ⟨_, hcommitment⟩ | ⟨_, hdigest⟩
    · rfl
    · rw [message, message, hcommitment]
    · exact hdigest

end Approval

end TokenBridge
