import TokenBridge.Borsh.Values
import TokenBridge.Json.Values
import TokenBridge.Proofs.Json.Format

namespace TokenBridge.Json.Format

theorem address_recovers (a : Address) : address.Recovers a := fixed_recovers a

theorem word_recovers (w : Word) : word.Recovers w := fixed_recovers w

theorem bridgeId_recovers (id : BridgeId) : bridgeId.Recovers id :=
  (word_recovers id.word).checked (BridgeId.ofWord_eq_ok_iff.2 rfl)

theorem threshold_recovers (t : PowerThreshold) : threshold.Recovers t :=
  (uint32_recovers t.basisPoints).checked t.ofBasisPoints_basisPoints

theorem validator_recovers (v : Validator) : validator.Recovers v := by
  have hfields := ((address_recovers v.address).single "address").append
    ((uint64_recovers v.power).single "power")
  exact .via (record_recovers hfields (by decide)) rfl

theorem validatorSet_recovers (vs : ValidatorSet) : validatorSet.Recovers vs :=
  (list_recovers fun v _ ↦ validator_recovers v).checked (ValidatorSet.ofList_eq_ok_iff.2 rfl)

theorem signature_recovers (sig : Signature) : signature.Recovers sig := by
  have hfields := ((word_recovers sig.r).single "r").append
    (((word_recovers sig.s).single "s").append ((byte_recovers sig.v).single "v"))
  exact .via (record_recovers hfields (by decide)) rfl

theorem attestation_recovers (a : Attestation) : attestation.Recovers a := by
  have hfields := ((address_recovers a.validator).single "validator").append
    ((signature_recovers a.signature).single "signature")
  exact .via (record_recovers hfields (by decide)) rfl

/-- An empty slot is not mistaken for one that is filled. -/
theorem signatureSet_recovers (s : SignatureSet) : signatureSet.Recovers s := by
  have hslots : (list (option attestation)).Recovers s.slots :=
    list_recovers fun _ _ ↦ option_recovers fun a _ ↦ ⟨attestation_recovers a, nofun⟩
  exact .via (record_recovers (hslots.single "slots") (by decide)) rfl

theorem checkpoint_recovers (c : Checkpoint) : checkpoint.Recovers c := by
  have hfields := ((bridgeId_recovers c.bridgeId).single "bridge_id").append
    (((uint64_recovers c.nonce).single "nonce").append
      ((word_recovers c.commitment).single "commitment"))
  exact .via (record_recovers hfields (by decide)) rfl

theorem destination_recovers (d : Destination) : destination.Recovers d :=
  (list_recovers fun b _ ↦ byte_recovers b).checked (Destination.ofBytes_eq_ok_iff.2 rfl)

theorem deposit_recovers (d : Deposit) : deposit.Recovers d := by
  have hfields := ((address_recovers d.token).single "token").append
    (((address_recovers d.sender).single "sender").append
      (((destination_recovers d.destination).single "destination").append
        (((uint256_recovers d.amount).single "amount").append
          ((uint64_recovers d.nonce).single "event_nonce"))))
  exact .via (record_recovers hfields (by decide)) rfl

theorem payout_recovers (p : Payout) : payout.Recovers p := by
  have hfields := ((address_recovers p.destination).single "destination").append
    (((uint256_recovers p.amount).single "amount").append ((uint256_recovers p.fee).single "fee"))
  exact .via (record_recovers hfields (by decide)) rfl

theorem batch_recovers (b : Batch) : batch.Recovers b := by
  have hpayouts : (list payout).Recovers b.payouts := list_recovers fun p _ ↦ payout_recovers p
  have hfields := ((address_recovers b.token).single "token_contract").append
    ((hpayouts.single "transactions").append ((uint64_recovers b.nonce).single "batch_nonce"))
  exact .via (record_recovers hfields (by decide)) rfl

/-- What is written under the name of one kind of event is no event of another kind. -/
theorem event_recovers (e : Event) : event.Recovers e := by
  have hnodup : ["Deposit", "ValidatorSetUpdated", "BatchExecuted", "AdminChanged",
    "Upgraded"].Nodup := by decide
  cases e with
  | deposit record =>
    have h := deposit_recovers record
    refine ⟨h.printable_tagged hnodup (.head _), ?_⟩
    simp only [event, eventOf]
    rw [depositEvent, h.ofJson?_tagged]
    rfl
  | validatorSetUpdated checkpoint nonce =>
    have h := record_recovers (((word_recovers checkpoint).single "checkpoint").append
      ((uint64_recovers nonce).single "nonce")) (by decide)
    refine ⟨h.printable_tagged hnodup (.tail _ (.head _)), ?_⟩
    simp only [event, eventOf]
    rw [validatorSetUpdated, h.ofJson?_tagged]
    rfl
  | batchExecuted token nonce =>
    have h := record_recovers (((address_recovers token).single "token").append
      ((uint64_recovers nonce).single "batch_nonce")) (by decide)
    refine ⟨h.printable_tagged hnodup (.tail _ (.tail _ (.head _))), ?_⟩
    simp only [event, eventOf]
    rw [batchExecuted, h.ofJson?_tagged]
    rfl
  | adminChanged previous new =>
    have h := record_recovers (((address_recovers previous).single "previous").append
      ((address_recovers new).single "new")) (by decide)
    refine ⟨h.printable_tagged hnodup (.tail _ (.tail _ (.tail _ (.head _)))), ?_⟩
    simp only [event, eventOf]
    rw [adminChanged, h.ofJson?_tagged]
    rfl
  | upgraded version =>
    have h := record_recovers ((uint64_recovers version).single "version") (by decide)
    refine ⟨h.printable_tagged hnodup (.tail _ (.tail _ (.tail _ (.tail _ (.head _))))), ?_⟩
    simp only [event, eventOf]
    rw [upgraded, h.ofJson?_tagged]
    rfl

theorem entryPoint_recovers (e : EntryPoint) : entryPoint.Recovers e :=
  oneOf_recovers (by decide) (by cases e <;> decide)

theorem implementation_recovers (v : Implementation) : implementation.Recovers v :=
  oneOf_recovers (by decide) (by cases v <;> decide)

/-- Every value is read back from its text, and its bytes are the same as before. -/
structure RoundTrips {α : Type} (f : Format α) (g : Borsh.Format α) : Prop where
  ofText?_text : ∀ a, f.ofText? (f.text a) = some a
  encode_ofText?_text : ∀ a, (f.ofText? (f.text a)).map g.encode = some (g.encode a)

theorem roundTrips {α : Type} {f : Format α} (h : ∀ a, f.Recovers a) (g : Borsh.Format α) :
    f.RoundTrips g where
  ofText?_text a := (h a).ofText?_text
  encode_ofText?_text a := by rw [(h a).ofText?_text, Option.map_some]

/-- No value is too large and no list too long to be read back from its text. -/
theorem texts_recover :
    bridgeId.RoundTrips Borsh.Format.bridgeId ∧
    threshold.RoundTrips Borsh.Format.threshold ∧
    validator.RoundTrips Borsh.Format.validator ∧
    validatorSet.RoundTrips Borsh.Format.validatorSet ∧
    signature.RoundTrips Borsh.Format.signature ∧
    attestation.RoundTrips Borsh.Format.attestation ∧
    signatureSet.RoundTrips Borsh.Format.signatureSet ∧
    checkpoint.RoundTrips Borsh.Format.checkpoint ∧
    destination.RoundTrips Borsh.Format.destination ∧
    deposit.RoundTrips Borsh.Format.deposit ∧
    payout.RoundTrips Borsh.Format.payout ∧
    batch.RoundTrips Borsh.Format.batch ∧
    event.RoundTrips Borsh.Format.event ∧
    entryPoint.RoundTrips Borsh.Format.entryPoint ∧
    implementation.RoundTrips Borsh.Format.implementation :=
  ⟨roundTrips bridgeId_recovers _, roundTrips threshold_recovers _,
    roundTrips validator_recovers _, roundTrips validatorSet_recovers _,
    roundTrips signature_recovers _, roundTrips attestation_recovers _,
    roundTrips signatureSet_recovers _, roundTrips checkpoint_recovers _,
    roundTrips destination_recovers _, roundTrips deposit_recovers _,
    roundTrips payout_recovers _, roundTrips batch_recovers _, roundTrips event_recovers _,
    roundTrips entryPoint_recovers _, roundTrips implementation_recovers _⟩

/-- A seat that was left empty. -/
example : signatureSet.text (.abstaining 2) = "\x7b\"slots\":[null,null]\x7d" := by decide +kernel

end TokenBridge.Json.Format
