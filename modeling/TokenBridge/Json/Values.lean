import TokenBridge.Checkpoint
import TokenBridge.Event.Basic
import TokenBridge.Implementation
import TokenBridge.Json.Format
import TokenBridge.Validator.Signatures
import TokenBridge.Validator.Threshold

namespace TokenBridge.Json.Format

open Fields (single)

def address : Format Address := fixed 20

def word : Format Word := fixed 32

def bridgeId : Format BridgeId := word.checked BridgeId.ofWord (·.word)

def threshold : Format PowerThreshold :=
  uint32.checked PowerThreshold.ofBasisPoints (·.basisPoints)

def validator : Format Validator :=
  (record (single "address" address ++ single "power" uint64)).via
    (fun (address, power) ↦ { address, power }) fun v ↦ (v.address, v.power)

def validatorSet : Format ValidatorSet := (list validator).checked ValidatorSet.ofList (·.members)

def signature : Format Signature :=
  (record (single "r" word ++ (single "s" word ++ single "v" byte))).via
    (fun (r, s, v) ↦ { r, s, v }) fun sig ↦ (sig.r, sig.s, sig.v)

def attestation : Format Attestation :=
  (record (single "validator" address ++ single "signature" signature)).via
    (fun (validator, signature) ↦ { validator, signature }) fun a ↦ (a.validator, a.signature)

def signatureSet : Format SignatureSet :=
  (record (single "slots" (list (option attestation)))).via SignatureSet.mk (·.slots)

def checkpoint : Format Checkpoint :=
  (record (single "bridge_id" bridgeId ++ (single "nonce" uint64 ++ single "commitment" word))).via
    (fun (bridgeId, nonce, commitment) ↦ { bridgeId, nonce, commitment })
    fun c ↦ (c.bridgeId, c.nonce, c.commitment)

def destination : Format Destination := (list byte).checked Destination.ofBytes (·.bytes)

def deposit : Format Deposit :=
  (record (single "token" address ++ (single "sender" address
    ++ (single "destination" destination ++ (single "amount" uint256
    ++ single "event_nonce" uint64))))).via
    (fun (token, sender, destination, amount, nonce) ↦
      { token, sender, destination, amount, nonce })
    fun d ↦ (d.token, d.sender, d.destination, d.amount, d.nonce)

def payout : Format Payout :=
  (record (single "destination" address ++ (single "amount" uint256 ++ single "fee" uint256))).via
    (fun (destination, amount, fee) ↦ { destination, amount, fee })
    fun p ↦ (p.destination, p.amount, p.fee)

def batch : Format Batch :=
  (record (single "token_contract" address ++ (single "transactions" (list payout)
    ++ single "batch_nonce" uint64))).via
    (fun (token, payouts, nonce) ↦ { token, payouts, nonce })
    fun b ↦ (b.token, b.payouts, b.nonce)

def depositEvent {δ : Type} (deposit : Format δ) : Format δ := tagged "Deposit" deposit

def validatorSetUpdated : Format (Word × UInt64) :=
  tagged "ValidatorSetUpdated" (record (single "checkpoint" word ++ single "nonce" uint64))

def batchExecuted : Format (Address × UInt64) :=
  tagged "BatchExecuted" (record (single "token" address ++ single "batch_nonce" uint64))

def adminChanged : Format (Address × Address) :=
  tagged "AdminChanged" (record (single "previous" address ++ single "new" address))

def upgraded : Format UInt64 := tagged "Upgraded" (record (single "version" uint64))

def eventOf {δ : Type} (deposit : Format δ) : Format (Event δ) where
  shape := .join [(depositEvent deposit).shape, validatorSetUpdated.shape, batchExecuted.shape,
    adminChanged.shape, upgraded.shape]
  toJson
    | .deposit record => (depositEvent deposit).toJson record
    | .validatorSetUpdated checkpoint nonce => validatorSetUpdated.toJson (checkpoint, nonce)
    | .batchExecuted token nonce => batchExecuted.toJson (token, nonce)
    | .adminChanged previous new => adminChanged.toJson (previous, new)
    | .upgraded version => upgraded.toJson version
  ofJson? j :=
    ((depositEvent deposit).ofJson? j).map .deposit
      <|> (validatorSetUpdated.ofJson? j).map (fun p ↦ .validatorSetUpdated p.1 p.2)
      <|> (batchExecuted.ofJson? j).map (fun p ↦ .batchExecuted p.1 p.2)
      <|> (adminChanged.ofJson? j).map (fun p ↦ .adminChanged p.1 p.2)
      <|> (upgraded.ofJson? j).map .upgraded

def event : Format Event := eventOf deposit

def entryPoint : Format EntryPoint := oneOf EntryPoint.all EntryPoint.name

def implementation : Format Implementation := oneOf Implementation.all Implementation.name

end TokenBridge.Json.Format
