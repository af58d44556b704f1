import TokenBridge.Borsh.Format
import TokenBridge.Checkpoint
import TokenBridge.Event.Basic
import TokenBridge.Implementation
import TokenBridge.Validator.Signatures
import TokenBridge.Validator.Threshold

namespace TokenBridge.Borsh.Format

def address : Format Address := fixed 20

def word : Format Word := fixed 32

def bridgeId : Format BridgeId := word.checked BridgeId.ofWord (·.word) DataError.message

def threshold : Format PowerThreshold :=
  uint32.checked PowerThreshold.ofBasisPoints (·.basisPoints) QuorumError.message

def validator : Format Validator :=
  (pair address uint64).via (fun (address, power) ↦ { address, power }) fun v ↦ (v.address, v.power)

def validatorSet : Format ValidatorSet :=
  (list validator).checked ValidatorSet.ofList (·.members) QuorumError.message

def signature : Format Signature :=
  (pair word (pair word byte)).via (fun (r, s, v) ↦ { r, s, v }) fun sig ↦ (sig.r, sig.s, sig.v)

def attestation : Format Attestation :=
  (pair address signature).via (fun (validator, signature) ↦ { validator, signature })
    fun a ↦ (a.validator, a.signature)

def signatureSet : Format SignatureSet :=
  (list (option attestation)).via SignatureSet.mk (·.slots)

def checkpoint : Format Checkpoint :=
  (pair bridgeId (pair uint64 word)).via
    (fun (bridgeId, nonce, commitment) ↦ { bridgeId, nonce, commitment })
    fun c ↦ (c.bridgeId, c.nonce, c.commitment)

def destination : Format Destination :=
  (list byte).checked Destination.ofBytes (·.bytes) DataError.message

def deposit : Format Deposit :=
  (pair address (pair address (pair destination (pair uint256 uint64)))).via
    (fun (token, sender, destination, amount, nonce) ↦
      { token, sender, destination, amount, nonce })
    fun d ↦ (d.token, d.sender, d.destination, d.amount, d.nonce)

def payout : Format Payout :=
  (pair address (pair uint256 uint256)).via
    (fun (destination, amount, fee) ↦ { destination, amount, fee })
    fun p ↦ (p.destination, p.amount, p.fee)

def batch : Format Batch :=
  (pair address (pair (list payout) uint64)).via
    (fun (token, payouts, nonce) ↦ { token, payouts, nonce })
    fun b ↦ (b.token, b.payouts, b.nonce)

def eventOf {δ : Type} (deposit : Format δ) : Format (Event δ) where
  encode
    | .deposit record => 0 :: deposit.encode record
    | .validatorSetUpdated checkpoint nonce => 1 :: (pair word uint64).encode (checkpoint, nonce)
    | .batchExecuted token nonce => 2 :: (pair address uint64).encode (token, nonce)
    | .adminChanged previous new => 3 :: (pair address address).encode (previous, new)
    | .upgraded version => 4 :: uint64.encode version
  decode
    | [] => .error .shortInput
    | tag :: rest =>
      if tag = 0 then deposit.decodeAs .deposit rest
      else if tag = 1 then
        (pair word uint64).decodeAs (fun p ↦ .validatorSetUpdated p.1 p.2) rest
      else if tag = 2 then (pair address uint64).decodeAs (fun p ↦ .batchExecuted p.1 p.2) rest
      else if tag = 3 then (pair address address).decodeAs (fun p ↦ .adminChanged p.1 p.2) rest
      else if tag = 4 then uint64.decodeAs .upgraded rest
      else .error (.badTag tag)

def event : Format Event := eventOf deposit

def entryPoint : Format EntryPoint := oneOf EntryPoint.all

def implementation : Format Implementation := oneOf Implementation.all

end TokenBridge.Borsh.Format
